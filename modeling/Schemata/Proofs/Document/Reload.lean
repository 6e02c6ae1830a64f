import Schemata.Document.Schema
import Schemata.Proofs.Column.Bare
import Schemata.Proofs.Computation
import Schemata.Proofs.Document.Check
import Schemata.Proofs.Document.Standard

/-!
# Documents that are saved and loaded again

A schema that was loaded from a document can be saved, and what is loaded from there is the schema with
each default read once more (`Schema.reread`, `Document.defaults_reread`), by any library that keeps its
promises and within any limits. Only a literal text of a type that holds no text can change by that: it
is kept exactly if it is bare. A literal that stood in quotes is saved without them, so it may come back
as an expression, as nothing or as another text, or be a number that is too long; whatever stood in no
quotes comes back as it is.

The way through a document (`Document.ofSchema_eq`, `Document.toSchema_document`) asks for little
(`Schema.IsLoadable`): key fields are never null, lengths and numbers of digits are within their bounds,
and numbers are of a sort that their types read back.
-/

namespace Schemata

/-! ## Reading a schema once more -/

/-- What a default comes to when it is saved and loaded: a text of a type that holds no text is read as
a document gives it. -/
def Default.reread (t : ColumnType) : Default → Option Default
  | text s => if t.family = .string then some (text s) else Literal.ofText t s.toList
  | d => some d

def Field.reread (f : Field) : Field :=
  { f with default := f.default.bind (Default.reread f.type) }

def Table.reread (t : Table) : Table :=
  { t with
    fields := t.fields.map Field.reread
    nodup_fields := by
      rw [List.map_map]
      exact t.nodup_fields }

def Schema.reread (s : Schema) : Schema :=
  { s with
    tables := s.tables.map Table.reread
    nodup_tables := by
      rw [List.map_map]
      exact s.nodup_tables }

/-- What keeps a default from being read once more. -/
def Field.rereadFault? (l : Limits) (f : Field) : Option Fault :=
  Scalar.fault? l f.type (Scalar.ofDefault f.default).2 (Scalar.ofDefault f.default).1

/-- The first default that cannot be read once more decides. -/
def Schema.rereadFault? (l : Limits) (s : Schema) : Option Fault :=
  s.tables.findSome? fun t => t.fields.findSome? (Field.rereadFault? l)

/-! ## Schemas that a document can give -/

/-- A default that a document can give to a column of a type. -/
def Default.IsLoadable (t : ColumnType) : Default → Prop
  | int _ => t.family ≠ .string
  | decimal d => t.family = .fixedPoint ∧ d.IsBounded
  | bool _ | text _ | expr _ => True

structure Field.IsLoadable (f : Field) : Prop where
  nullable : f.primaryKey = true → f.nullable = false
  size : ∀ n ∈ f.type.size, 1 ≤ n
  precision : ∀ n ∈ f.type.precision, 1 ≤ n
  scale : ∀ n ∈ f.type.scale, 0 ≤ n
  default : ∀ d ∈ f.default, d.IsLoadable f.type

def Schema.IsLoadable (s : Schema) : Prop := ∀ t ∈ s.tables, ∀ f ∈ t.fields, f.IsLoadable

/-! ## Building from the parts -/

theorem ColumnType.build_eq (t : ColumnType) :
    build t.kind t.size t.precision t.scale t.values t.enumName t.unsigned = .ok t := by
  rw [build, dif_pos t.isSized_of_size, dif_pos t.eq_decimal_of_precision,
    dif_pos t.isListed_of_values]

theorem Field.build_eq (f : Field) : build f.id f.name f.type f.primaryKey f.unique f.nullable
    f.autoIncrement f.default f.comment = .ok f := by
  rw [build, dif_pos f.isInteger_of_autoIncrement]

theorem Index.build_eq (i : Index) : build i.fields i.unique i.name = .ok i := by
  rw [build, dif_pos i.fields_ne_nil]

theorem Table.build_eq (t : Table) :
    build t.id t.name t.fields t.indexes t.comment t.color t.x t.y = .ok t := by
  rw [build, dif_pos t.nodup_fields]

theorem Schema.build_eq (s : Schema) :
    build s.tables s.references s.enums s.dialect = .ok s := by
  rw [build, dif_pos s.nodup_tables]

/-! ## Through a document -/

theorem Scalar.toDefault_ofDefault {t : ColumnType} {d : Option Default}
    (hd : ∀ x ∈ d, x.IsLoadable t) :
    toDefault t (ofDefault d).2 (ofDefault d).1 = d.bind (Default.reread t) := by
  match d with
  | none => rfl
  | some (.bool b) => rfl
  | some (.expr sql) => rfl
  | some (.text s) => rfl
  | some (.int n) =>
    have hfamily : t.family ≠ .string := hd _ rfl
    show some (Literal.number t (.int n) (Text.intText n)) = _
    rw [Literal.number, if_neg hfamily]
    rfl
  | some (.decimal x) =>
    obtain ⟨hfamily, hx⟩ : t.family = .fixedPoint ∧ x.IsBounded := hd _ rfl
    obtain ⟨hchars, hhead⟩ := Decimal.chars_numeral hx.finite
    show (if t.family = .string then _ else Default.ofRaw t (some (.text x.text))) = _
    rw [if_neg (by simp [hfamily])]
    show Literal.ofText t x.text.toList = some (.decimal x)
    rw [Decimal.text, String.toList_ofList, Literal.ofText_numeral t hchars hhead]
    rw [← String.toList_ofList (l := x.chars), ← Decimal.text, typed_decimal hfamily hx]

namespace Document

/-- The document that a schema is saved as. -/
def tableDoc (t : Table) : TableDoc where
  id := t.id
  name := t.name
  fields := t.fields.map FieldDoc.ofField
  indexes := t.indexes.map IndexDoc.ofIndex
  comment := t.comment
  color := t.color
  x := t.x
  y := t.y

def document (s : Schema) (title : String) : Document where
  title := title
  database := s.dialect
  tables := s.tables.map tableDoc
  references := s.references
  enums := s.enums

theorem isSound_tableDoc {t : Table} (ht : ∀ f ∈ t.fields, f.IsLoadable) :
    (tableDoc t).IsSound := by
  constructor
  · intro d hd
    obtain ⟨f, hf, rfl⟩ := List.mem_map.1 hd
    exact ⟨(ht f hf).size, (ht f hf).precision, (ht f hf).scale⟩
  · intro d hd
    obtain ⟨i, -, rfl⟩ := List.mem_map.1 hd
    exact i.fields_ne_nil

section Saving

variable {lib : Validation} (hlib : lib.IsDocumented)
include hlib

theorem ofField_eq {f : Field} (hf : f.IsLoadable) :
    ofField f lib = .ok (FieldDoc.ofField f) :=
  construct_of_takes (FieldDoc.takes_toJson hlib ⟨hf.size, hf.precision, hf.scale⟩ false)

theorem ofTable_eq {t : Table} (ht : ∀ f ∈ t.fields, f.IsLoadable) :
    ofTable t lib = .ok (tableDoc t) := by
  have hindex : ∀ i ∈ t.indexes, construct (IndexDoc.check lib) (IndexDoc.ofIndex i).toJson =
      .ok (IndexDoc.ofIndex i) :=
    fun i _ => construct_of_takes (IndexDoc.takes_toJson hlib i.fields_ne_nil)
  have hshell : ∀ d : TableDoc, d.fields = [] → d.indexes = [] →
      construct (TableDoc.check lib) d.toJson = .ok d := by
    intro d hfields hindexes
    exact construct_of_takes (TableDoc.takes_toJson hlib ⟨by simp [hfields], by simp [hindexes]⟩)
  rw [ofTable, mapM_eq_ok_map fun f hf => ofField_eq hlib (ht f hf), mapM_eq_ok_map hindex]
  show (construct _ _ >>= _) = _
  rw [hshell _ rfl rfl]
  rfl

/-- A schema that a document can give is saved as its document. -/
theorem ofSchema_eq {s : Schema} (hs : s.IsLoadable) (title : String) :
    ofSchema s title lib = .ok (document s title) := by
  have hreference : ∀ r ∈ s.references, construct (checkReference lib) (referenceJson r false) =
      .ok r := fun r _ => construct_of_takes (takes_referenceJson hlib r false)
  have henum : ∀ e ∈ s.enums, construct (checkEnum lib) (enumJson e) = .ok e :=
    fun e _ => construct_of_takes (takes_enumJson hlib e)
  have hshell : ∀ d : Document, d.tables = [] → construct (check lib) d.toJson = .ok d := by
    intro d htables
    exact construct_of_takes (takes_toJson hlib (by simp [htables]))
  rw [ofSchema, mapM_eq_ok_map fun t ht => ofTable_eq hlib (hs t ht),
    mapM_eq_ok_map (g := id) hreference, mapM_eq_ok_map (g := id) henum, List.map_id, List.map_id]
  show (construct _ _ >>= _) = _
  rw [hshell _ rfl]
  rfl

end Saving

/-- A field goes through its document with its default read once more. -/
theorem toField_ofField {f : Field} (hf : f.IsLoadable) (l : Limits) :
    toField (FieldDoc.ofField f) l = okUnless (f.rereadFault? l) f.reread := by
  have hnull : (!(!f.nullable || f.primaryKey)) = f.nullable := by
    cases hkey : f.primaryKey with
    | false => simp
    | true => simp [hf.nullable hkey]
  have hbuild : ColumnType.build f.type.kind f.type.size f.type.precision f.type.scale f.type.values
      f.type.enumName f.type.unsigned = .ok f.type := ColumnType.build_eq f.type
  have hfield : Field.build f.id f.name f.type f.primaryKey f.unique
      (!(!f.nullable || f.primaryKey)) f.autoIncrement
      (Scalar.toDefault f.type (Scalar.ofDefault f.default).2 (Scalar.ofDefault f.default).1)
      f.comment = .ok f.reread := by
    rw [hnull, Scalar.toDefault_ofDefault hf.default]
    exact f.reread.build_eq
  show (ColumnType.build f.type.kind f.type.size f.type.precision f.type.scale f.type.values
    f.type.enumName f.type.unsigned >>= _) = _
  rw [hbuild]
  show (unlessFault (f.rereadFault? l) >>= _) = _
  cases f.rereadFault? l with
  | some e => rfl
  | none => exact hfield

theorem toTable_tableDoc {t : Table} (ht : ∀ f ∈ t.fields, f.IsLoadable) (l : Limits) :
    toTable (tableDoc t) l = okUnless (t.fields.findSome? (Field.rereadFault? l)) t.reread := by
  have hindexes : (t.indexes.map IndexDoc.ofIndex).mapM
      (fun i => Index.build i.fields i.unique i.name) = .ok t.indexes := by
    rw [mapM_eq_ok_iff, List.forall₂_map_left_iff, List.forall₂_same]
    exact fun i _ => i.build_eq
  have hfields : (t.fields.map FieldDoc.ofField).mapM (toField · l) =
      okUnless (t.fields.findSome? (Field.rereadFault? l)) (t.fields.map Field.reread) := by
    rw [List.mapM_map]
    exact mapM_eq_okUnless fun f hf => toField_ofField (ht f hf) l
  rw [toTable, tableDoc, hfields, hindexes]
  cases t.fields.findSome? (Field.rereadFault? l) with
  | some f => rfl
  | none => exact t.reread.build_eq

/-- A schema goes through its document with its defaults read once more. -/
theorem toSchema_document {s : Schema} (hs : s.IsLoadable) (title : String) (l : Limits) :
    (document s title).toSchema l = okUnless (s.rereadFault? l) s.reread := by
  have htables : (s.tables.map tableDoc).mapM (toTable · l) =
      okUnless (s.rereadFault? l) (s.tables.map Table.reread) := by
    rw [List.mapM_map]
    exact mapM_eq_okUnless fun t ht => toTable_tableDoc (hs t ht) l
  rw [toSchema, document, htables]
  cases s.rereadFault? l with
  | some f => rfl
  | none => exact s.reread.build_eq

end Document

/-! ## What has been loaded -/

/-- A literal that is no other value of a type: a text of a type that holds text, or one that means
nothing else for the type. -/
def Default.IsText (t : ColumnType) (s : String) : Prop :=
  t.family = .string ∨ Literal.typed t s.toList = .text s

structure Field.IsLoaded (f : Field) : Prop extends f.IsLoadable where
  text : ∀ s, f.default = some (.text s) → Default.IsText f.type s

theorem Literal.ofText_cases (t : ColumnType) (s : List Char) :
    (ofText t s = none ∨ ∃ sql, ofText t s = some (.expr sql)) ∨
      ∃ r, ofText t s = some (typed t r) := by
  cases hquoted : isQuoted (core s) with
  | true =>
    obtain ⟨q, hq⟩ := ofText_of_isQuoted t hquoted
    exact .inr ⟨_, hq⟩
  | false =>
    cases hspecial : isSpecial (core s) with
    | true => exact .inl (ofText_of_isSpecial t hquoted hspecial)
    | false => exact .inr ⟨_, ofText_of_plain t hquoted hspecial⟩

theorem Literal.isLoadable_typed {t : ColumnType} (hfamily : t.family ≠ .string) (s : List Char) :
    (typed t s).IsLoadable t ∧ ∀ u, typed t s = .text u → typed t u.toList = .text u := by
  refine ⟨?_, fun u hu => ?_⟩
  · obtain ⟨-, b, hb⟩ | ⟨-, -, n, hn⟩ | ⟨hfixed, d, hd, hdec⟩ | htext := typed_cases t s
    · rw [hb]
      trivial
    · rw [hn]
      exact hfamily
    · rw [hdec]
      exact ⟨hfixed, hd⟩
    · rw [htext]
      trivial
  · have hsame := eq_of_typed_eq_text hu
    rw [hsame, String.toList_ofList, ← hsame]
    exact hu

namespace Scalar

/-- Whatever a default in a document is taken for can be given by a document. -/
theorem isLoadable_toDefault (t : ColumnType) (isExpression : Bool) (s : Option Scalar) :
    ∀ d ∈ toDefault t isExpression s,
      d.IsLoadable t ∧ ∀ u, d = .text u → Default.IsText t u := by
  intro d hd
  obtain _ | s := s
  · cases hd
  cases isExpression with
  | true =>
    cases hd
    exact ⟨trivial, nofun⟩
  | false =>
    cases s with
    | bool b =>
      cases hd
      exact ⟨trivial, nofun⟩
    | int n =>
      have hnumber : d = Literal.number t (.int n) (Text.intText n) := (Option.some.inj hd).symm
      rw [Literal.number] at hnumber
      split_ifs at hnumber with hfamily
      · rw [hnumber]
        exact ⟨trivial, fun _ _ => .inl hfamily⟩
      · rw [hnumber]
        exact ⟨hfamily, nofun⟩
    | str raw =>
      change d ∈ (if t.family = .string then some (.text raw) else Literal.ofText t raw.toList) at hd
      split_ifs at hd with hfamily
      · cases hd
        exact ⟨trivial, fun _ _ => .inl hfamily⟩
      · obtain (hnone | ⟨sql, hsql⟩) | ⟨r, hr⟩ := Literal.ofText_cases t raw.toList
        · rw [hnone] at hd
          cases hd
        · rw [hsql] at hd
          cases hd
          exact ⟨trivial, nofun⟩
        · rw [hr] at hd
          cases hd
          obtain ⟨hload, htext⟩ := Literal.isLoadable_typed hfamily r
          exact ⟨hload, fun u hu => .inr (htext u hu)⟩

end Scalar

namespace Document

variable {l : Limits}

theorem of_toField {doc : FieldDoc} {f : Field} (h : toField doc l = .ok f) :
    f.type.kind = doc.kind ∧ f.type.size = doc.size ∧ f.type.precision = doc.precision ∧
      f.type.scale = doc.scale ∧ f.primaryKey = doc.primary ∧
      f.nullable = !(doc.notNull || doc.primary) ∧
      f.default = Scalar.toDefault f.type doc.isExpression doc.default ∧
      Scalar.fault? l f.type doc.isExpression doc.default = none := by
  obtain ⟨t, ht, h⟩ := bind_eq_ok.1 h
  obtain ⟨⟨⟩, hfault, h⟩ := bind_eq_ok.1 h
  unfold Field.build at h
  unfold ColumnType.build at ht
  split_ifs at h ht
  cases h
  cases ht
  exact ⟨rfl, rfl, rfl, rfl, rfl, rfl, rfl, unlessFault_eq_ok.1 hfault⟩

theorem isLoaded_of_toField {doc : FieldDoc} {f : Field} (hdoc : doc.IsSound)
    (h : toField doc l = .ok f) : f.IsLoaded := by
  obtain ⟨-, hsize, hprecision, hscale, hprimary, hnullable, hdefault, -⟩ := of_toField h
  have hload := Scalar.isLoadable_toDefault f.type doc.isExpression doc.default
  rw [← hdefault] at hload
  refine ⟨⟨fun hkey => ?_, ?_, ?_, ?_, fun d hd => (hload d hd).1⟩, fun u hu => ?_⟩
  · rw [hnullable, ← hprimary, hkey, Bool.or_true]
    rfl
  · exact hsize ▸ hdoc.size
  · exact hprecision ▸ hdoc.precision
  · exact hscale ▸ hdoc.scale
  · exact (hload _ hu).2 u rfl

end Document

/-! ## Which defaults are kept -/

namespace Field

/-- A default is kept exactly if it is no text that would be read as something else. -/
theorem reread_eq_self_iff {f : Field} (hf : f.IsLoaded) :
    f.reread.default = f.default ↔
      ∀ u, f.default = some (.text u) → f.type.family = .string ∨ Literal.IsBare u.toList := by
  have hdefault : f.reread.default = f.default.bind (Default.reread f.type) := rfl
  rw [hdefault]
  cases hd : f.default with
  | none => simp
  | some d =>
    cases d with
    | text u =>
      by_cases hfamily : f.type.family = .string
      · simp [Default.reread, hfamily]
      · have htyped := (hf.text u hd).resolve_left hfamily
        simp [Default.reread, hfamily, Literal.ofText_eq_text_iff htyped]
    | _ => simp [Default.reread]

end Field

/-- A literal in quotes for a type that holds no text. -/
def FieldDoc.HasQuotedDefault (f : FieldDoc) : Prop :=
  f.isExpression = false ∧ f.kind.family ≠ .string ∧
    ∃ raw, f.default = some (.str raw) ∧ Literal.isQuoted (Literal.core raw.toList) = true

namespace Document

variable {l : Limits} {doc : FieldDoc} {f : Field}

/-- A decimal or a text of a type that holds no text came from a text, which was read. -/
theorem exists_raw_of_toField (h : toField doc l = .ok f) (hfamily : f.type.family ≠ .string)
    (hd : (∃ d, f.default = some (.decimal d)) ∨ ∃ u, f.default = some (.text u)) :
    ∃ raw, doc.isExpression = false ∧ doc.default = some (.str raw) ∧
      f.default = Literal.ofText f.type raw.toList ∧ Literal.textFault? l f.type raw.toList = none := by
  obtain ⟨-, -, -, -, -, -, hdefault, hfault⟩ := of_toField h
  cases hscalar : doc.default with
  | none => simp [hdefault, hscalar, Scalar.toDefault] at hd
  | some s =>
    cases hexpr : doc.isExpression with
    | true => simp [hdefault, hscalar, hexpr, Scalar.toDefault] at hd
    | false =>
      cases s with
      | bool b => simp [hdefault, hscalar, hexpr, Scalar.toDefault, Default.ofRaw] at hd
      | int n =>
        simp [hdefault, hscalar, hexpr, Scalar.toDefault, Default.ofRaw, Literal.number,
          hfamily] at hd
      | str raw =>
        simp only [hscalar, hexpr, Scalar.toDefault, Default.ofRaw, hfamily, if_false,
          Bool.false_eq_true] at hdefault
        simp only [hscalar, hexpr, Scalar.fault?, Default.rawFault?, hfamily, or_self, if_false,
          Bool.false_eq_true] at hfault
        exact ⟨raw, rfl, rfl, hdefault, hfault⟩

/-- A text that was read without quotes is bare, and was reached in a text for which there was room. -/
theorem isBare_of_toField (hf : f.IsLoaded) (h : toField doc l = .ok f)
    (hquoted : ¬doc.HasQuotedDefault) {u : String} (hu : f.default = some (.text u))
    (hfamily : f.type.family ≠ .string) : Literal.IsBare u.toList ∧
      Literal.textFault? l f.type u.toList = none := by
  obtain ⟨raw, hexpr, hscalar, hraw, hfault⟩ := exists_raw_of_toField h hfamily (.inr ⟨u, hu⟩)
  have hkindFamily : doc.kind.family ≠ .string := (of_toField h).1 ▸ hfamily
  have hcore : Literal.isQuoted (Literal.core raw.toList) = false := by
    by_contra hcore
    rw [Bool.not_eq_false] at hcore
    exact hquoted ⟨hexpr, hkindFamily, raw, hscalar, hcore⟩
  have htext : Literal.ofText f.type raw.toList = some (.text u) := hraw.symm.trans hu
  have hbare := Literal.isBare_of_ofText htext hcore
  have htyped := (hf.text u hu).resolve_left hfamily
  refine ⟨hbare, Literal.textFault?_of_isBare hbare htyped ?_⟩
  rw [(Literal.core_of_ofText htext hcore).1]
  exact Limits.callFault?_mono (Literal.unwrapCalls_core_le _)
    (Literal.callFault?_of_textFault? hfault)

/-- A decimal was reached in a text for which there was room. -/
theorem textFault?_of_toField (h : toField doc l = .ok f) {d : Decimal}
    (hd : f.default = some (.decimal d)) (hload : (Default.decimal d).IsLoadable f.type) :
    Literal.textFault? l f.type d.text.toList = none := by
  obtain ⟨hfamily, hbounded⟩ := hload
  obtain ⟨raw, -, -, -, hfault⟩ := exists_raw_of_toField h (by simp [hfamily]) (.inl ⟨d, hd⟩)
  exact Literal.textFault?_decimal hfamily (Limits.callFault?_mono (Literal.one_le_unwrapCalls _)
    (Literal.callFault?_of_textFault? hfault)) hbounded

/-- Nothing keeps a default from being read once more that stood in no quotes. -/
theorem rereadFault?_of_toField (hf : f.IsLoaded) (h : toField doc l = .ok f)
    (hquoted : ¬doc.HasQuotedDefault) : f.rereadFault? l = none := by
  unfold Field.rereadFault?
  cases hd : f.default with
  | none => rfl
  | some d =>
    have hload := hf.default d hd
    cases d with
    | bool b => rfl
    | int n => exact if_neg hload
    | expr sql => simp [Scalar.ofDefault, Scalar.fault?]
    | decimal d =>
      have hfamily : f.type.family ≠ .string := by simp [hload.1]
      show (if _ ∨ _ then none else Default.rawFault? l f.type (some (.text d.text))) = none
      rw [if_neg (by simp [Scalar.ofDefault, hfamily])]
      exact textFault?_of_toField h hd hload
    | text u =>
      show (if _ ∨ _ then none else Default.rawFault? l f.type (some (.text u))) = none
      by_cases hfamily : f.type.family = .string
      · exact if_pos (.inr hfamily)
      · rw [if_neg (by simp [Scalar.ofDefault, hfamily])]
        exact (isBare_of_toField hf h hquoted hd hfamily).2

/-- A default that stood in no quotes is read once more as it is. -/
theorem reread_eq_self_of_toField (hf : f.IsLoaded) (h : toField doc l = .ok f)
    (hquoted : ¬doc.HasQuotedDefault) : f.reread.default = f.default := by
  rw [Field.reread_eq_self_iff hf]
  intro u hu
  by_cases hfamily : f.type.family = .string
  · exact .inl hfamily
  · exact .inr (isBare_of_toField hf h hquoted hu hfamily).1

/-- The fields of a document and of the schema that it gives, one by one. -/
theorem of_toSchema {doc : Document} {s : Schema} (h : doc.toSchema l = .ok s) :
    List.Forall₂ (fun d t => List.Forall₂ (fun d f => toField d l = .ok f) d.fields t.fields)
      doc.tables s.tables := by
  obtain ⟨tables, htables, h⟩ := bind_eq_ok.1 h
  unfold Schema.build at h
  split_ifs at h
  cases h
  refine (mapM_eq_ok_iff.1 htables).imp fun d t ht => ?_
  obtain ⟨fields, hfields, ht⟩ := bind_eq_ok.1 ht
  obtain ⟨indexes, -, ht⟩ := bind_eq_ok.1 ht
  unfold Table.build at ht
  split_ifs at ht
  cases ht
  exact mapM_eq_ok_iff.1 hfields

theorem forall_isLoaded {doc : Document} {s : Schema} (hdoc : ∀ t ∈ doc.tables, t.IsSound)
    (h : doc.toSchema l = .ok s) : ∀ t ∈ s.tables, ∀ f ∈ t.fields, f.IsLoaded := by
  have hfields : ∀ d t, TableDoc.IsSound d ∧
      List.Forall₂ (fun d f => toField d l = .ok f) d.fields (Table.fields t) →
        ∀ f ∈ t.fields, f.IsLoaded := by
    rintro d t ⟨hd, hfields⟩
    refine forall_mem_right (((List.forall₂_and_left _ _).2 ⟨hd.fields, hfields⟩).imp ?_)
    rintro d f ⟨hd, hf⟩
    exact isLoaded_of_toField hd hf
  exact forall_mem_right (((List.forall₂_and_left _ _).2 ⟨hdoc, of_toSchema h⟩).imp hfields)

/-- A schema from a document can be saved, and loading it again reads its defaults once more, unless
there is no room for one of them. A default stays as it is unless it is a text that looks like something
else by now, and that it does only where the document had it in quotes. -/
theorem defaults_reread {lib : Validation} (hlib : lib.IsDocumented) (l : Limits) {j : Json}
    {s : Schema} (h : schemaOfJson j l lib = .ok s) (title : String) :
    (∃ saved, ofSchema s title lib = .ok saved ∧
      saved.toSchema l = okUnless (s.rereadFault? l) s.reread) ∧
      (∀ t ∈ s.tables, ∀ f ∈ t.fields, f.reread.default = f.default ↔
        ∀ u, f.default = some (.text u) → f.type.family = .string ∨ Literal.IsBare u.toList) ∧
      ∃ doc, ofJson j lib = .ok doc ∧
        List.Forall₂ (fun d t => List.Forall₂ (fun d f => ¬d.HasQuotedDefault →
          f.rereadFault? l = none ∧ f.reread.default = f.default) d.fields t.fields)
            doc.tables s.tables := by
  obtain ⟨doc, hdoc, h⟩ := bind_eq_ok.1 h
  have hsound := isSound_of_ofJson hlib hdoc
  have hloaded := forall_isLoaded hsound h
  have hload : s.IsLoadable := fun t ht f hf => (hloaded t ht f hf).1
  refine ⟨⟨_, ofSchema_eq hlib hload title, toSchema_document hload title l⟩,
    fun t ht f hf => Field.reread_eq_self_iff (hloaded t ht f hf), doc, hdoc, ?_⟩
  refine ((List.forall₂_and_left _ _).2 ⟨hsound, of_toSchema h⟩).imp fun d t ht => ?_
  refine ((List.forall₂_and_left _ _).2 ⟨ht.1.fields, ht.2⟩).imp fun d f hf hquoted => ?_
  have hf' := isLoaded_of_toField hf.1 hf.2
  exact ⟨rereadFault?_of_toField hf' hf.2 hquoted, reread_eq_self_of_toField hf' hf.2 hquoted⟩

/-- Defaults in quotes and without them. -/
def stall : Document where
  tables := [{
    id := "t0", name := "stall"
    fields := [
      { id := "f0", name := "opened", kind := .timestamp, default := some (.str "'now()'") },
      { id := "f1", name := "closed", kind := .timestamp, default := some (.str "('soon'::text)") },
      { id := "f2", name := "goods", kind := .json, default := some (.str "'null'") },
      { id := "f3", name := "until", kind := .date, default := some (.str "'''x'''") },
      { id := "f4", name := "stock", kind := .integer, default := some (.str "'5'") },
      { id := "f5", name := "motto", kind := .varchar, default := some (.str "'now()'") },
      { id := "f6", name := "moved", kind := .date, default := some (.str "Monday") }] }]

/-- Limits that a machine may have. -/
def room : Limits := { digits := some 4300, calls := some 900 }

/-- Three of the defaults are read once more as an expression, as nothing and as another text. -/
theorem exists_stall : ∃ s, schemaOfJson stall.toJson room = .ok s ∧
    s.tables.flatMap (·.fields.map Field.default) =
      [some (.text "now()"), some (.text "soon"), some (.text "null"), some (.text "'x'"),
        some (.int 5), some (.text "'now()'"), some (.text "Monday")] ∧
    s.rereadFault? room = none ∧
    s.reread.tables.flatMap (·.fields.map Field.default) =
      [some (.expr "now()"), some (.text "soon"), none, some (.text "x"), some (.int 5),
        some (.text "'now()'"), some (.text "Monday")] :=
  exists_ok_of_any (by decide +kernel)

theorem defaults_reread_stall : ∃ s, schemaOfJson stall.toJson room = .ok s ∧ s.reread ≠ s ∧
    ∃ saved, ofSchema s = .ok saved ∧ saved.toSchema room = .ok s.reread := by
  obtain ⟨s, hs, hbefore, hfault, hafter⟩ := exists_stall
  refine ⟨s, hs, fun hsame => ?_, ?_⟩
  · rw [hsame, hbefore] at hafter
    exact absurd hafter (by decide)
  · have hreread := (defaults_reread Validation.isDocumented_standard room hs "").1
    rwa [hfault] at hreread

end Document

end Schemata
