import Mathlib.Algebra.Ring.Int.Defs
import Mathlib.Tactic.MkIffOfInductiveProp
import Schemata.Proofs.Document.Reload
import Schemata.Proofs.Json.RoundTrip

/-!
# Schemas kept in documents

What `Document.write` gives for a schema, under any title and in any style, is read back as the schema
itself, unless a number in it has more digits than there is room for when it is read: then the text is
refused (`Document.read_write`). The schema has to be one that a document can hold
(`Schema.IsStorable`): key fields are never null, lengths and numbers of digits are within their bounds,
and every default is of a sort that its type reads back. The library that writes and reads may be any
that keeps its promises, as long as the text of each coordinate means the coordinate
(`Schema.HasKeptCoordinates`).

A document is written and read in three layers, and each is undone by its own lemma: the text by
`Json.ofText?_of_isText`, the JSON value by `Document.takes_toJson`, and the document by
`Document.toSchema_document`, since a default that a document can hold stays as it is when it is read
once more (`Schema.reread_eq_self`).
-/

namespace Schemata

/-! ## Schemas that a document can hold -/

/-- A default that a document keeps for a column of a type. -/
def Default.IsStorable (t : ColumnType) : Default → Prop
  | bool _ => True
  | int _ => t.family ≠ .string
  | decimal d => t.family = .fixedPoint ∧ d.IsBounded
  | text _ => t.family = .string
  | expr _ => True

@[mk_iff]
structure Field.IsStorable (f : Field) : Prop where
  nullable : f.primaryKey = true → f.nullable = false
  size : ∀ n ∈ f.type.size, 1 ≤ n
  precision : ∀ n ∈ f.type.precision, 1 ≤ n
  scale : ∀ n ∈ f.type.scale, 0 ≤ n
  default : ∀ d ∈ f.default, d.IsStorable f.type

def Schema.IsStorable (s : Schema) : Prop := ∀ t ∈ s.tables, ∀ f ∈ t.fields, f.IsStorable

/-- The text that a library writes for a coordinate means the coordinate. -/
def Schema.HasKeptCoordinates (s : Schema) (lib : Validation) : Prop :=
  ∀ t ∈ s.tables, lib.Keeps t.x ∧ lib.Keeps t.y

section Decidable

instance (d : Decimal) : Decidable d.IsBounded :=
  match d with
  | .finite negative c e => inferInstanceAs
    (Decidable (Decimal.bounded? negative c e = some (.finite negative c e)))
  | .infinite _ | .nan => isFalse id

instance (t : ColumnType) (d : Default) : Decidable (d.IsStorable t) :=
  match d with
  | .bool _ | .expr _ => isTrue trivial
  | .int _ => inferInstanceAs (Decidable (t.family ≠ .string))
  | .decimal d => inferInstanceAs (Decidable (t.family = .fixedPoint ∧ d.IsBounded))
  | .text _ => inferInstanceAs (Decidable (t.family = .string))

instance (f : Field) : Decidable f.IsStorable := decidable_of_iff' _ (Field.isStorable_iff f)

instance (s : Schema) : Decidable s.IsStorable :=
  inferInstanceAs (Decidable (∀ t ∈ s.tables, ∀ f ∈ t.fields, f.IsStorable))

instance (s : Schema) (lib : Validation) : Decidable (s.HasKeptCoordinates lib) :=
  inferInstanceAs (Decidable (∀ t ∈ s.tables, lib.Keeps t.x ∧ lib.Keeps t.y))

end Decidable

/-! ## Reading once more changes nothing -/

theorem Default.isLoadable_of_isStorable {t : ColumnType} {d : Default} (h : d.IsStorable t) :
    d.IsLoadable t := by
  cases d with
  | int n => exact h
  | decimal d => exact h
  | _ => trivial

theorem Default.reread_eq_some {t : ColumnType} {d : Default} (h : d.IsStorable t) :
    d.reread t = some d := by
  cases d with
  | text s => exact if_pos h
  | _ => rfl

theorem Field.IsStorable.isLoadable {f : Field} (h : f.IsStorable) : f.IsLoadable :=
  ⟨h.nullable, h.size, h.precision, h.scale, fun d hd =>
    Default.isLoadable_of_isStorable (h.default d hd)⟩

theorem Schema.IsStorable.isLoadable {s : Schema} (h : s.IsStorable) : s.IsLoadable :=
  fun t ht f hf => (h t ht f hf).isLoadable

theorem Field.reread_eq_self {f : Field} (h : f.IsStorable) : f.reread = f := by
  have hdefault : f.default.bind (Default.reread f.type) = f.default := by
    cases hd : f.default with
    | none => rfl
    | some d => exact Default.reread_eq_some (h.default d hd)
  rw [Field.reread, hdefault]

theorem Table.reread_eq_self {t : Table} (h : ∀ f ∈ t.fields, f.IsStorable) : t.reread = t := by
  have hfields : t.fields.map Field.reread = t.fields :=
    (List.map_congr_left fun f hf => Field.reread_eq_self (h f hf)).trans (List.map_id _)
  cases t
  simpa [Table.reread] using hfields

theorem Schema.reread_eq_self {s : Schema} (h : s.IsStorable) : s.reread = s := by
  have htables : s.tables.map Table.reread = s.tables :=
    (List.map_congr_left fun t ht => Table.reread_eq_self (h t ht)).trans (List.map_id _)
  cases s
  simpa [Schema.reread] using htables

variable {l : Limits}

/-- Nothing keeps a storable default from being read once more, if there is room for one call. -/
theorem Field.rereadFault?_eq_none (hcall : l.callFault? 1 = none) {f : Field} (h : f.IsStorable) :
    f.rereadFault? l = none := by
  unfold Field.rereadFault?
  cases hd : f.default with
  | none => rfl
  | some d =>
    have hstorable := h.default d hd
    cases d with
    | bool b => rfl
    | int n => exact if_neg hstorable
    | expr sql => simp [Scalar.ofDefault, Scalar.fault?]
    | text s => exact if_pos (.inr hstorable)
    | decimal d =>
      have hfamily : f.type.family ≠ .string := by simp [hstorable.1]
      show (if _ ∨ _ then none else Default.rawFault? l f.type (some (.text d.text))) = none
      rw [if_neg (by simp [Scalar.ofDefault, hfamily])]
      exact Literal.textFault?_decimal hstorable.1 hcall hstorable.2

theorem Schema.rereadFault?_eq_none (hcall : l.callFault? 1 = none) {s : Schema}
    (h : s.IsStorable) : s.rereadFault? l = none := by
  rw [Schema.rereadFault?, List.findSome?_eq_none_iff]
  intro t ht
  rw [List.findSome?_eq_none_iff]
  exact fun f hf => Field.rereadFault?_eq_none hcall (h t ht f hf)

/-! ## Numbers in a document -/

/-- The whole numbers that are written for a field, in their order. -/
def Field.storedNumbers (f : Field) : List Int :=
  f.type.size.toList ++ f.type.precision.toList ++ f.type.scale.toList ++
    f.default.elim [] Default.numbers

def Schema.storedNumbers (s : Schema) : List Int :=
  s.tables.flatMap fun t => t.fields.flatMap Field.storedNumbers

theorem Limits.firstLong?_eq_none {ns : List Int} (h : ∀ limit, ¬l.Exceeds ns limit) :
    Json.firstLong? l.digits ns = none := by
  rw [Json.firstLong?, List.findSome?_eq_none_iff]
  intro n hn
  rw [Json.longNumber?, Option.map_eq_none_iff, Option.filter_eq_none_iff]
  intro limit hlimit hlong
  exact h limit ⟨hlimit, n, hn, of_decide_eq_true hlong⟩

/-- The first number that is too long is the one that a reader complains about. -/
theorem Limits.Exceeds.exists_firstLong? {ns : List Int} {limit : Nat} (h : l.Exceeds ns limit) :
    ∃ digits, Json.firstLong? l.digits ns = some (.number (.tooLong limit digits)) := by
  obtain ⟨hlimit, n, hn, hlong⟩ := h
  cases hfirst : Json.firstLong? l.digits ns with
  | none =>
    have hnone := List.findSome?_eq_none_iff.1 hfirst n hn
    simp only [Json.longNumber?, hlimit, Option.map_eq_none_iff, Option.filter_eq_none_iff] at hnone
    exact absurd (decide_eq_true hlong) (hnone limit rfl)
  | some flaw =>
    obtain ⟨m, -, hm⟩ := List.exists_of_findSome?_eq_some hfirst
    rw [Json.longNumber?, hlimit, Option.map_eq_some_iff] at hm
    obtain ⟨most, hmost, rfl⟩ := hm
    cases (Option.filter_eq_some_iff.1 hmost).1
    exact ⟨_, rfl⟩

namespace Document

theorem ints_ofField (f : Field) : ((FieldDoc.ofField f).toJson).ints = f.storedNumbers := by
  have hnumber : ∀ n : Option Int, (n.elim .null .int : Json).ints = n.toList := by
    intro n
    cases n <;> simp
  have hdefault : ((Scalar.ofDefault f.default).1.elim .null Scalar.toJson).ints =
      f.default.elim [] Default.numbers := by
    obtain _ | d := f.default
    · simp [Scalar.ofDefault]
    · cases d <;> simp [Scalar.ofDefault, Scalar.toJson, Default.numbers]
  simp [FieldDoc.toJson, FieldDoc.ofField, hnumber, hdefault, Field.storedNumbers]

theorem ints_document (s : Schema) (title : String) :
    (document s title).toJson.ints = s.storedNumbers := by
  have htable : ∀ t : Table, (tableDoc t).toJson.ints = t.fields.flatMap Field.storedNumbers := by
    intro t
    simp [TableDoc.toJson, IndexDoc.toJson, tableDoc, List.flatMap_map, ints_ofField]
  simp [toJson, referenceJson, enumJson, document, List.flatMap_map, htable, Schema.storedNumbers]

/-! ## The text of a document -/

variable {floatText : Binary64 → List Char}

theorem isReadable_field (f : FieldDoc) : f.toJson.IsReadable floatText := by
  have hnumber : ∀ n : Option Int, Json.IsReadable floatText (n.elim .null .int) := by
    intro n
    cases n <;> simp
  have hdefault : Json.IsReadable floatText (f.default.elim .null Scalar.toJson) := by
    obtain _ | d := f.default
    · simp
    · cases d <;> simp [Scalar.toJson]
  simp [FieldDoc.toJson, hnumber, hdefault]

theorem isReadable_document {s : Schema} (title : String)
    (h : ∀ t ∈ s.tables, Json.MeansFloat (floatText t.x) t.x ∧ Json.MeansFloat (floatText t.y) t.y) :
    (document s title).toJson.IsReadable floatText := by
  have htables : ∀ t ∈ s.tables, (tableDoc t).toJson.IsReadable floatText := by
    intro t ht
    simp [TableDoc.toJson, IndexDoc.toJson, tableDoc, isReadable_field, h t ht]
  simpa [toJson, referenceJson, enumJson, document] using htables

/-- A schema is read back from its document, whatever the title, the layout of the text and the library,
unless it has a number that is too long to be read: then the text that is written for it is refused. -/
theorem read_write {lib : Validation} (hlib : lib.IsDocumented) (hdump : lib.DumpsText l)
    (hcall : l.callFault? 1 = none) {s : Schema} (hs : s.IsStorable)
    (hkept : s.HasKeptCoordinates lib) (title : String) (style : Json.Style) :
    ((∀ limit, ¬l.Exceeds s.storedNumbers limit) →
      ∃ text, write s title style lib = .ok text ∧ read text l lib = .ok s) ∧
      ∀ limit, l.Exceeds s.storedNumbers limit → ∀ text, write s title style lib = .ok text →
        ∃ digits, read text l lib = .error (.badNumeral (.tooLong limit digits)) := by
  have hwrite : write s title style lib = lib.dump style (document s title).toJson := by
    rw [write, ofSchema_eq hlib hs.isLoadable]
    rfl
  have hreadable : Json.IsReadable (fun x => (lib.floatText x).toList)
      (document s title).toJson := isReadable_document title
    fun t ht => ⟨hdump.meansFloat (hkept t ht).1, hdump.meansFloat (hkept t ht).2⟩
  have htext : ∀ text, write s title style lib = .ok text → Json.ofText? text l.digits =
      Json.unlessLong l.digits s.storedNumbers (document s title).toJson := by
    intro text htext
    rw [hwrite] at htext
    rw [Json.ofText?_of_isText l.digits hreadable (hdump.isText htext), ints_document]
  refine ⟨fun hfits => ?_, fun limit hlong text hto => ?_⟩
  · obtain ⟨text, hto⟩ := hdump.exists_dump style (j := (document s title).toJson)
      (by rwa [ints_document])
    have hcheck : ofJson (document s title).toJson lib = .ok (document s title) := by
      rw [ofJson, takes_toJson hlib fun d hd => ?_]
      · rfl
      · obtain ⟨t, ht, rfl⟩ := List.mem_map.1 hd
        exact isSound_tableDoc (hs.isLoadable t ht)
    have hback : (document s title).toSchema l = .ok s := by
      rw [toSchema_document hs.isLoadable, Schema.rereadFault?_eq_none hcall hs,
        Schema.reread_eq_self hs]
      rfl
    rw [← hwrite] at hto
    refine ⟨text, hto, ?_⟩
    rw [read, htext text hto, Json.unlessLong, Limits.firstLong?_eq_none hfits]
    exact bind_eq_ok.2 ⟨_, hcheck, hback⟩
  · obtain ⟨digits, hfirst⟩ := hlong.exists_firstLong?
    refine ⟨digits, ?_⟩
    rw [read, htext text hto, Json.unlessLong, hfirst]
    rfl

/-- A field that does not count up by itself. -/
def shopField (id name : String) (type : ColumnType) (default : Option Default) : Field where
  id := id
  name := name
  type := type
  default := default

/-- A table with a default of each sort, next to an index and a reference to itself. -/
def shop : Schema where
  tables := [{
    id := "t0", name := "item"
    fields := [
      { id := "f0", name := "id", type := .plain .bigserial, primaryKey := true, nullable := false
        autoIncrement := true, isInteger_of_autoIncrement := fun _ => rfl },
      shopField "f1" "title" { kind := .varchar, size := some 40, isSized_of_size := fun _ => rfl }
        (some (.text "\"new\"\n\\")),
      shopField "f2" "price" (.decimal (some 8) (some 2) true)
        (some (.decimal (.finite true 150 (-2)))),
      shopField "f3" "state" (.ofEnum "state" ["on", "off"]) (some (.text "on")),
      shopField "f4" "stock" (.plain .integer) (some (.int (-1))),
      shopField "f5" "listed" (.plain .boolean) (some (.bool true)),
      shopField "f6" "added" (.plain .timestamp) (some (.expr "now()")),
      shopField "f7" "part of" (.plain .bigint) none]
    indexes := [{ fields := ["title", "price"], unique := true, name := some "by title"
                  fields_ne_nil := by simp }]
    nodup_fields := by decide
    comment := "\u00e4", x := .ofInt 20, y := .ofDecimal true 15 (-1) }]
  references := [{ id := "r0", sourceTable := "t0", sourceField := "f7", targetTable := "t0"
                   targetField := "f0", onUpdate := .noAction, onDelete := .setNull }]
  enums := [⟨"state", ["on", "off"]⟩]
  dialect := .mssql

theorem isStorable_shop : shop.IsStorable := by decide +kernel

/-- A table with a default of more digits than there is room for. -/
def vault : Schema where
  tables := [{
    id := "t0", name := "vault"
    fields := [shopField "f0" "balance" (.plain .bigint) (some (.int ((10 ^ 100) ^ 43)))]
    nodup_fields := by decide }]

theorem isStorable_vault : vault.IsStorable := by decide +kernel

theorem read_write_shop :
    (∃ text, write shop "Shop" (.indented 3) = .ok text ∧ read text room = .ok shop) ∧
      ∃ text digits, write vault = .ok text ∧
        read text room = .error (.badNumeral (.tooLong 4300 digits)) := by
  have hlib := Validation.isDocumented_standard
  have hdump := Validation.dumpsText_standard room
  constructor
  · refine (read_write hlib hdump rfl isStorable_shop (by decide +kernel) "Shop" (.indented 3)).1 ?_
    have hshort : ∀ n ∈ shop.storedNumbers, digitCount n ≤ 4300 := by decide +kernel
    rintro limit ⟨hlimit, n, hn, hlong⟩
    cases hlimit
    exact absurd hlong (Nat.not_lt.2 (hshort n hn))
  · have hlong : room.Exceeds vault.storedNumbers 4300 :=
      ⟨rfl, (10 ^ 100) ^ 43, by decide +kernel, by decide +kernel⟩
    have hwrite : write vault = .ok ((document vault "").toJson.text (.indented 2)) := by
      rw [write, ofSchema_eq hlib isStorable_vault.isLoadable]
      rfl
    obtain ⟨digits, hread⟩ := (read_write hlib hdump rfl isStorable_vault (by decide +kernel) ""
      (.indented 2)).2 4300 hlong _ hwrite
    exact ⟨_, digits, hwrite, hread⟩

end Document

end Schemata
