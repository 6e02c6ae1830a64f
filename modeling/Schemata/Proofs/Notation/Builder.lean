import Mathlib.Data.List.Induction
import Mathlib.Data.List.Nodup
import Schemata.Proofs.Notation.Text

/-!
# Drafts that build

The second pass over the drafts of a schema that can be written makes no finding and finds every
name. Its tables and fields are those of the schema with ids by position, and its references join
the same fields.
-/

namespace Schemata

open Text Notation

/-! ## Ids -/

theorem natText_inj {m n : Nat} (h : natText m = natText n) : m = n := by
  have := congrArg (fun s : String => digitsValue s.toList) h
  simpa [natText, digitsValue_toDigits] using this

theorem Ids.table_inj {m n : Nat} (h : Ids.table m = Ids.table n) : m = n :=
  natText_inj (String.append_right_inj _ |>.1 h)

theorem Ids.field_inj {t : String} {m n : Nat} (h : Ids.field t m = Ids.field t n) : m = n :=
  natText_inj (String.append_right_inj _ |>.1 h)

namespace Notation

/-! ## Fields -/

/-- The fields of a table with ids by position. -/
def placedFields (table : String) : (position : Nat) → List Field → List Field
  | _, [] => []
  | k, f :: rest => { f.kept with id := Ids.field table k } :: placedFields table (k + 1) rest

theorem placedFields_map {β : Type} (g : Field → β) (hg : ∀ f id, g { f with id } = g f)
    (table : String) (k : Nat) (fs : List Field) :
    (placedFields table k fs).map g = fs.map fun f => g f.kept := by
  induction fs generalizing k with
  | nil => rfl
  | cons f fs ih => simp [placedFields, ih, hg]

theorem mem_id_placedFields {table : String} {k : Nat} {fs : List Field} {id : String}
    (h : id ∈ (placedFields table k fs).map Field.id) : ∃ n, k ≤ n ∧ id = Ids.field table n := by
  induction fs generalizing k with
  | nil => simp [placedFields] at h
  | cons f fs ih =>
    rcases List.mem_cons.1 h with rfl | h
    · exact ⟨k, Nat.le_refl k, rfl⟩
    · obtain ⟨n, hn, rfl⟩ := ih h
      exact ⟨n, by omega, rfl⟩

theorem nodup_placedFields (table : String) (k : Nat) (fs : List Field) :
    ((placedFields table k fs).map Field.id).Nodup := by
  induction fs generalizing k with
  | nil => simp [placedFields]
  | cons f fs ih =>
    refine List.nodup_cons.2 ⟨fun h => ?_, ih (k + 1)⟩
    obtain ⟨n, hn, heq⟩ := mem_id_placedFields h
    have := Ids.field_inj heq
    omega

/-- The type of a field is found among the enumerations or read from its spelling. -/
theorem typeOf_fieldDraft {enums : List EnumType} {f : Field} (h : f.IsWritten)
    (ht : Schema.Resolves enums f.type) (d : Dialect) (table : String) (line : Nat) :
    typeOf d (enums.map EnumType.keepLabels) table f.primaryKey (fieldDraft line f) =
      pure f.type.keepLabels := by
  have hnamed : ∀ name, enumNamed? (enums.map EnumType.keepLabels) name =
      (enumNamed? enums name).map EnumType.keepLabels := by
    intro name
    rw [enumNamed?, ← List.map_reverse, List.find?_map]
    rfl
  rw [typeOf]
  rcases ht with ⟨e, he, htype⟩ | ⟨hspelled, hnone⟩
  · have hraw : (fieldDraft line f).rawType = e.name := by
      simp [fieldDraft, rawType, htype, ColumnType.ofEnum, ColumnType.listed]
    rw [hraw, hnamed, he]
    simp [htype, ColumnType.keepLabels, ColumnType.ofEnum, ColumnType.listed, EnumType.keepLabels]
  · have hraw : (fieldDraft line f).rawType = String.ofList f.type.spelling := by
      simp [fieldDraft, rawType, hspelled.enumName]
    have hmissing : ∀ name, (∀ e ∈ enums, e.name ≠ name) →
        enumNamed? (enums.map EnumType.keepLabels) name = none := by
      intro name hname
      have hnone : enumNamed? enums name = none :=
        List.find?_eq_none.2 fun e he => by simpa using hname e (List.mem_reverse.1 he)
      rw [hnamed, hnone, Option.map_none]
    have hkeep : f.type.keepLabels = f.type :=
      ColumnType.keepLabels_eq_self (by simp [hspelled.enumName])
    rw [hraw, hmissing _ fun e he => (hnone e he).1, hmissing _ fun e he => (hnone e he).2, hkeep]
    exact ColumnType.ofRaw_spelling hspelled d _ (h.counting _ _)

/-- A field is built with the id of its position. -/
theorem buildField_fieldDraft {enums : List EnumType} {f : Field} (h : f.IsWritten)
    (ht : Schema.Resolves enums f.type) (d : Dialect) (table id : String) (line : Nat) :
    buildField d (enums.map EnumType.keepLabels) table id f.primaryKey (fieldDraft line f) =
      pure { f.kept with id } := by
  have hkind := f.type.kind_keepLabels
  have hdefault : (fieldDraft line f).default.bind (defaultOf f.type.keepLabels) =
      f.default.map (Default.kept f.type) := by
    cases hf : f.default with
    | none => simp [fieldDraft, hf]
    | some v =>
      simp [fieldDraft, hf, (defaultOf_defaultText _ (h.default v hf)).2,
        Default.kept_congr hkind]
  have hserial : (f.autoIncrement || f.type.keepLabels.kind.isSerial) = f.autoIncrement := by
    rw [hkind]
    cases hs : f.type.kind.isSerial with
    | false => simp
    | true => simp [h.serial hs]
  have hinteger : f.autoIncrement = true → f.type.keepLabels.kind.isInteger = true := by
    rw [hkind]
    exact f.isInteger_of_autoIncrement
  rw [buildField_eq, typeOf_fieldDraft h ht]
  show Advised.ofExcept ((Field.build id f.name f.type.keepLabels f.primaryKey f.unique f.nullable
    (f.autoIncrement || f.type.keepLabels.kind.isSerial)
      ((fieldDraft line f).default.bind (defaultOf f.type.keepLabels)) f.comment).mapError _) = _
  rw [hdefault, hserial, Field.build, dif_pos hinteger]
  rfl

theorem buildFields_fieldDrafts {enums : List EnumType} {fs : List Field}
    (h : ∀ f ∈ fs, f.IsWritten) (ht : ∀ f ∈ fs, Schema.Resolves enums f.type)
    (hnodup : (fs.map Field.name).Nodup) (d : Dialect) (table id : String) (position : Nat)
    (seen : List String) (hseen : ∀ f ∈ fs, f.name ∉ seen) (line : Nat) :
    buildFields d (enums.map EnumType.keepLabels) table id [] position seen (fieldDrafts line fs) =
      pure (placedFields id position fs) := by
  induction fs generalizing position seen line with
  | nil => rfl
  | cons f fs ih =>
    obtain ⟨hf, hnodup⟩ := List.nodup_cons.1 hnodup
    have hrest := ih (fun g hg => h g (by simp [hg])) (fun g hg => ht g (by simp [hg])) hnodup
      (position + 1) (f.name :: seen) (fun g hg hmem => by
        rcases List.mem_cons.1 hmem with hname | hmem
        · exact hf (hname ▸ List.mem_map_of_mem hg)
        · exact hseen g (by simp [hg]) hmem) (line + 1)
    have hkey : ((fieldDraft line f).primaryKey || decide ((fieldDraft line f).name ∈ ([] : List String))) =
        f.primaryKey := by simp [fieldDraft]
    have hname : (fieldDraft line f).name ∉ seen := hseen f (by simp)
    rw [fieldDrafts, buildFields, if_neg hname]
    simp only [hkey, buildField_fieldDraft (h f (by simp)) (ht f (by simp)), pure_bind]
    show (buildFields d _ table id [] (position + 1) (f.name :: seen) (fieldDrafts (line + 1) fs) >>=
      fun rest => _) = _
    rw [hrest, pure_bind]
    rfl

/-! ## Tables -/

theorem buildIndexes_indexDrafts {columns : List String} {is : List Index}
    (h : ∀ i ∈ is, i.IsWritten columns) (table : String) (line : Nat) :
    buildIndexes table columns (indexDrafts line is) = .ok is := by
  induction is generalizing line with
  | nil => rfl
  | cons i is ih =>
    have hmissing : (indexDraft line i).fields.filter (· ∉ columns) = [] := by
      apply List.filter_eq_nil_iff.2
      intro n hn
      simpa using (h i (by simp)).columns n hn
    have hbuild : Index.build (indexDraft line i).fields (indexDraft line i).unique
        (indexDraft line i).name = .ok i := dif_pos i.fields_ne_nil
    rw [indexDrafts, buildIndexes, hmissing]
    show ((Index.build _ _ _) >>= fun j => (buildIndexes table columns _) >>= fun rest => _) = _
    rw [hbuild, ih fun j hj => h j (by simp [hj])]
    rfl

/-- A table with ids by position. -/
def placedTable (position : Nat) (t : Table) : Table where
  id := Ids.table position
  name := t.name
  fields := placedFields (Ids.table position) 0 t.fields
  indexes := t.indexes
  comment := t.comment
  color := t.color
  x := (Grid.place position).1
  y := (Grid.place position).2
  nodup_fields := nodup_placedFields _ _ _

theorem names_fieldDrafts (line : Nat) (fs : List Field) :
    (fieldDrafts line fs).map FieldDraft.name = fs.map Field.name := by
  induction fs generalizing line with
  | nil => rfl
  | cons f fs ih => rw [fieldDrafts, List.map_cons, ih]; rfl

theorem filter_indexDrafts (line : Nat) (is : List Index) :
    (indexDrafts line is).filter IndexDraft.primaryKey = [] := by
  induction is generalizing line with
  | nil => rfl
  | cons i is ih => rw [indexDrafts, List.filter_cons_of_neg (by simp [indexDraft]), ih]

theorem buildTable_tableDraft {enums : List EnumType} {t : Table} (h : t.IsWritten)
    (ht : ∀ f ∈ t.fields, Schema.Resolves enums f.type) (d : Dialect) (position line : Nat) :
    buildTable d (enums.map EnumType.keepLabels) position (tableDraft line t) =
      pure (placedTable position t) := by
  have hfields := buildFields_fieldDrafts h.fields ht h.nodup d t.name (Ids.table position) 0
    [] (by simp) (line + 1)
  have hindexes := buildIndexes_indexDrafts h.indexes t.name
    (line + 1 + t.fields.length + noteLines t + 1)
  rw [buildTable]
  simp only [tableDraft, filter_indexDrafts, List.flatMap_nil, hfields, pure_bind,
    names_fieldDrafts, hindexes]
  show Advised.ofExcept (Table.build _ _ _ _ _ _ _ _) = _
  rw [Table.build, dif_pos (nodup_placedFields _ _ _)]
  rfl

/-- The tables of a schema with ids by position. -/
def placedTables : (position : Nat) → List Table → List Table
  | _, [] => []
  | k, t :: rest => placedTable k t :: placedTables (k + 1) rest

theorem placedTables_map {β : Type} {g h : Table → β} (hg : ∀ k t, g (placedTable k t) = h t) (k : Nat)
    (ts : List Table) : (placedTables k ts).map g = ts.map h := by
  induction ts generalizing k with
  | nil => rfl
  | cons t ts ih => rw [placedTables, List.map_cons, List.map_cons, ih, hg]

theorem mem_placedTables {k : Nat} {ts : List Table} {t : Table} (h : t ∈ ts) :
    ∃ n, placedTable n t ∈ placedTables k ts := by
  induction ts generalizing k with
  | nil => simp at h
  | cons u ts ih =>
    rcases List.mem_cons.1 h with rfl | h
    · exact ⟨k, List.mem_cons_self⟩
    · obtain ⟨n, hn⟩ := ih (k := k + 1) h
      exact ⟨n, List.mem_cons_of_mem _ hn⟩

theorem mem_id_placedTables {k : Nat} {ts : List Table} {id : String}
    (h : id ∈ (placedTables k ts).map Table.id) : ∃ n, k ≤ n ∧ id = Ids.table n := by
  induction ts generalizing k with
  | nil => simp [placedTables] at h
  | cons t ts ih =>
    rcases List.mem_cons.1 h with rfl | h
    · exact ⟨k, Nat.le_refl k, rfl⟩
    · obtain ⟨n, hn, rfl⟩ := ih h
      exact ⟨n, by omega, rfl⟩

theorem nodup_placedTables (k : Nat) (ts : List Table) :
    ((placedTables k ts).map Table.id).Nodup := by
  induction ts generalizing k with
  | nil => simp [placedTables]
  | cons t ts ih =>
    refine List.nodup_cons.2 ⟨fun h => ?_, ih (k + 1)⟩
    obtain ⟨n, hn, heq⟩ := mem_id_placedTables h
    have := Ids.table_inj heq
    omega

/-- The names of tables, each once. -/
def namesOf (ts : List Table) : Names := ts.reverse.map fun t => (t.name, t)

theorem lookup_map_name (ts : List Table) (name : String) :
    List.lookup name (ts.map fun t => (t.name, t)) = ts.find? (·.name = name) := by
  induction ts with
  | nil => rfl
  | cons t ts ih =>
    rw [List.map_cons, List.lookup_cons, ih]
    by_cases h : t.name = name
    · rw [List.find?_cons_of_pos (by simpa using h), beq_iff_eq.2 h.symm]
    · rw [List.find?_cons_of_neg (by simpa using h), beq_eq_false_iff_ne.2 (Ne.symm h)]

theorem buildTables_tableDrafts {enums : List EnumType} {ts : List Table}
    (h : ∀ t ∈ ts, t.IsWritten)
    (ht : ∀ t ∈ ts, ∀ f ∈ t.fields, Schema.Resolves enums f.type) (hnodup : (ts.map Table.name).Nodup)
    (d : Dialect) (position line : Nat) (names : Names)
    (hnames : ∀ t ∈ ts, names.lookup t.name = none) :
    buildTables d (enums.map EnumType.keepLabels) position names (tableDrafts line ts) =
      pure (placedTables position ts, namesOf (placedTables position ts) ++ names) := by
  induction ts generalizing position line names with
  | nil => rfl
  | cons t ts ih =>
    obtain ⟨hfresh, hnodup⟩ := List.nodup_cons.1 hnodup
    have hrest := ih (fun u hu => h u (by simp [hu])) (fun u hu => ht u (by simp [hu])) hnodup
      (position + 1) (line + (tableLines t).length)
      ((t.name, placedTable position t) :: names) (fun u hu => by
        have hne : u.name ≠ t.name := fun hname => hfresh (hname ▸ List.mem_map_of_mem hu)
        rw [List.lookup_cons, beq_eq_false_iff_ne.2 hne]
        exact hnames u (by simp [hu]))
    have htable := buildTable_tableDraft (h t (by simp)) (ht t (by simp)) d position line
    have hadd : names.add (tableDraft line t) (placedTable position t) =
        (t.name, placedTable position t) :: names := rfl
    have hlookup : names.lookup (tableDraft line t).name = none := hnames t (by simp)
    rw [tableDrafts, buildTables, hlookup]
    simp only [Option.isSome_none, Bool.false_eq_true, if_false, htable, pure_bind, hadd, hrest]
    simp [placedTables, namesOf, placedTable]

/-! ## References -/

/-- The names of written endpoints refer to a table and a field of the built schema. -/
theorem resolveEndpoint_eq {s : Schema} (h : s.IsLegible) {t : Table} (ht : t ∈ s.tables)
    {f : Field} (hf : f ∈ t.fields) (line : Nat) :
    ∃ t' ∈ placedTables 0 s.tables, ∃ f' ∈ t'.fields, t'.name = t.name ∧ f'.name = f.name ∧
      resolveEndpoint (namesOf (placedTables 0 s.tables)) line (t.name, f.name) = .ok (t', f') := by
  obtain ⟨n, hn⟩ := mem_placedTables (k := 0) ht
  have hname : (placedTables 0 s.tables).map Table.name = s.tables.map Table.name :=
    placedTables_map (fun _ _ => rfl) 0 s.tables
  have hfields : (placedTable n t).fields.map Field.name = t.fields.map Field.name :=
    placedFields_map Field.name (fun _ _ => rfl) _ _ _
  obtain ⟨f', hf', hfname⟩ : ∃ f' ∈ (placedTable n t).fields, f'.name = f.name := by
    have : f.name ∈ (placedTable n t).fields.map Field.name := hfields ▸ List.mem_map_of_mem hf
    exact List.mem_map.1 this
  have hlookup : (namesOf (placedTables 0 s.tables)).lookup t.name = some (placedTable n t) := by
    rw [namesOf, lookup_map_name]
    refine find?_of_nodup Table.name (a := placedTable n t) ?_ (List.mem_reverse.2 hn)
    rw [List.map_reverse, List.nodup_reverse, hname]
    exact h.nodup_tables
  have hfind : (placedTable n t).fieldByName? f.name = some f' := by
    rw [← hfname]
    refine find?_of_nodup Field.name ?_ hf'
    rw [hfields]
    exact (h.tables t ht).nodup
  refine ⟨placedTable n t, hn, f', hf', rfl, hfname, ?_⟩
  rw [resolveEndpoint, hlookup]
  simp only [hfind]

/-- The endpoints of a reference between fields of a schema with distinct ids. -/
theorem endNames?_of_mem {s : Schema} {a b : Table} (ha : a ∈ s.tables) (hb : b ∈ s.tables)
    {f g : Field} (hf : f ∈ a.fields) (hg : g ∈ b.fields) {r : Reference}
    (hr : r.sourceTable = a.id ∧ r.sourceField = f.id ∧ r.targetTable = b.id ∧ r.targetField = g.id) :
    s.endNames? r = some ((a.name, f.name), (b.name, g.name)) := by
  obtain ⟨h₁, h₂, h₃, h₄⟩ := hr
  have ha' : s.tableById? a.id = some a := find?_of_nodup Table.id s.nodup_tables ha
  have hb' : s.tableById? b.id = some b := find?_of_nodup Table.id s.nodup_tables hb
  have hf' : a.fieldById? f.id = some f := find?_of_nodup Field.id a.nodup_fields hf
  have hg' : b.fieldById? g.id = some g := find?_of_nodup Field.id b.nodup_fields hg
  rw [Schema.endNames?, endpoints, h₁, h₂, h₃, h₄, ha', hb']
  simp only [hf', hg']
  rfl

theorem mem_actions (a : Action) : a ∈ Action.all := by cases a <;> decide

theorem actionsOf_referenceSettings (r : Reference) :
    actionsOf ((referenceSettings r).map String.toList) = (r.onUpdate, r.onDelete) := by
  have check : ∀ a ∈ Action.all, ∀ b ∈ Action.all, actionsOf
      ((actionSetting "update" a ++ actionSetting "delete" b).map String.toList) = (a, b) := by
    decide +kernel
  exact check _ (mem_actions _) _ (mem_actions _)

/-- A reference is built between the fields that its endpoints name. -/
theorem buildReference_eq {s : Schema} (h : s.IsLegible) {r : Reference} (hr : r.IsWritten s)
    (position line : Nat) (s' : Schema) (hs' : s'.tables = placedTables 0 s.tables) :
    ∃ r', buildReference (namesOf (placedTables 0 s.tables)) position (referenceDraft s line r) =
      pure r' ∧ s'.outlineOf r' = s.outlineOf r := by
  obtain ⟨n, hn⟩ := Option.isSome_iff_exists.1 hr.ends
  obtain ⟨e, he, rfl⟩ := endNames?_eq_some hn
  obtain ⟨ha, hf, hb, hg⟩ := endpoints_eq_ok he
  obtain ⟨a, haMem, f, hfMem, haName, hfName, hleft⟩ := resolveEndpoint_eq h
    (List.mem_of_find?_eq_some ha) (List.mem_of_find?_eq_some hf) line
  obtain ⟨b, hbMem, g, hgMem, hbName, hgName, hright⟩ := resolveEndpoint_eq h
    (List.mem_of_find?_eq_some hb) (List.mem_of_find?_eq_some hg) line
  have hmarker : markers.lookup (markerOf r.cardinality) = some r.cardinality := by
    cases r.cardinality <;> rfl
  refine ⟨⟨Ids.reference position, a.id, f.id, b.id, g.id, r.cardinality, r.onUpdate, r.onDelete,
    r.name⟩, ?_, ?_⟩
  · have hends : (referenceDraft s line r).left = (e.1.1.name, e.1.2.name) ∧
        (referenceDraft s line r).right = (e.2.1.name, e.2.2.name) := by
      simp [referenceDraft, hn]
    have hline : (referenceDraft s line r).line = line := rfl
    have hdraft : (referenceDraft s line r).marker = markerOf r.cardinality ∧
        (referenceDraft s line r).settings = (referenceSettings r).map String.toList ∧
        (referenceDraft s line r).name = r.name := ⟨rfl, rfl, rfl⟩
    rw [buildReference, hends.1, hends.2, hline, hleft, hright]
    simp only [hdraft, hmarker, actionsOf_referenceSettings]
    rfl
  · have hends' := endNames?_of_mem (s := s') (hs' ▸ haMem) (hs' ▸ hbMem) hfMem hgMem
      (r := ⟨Ids.reference position, a.id, f.id, b.id, g.id, r.cardinality, r.onUpdate, r.onDelete,
        r.name⟩) ⟨rfl, rfl, rfl, rfl⟩
    rw [Schema.outlineOf, Schema.outlineOf, hends', hn, haName, hfName, hbName, hgName]

theorem buildReferences_eq {s : Schema} (h : s.IsLegible) {rs : List Reference}
    (hr : ∀ r ∈ rs, r.IsWritten s) (position line : Nat) (s' : Schema)
    (hs' : s'.tables = placedTables 0 s.tables) :
    ∃ rs', buildReferences (namesOf (placedTables 0 s.tables)) position (referenceDrafts s line rs) =
      pure rs' ∧ rs'.map s'.outlineOf = rs.map s.outlineOf := by
  induction rs generalizing position line with
  | nil => exact ⟨[], rfl, rfl⟩
  | cons r rs ih =>
    obtain ⟨r', hbuild, hout⟩ := buildReference_eq h (hr r (by simp)) position line s' hs'
    obtain ⟨rs', hbuild', hout'⟩ := ih (fun q hq => hr q (by simp [hq])) (position + 1) (line + 1)
    refine ⟨r' :: rs', ?_, by rw [List.map_cons, List.map_cons, hout, hout']⟩
    rw [referenceDrafts, buildReferences, hbuild, pure_bind, hbuild', pure_bind]

/-! ## Schemas -/

/-- Items that name no dialect leave the dialect as it is. -/
theorem dialectOf_append (items : List Item) {rest : List Item}
    (h : ∀ i ∈ rest, ∀ d, i ≠ .dialect d) : dialectOf (items ++ rest) = dialectOf items := by
  induction rest using List.reverseRecOn with
  | nil => rw [List.append_nil]
  | append_singleton rest i ih =>
    have hi := h i (by simp)
    rw [← List.append_assoc, ← ih fun j hj => h j (by simp [hj]), dialectOf, List.foldl_append]
    cases i with
    | dialect d => exact absurd rfl (hi d)
    | table t => rfl
    | enum e => rfl
    | reference r => rfl

theorem dialectOf_writtenItems (s : Schema) (i j : Nat) :
    dialectOf (writtenItems s i j) = s.dialect := by
  rw [writtenItems, ← List.singleton_append, dialectOf_append]
  · rfl
  · intro item hitem d
    simp only [List.mem_append, List.mem_map] at hitem
    rcases hitem with ⟨e, -, rfl⟩ | ⟨t, -, rfl⟩ | ⟨r, -, rfl⟩ <;> exact fun h => nomatch h

theorem enumsOf_writtenItems (s : Schema) (i j : Nat) :
    enumsOf (writtenItems s i j) = s.enums.map EnumType.keepLabels := by
  simp [enumsOf, writtenItems, List.filterMap_map]

theorem tablesOf_writtenItems (s : Schema) (i j : Nat) :
    tablesOf (writtenItems s i j) = tableDrafts i s.tables := by
  simp [tablesOf, writtenItems, List.filterMap_map]

theorem referencesOf_writtenItems (s : Schema) (i j : Nat) :
    referencesOf (writtenItems s i j) = referenceDrafts s j s.references := by
  simp [referencesOf, writtenItems, List.filterMap_map]

/-- No written field refers to another one from its own line. -/
theorem inlineReferences_tableDrafts (line : Nat) (ts : List Table) :
    (tableDrafts line ts).flatMap inlineReferences = [] := by
  have hfields : ∀ line fs, ∀ d ∈ fieldDrafts line fs, d.reference = none := by
    intro line fs
    induction fs generalizing line with
    | nil => simp [fieldDrafts]
    | cons f fs ih =>
      intro d hd
      rcases List.mem_cons.1 hd with rfl | hd
      · rfl
      · exact ih _ d hd
  induction ts generalizing line with
  | nil => rfl
  | cons t ts ih =>
    rw [tableDrafts, List.flatMap_cons, ih, List.append_nil]
    apply List.filterMap_eq_nil_iff.2
    intro d hd
    rw [hfields _ _ d hd]
    rfl

/-- The outline of a table after its labels went through the notation. -/
theorem outline_placedTable (k : Nat) (t : Table) :
    (placedTable k t).outline = t.outline.kept := by
  have hfields := placedFields_map Field.unplaced (fun _ _ => rfl) (Ids.table k) 0 t.fields
  rw [Table.outline, TableOutline.kept, Table.outline, placedTable]
  simp only [hfields, List.map_map]
  rfl

/-- The items of a schema build a schema with its outline, up to the labels. -/
theorem build_writtenItems_of_isLegible {s : Schema} (h : s.IsLegible) (i j : Nat) :
    ∃ s', build (writtenItems s i j) = pure s' ∧ s'.outline = s.outline.kept := by
  have htables := buildTables_tableDrafts h.tables h.types h.nodup_tables s.dialect 0 i
    [] (fun _ _ => rfl)
  obtain ⟨rs, hrs, hout⟩ := buildReferences_eq h h.references 0 j
    ⟨placedTables 0 s.tables, [], [], .dbml, nodup_placedTables 0 s.tables⟩ rfl
  refine ⟨⟨placedTables 0 s.tables, rs, s.enums.map EnumType.keepLabels, s.dialect,
    nodup_placedTables 0 s.tables⟩, ?_, ?_⟩
  · rw [build]
    simp only [dialectOf_writtenItems, enumsOf_writtenItems, tablesOf_writtenItems,
      referencesOf_writtenItems, htables, pure_bind, inlineReferences_tableDrafts, List.nil_append,
      List.append_nil, hrs]
    show Advised.ofExcept (Schema.build _ _ _ _) = _
    rw [Schema.build, dif_pos (nodup_placedTables 0 s.tables)]
    rfl
  · have houtline : (placedTables 0 s.tables).map Table.outline =
        (s.tables.map Table.outline).map TableOutline.kept := by
      rw [placedTables_map outline_placedTable, List.map_map]
      rfl
    have hrefs : rs.map (Schema.outlineOf ⟨placedTables 0 s.tables, rs,
        s.enums.map EnumType.keepLabels, s.dialect, nodup_placedTables 0 s.tables⟩) =
          s.references.map s.outlineOf := hout
    rw [Schema.outline, Schema.outline, Outline.kept, houtline, hrefs]

theorem build_writtenItems {s : Schema} (h : s.IsWritable) (i j : Nat) :
    ∃ s', build (writtenItems s i j) = pure s' ∧ s'.outline = s.outline.kept :=
  build_writtenItems_of_isLegible h.isLegible i j

end Notation

end Schemata
