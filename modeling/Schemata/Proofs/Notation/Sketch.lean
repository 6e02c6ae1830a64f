import Schemata.Proofs.Notation.Blocks
import Schemata.Proofs.Schema.Closed

/-!
# What drafts are built into

Where a draft stands decides ids and places, and line numbers show in faults and findings; nothing else
depends on them. So the outline of a table is a function of its draft (`TableDraft.sketch`), and that of
a reference a function of its draft and of what names lead to (`ReferenceDraft.sketch`). If names lead
to one table each, a schema is built exactly when all drafts have a sketch, and its outline is made of
the sketches (`outline_build`, `exists_build`).
-/

namespace Schemata.Notation

open Text

variable {d : Dialect} {enums : List EnumType}

/-! ## Tables -/

section Tables

variable {table id : String} {keyed : List String}

theorem toOption_mapError {α : Type} (x : Except Fault α) (g : Fault → Fault) :
    (x.mapError g).toOption = x.toOption := by
  cases x <;> rfl

theorem value?_buildField (primaryKey : Bool) (f : FieldDraft) :
    (buildField d enums table id primaryKey f).value? =
      (typeOf d enums table primaryKey f).value?.bind fun type =>
        (Field.build id f.name type primaryKey f.unique f.nullable
          (f.increment || type.kind.isSerial) (f.default.bind (defaultOf type)) f.note).toOption := by
  simp only [buildField_eq, Advised.value?_bind, Advised.value?_ofExcept, toOption_mapError]

theorem unplaced_build (id id' name : String) (type : ColumnType)
    (primaryKey unique nullable autoIncrement : Bool) (default : Option Default) (comment : String) :
    (Field.build id name type primaryKey unique nullable autoIncrement default comment).toOption.map
        Field.unplaced =
      (Field.build id' name type primaryKey unique nullable autoIncrement default
        comment).toOption.map Field.unplaced := by
  unfold Field.build
  split <;> rfl

/-- A field is the same wherever it stands, up to its id. -/
theorem unplaced_buildField (id id' : String) (primaryKey : Bool) (f : FieldDraft) :
    (buildField d enums table id primaryKey f).value?.map Field.unplaced =
      (buildField d enums table id' primaryKey f.unnumbered).value?.map Field.unplaced := by
  have htype : typeOf d enums table primaryKey f.unnumbered = typeOf d enums table primaryKey f := rfl
  rw [value?_buildField, value?_buildField, htype]
  cases (typeOf d enums table primaryKey f).value? with
  | none => rfl
  | some type => exact unplaced_build ..

theorem map_cons_congr {α β : Type} {g : α → β} {x x' : Option α} {y y' : Option (List α)}
    (hx : x.map g = x'.map g) (hy : y.map (List.map g) = y'.map (List.map g)) :
    (x.bind fun a => y.bind fun l => some (a :: l)).map (List.map g) =
      (x'.bind fun a => y'.bind fun l => some (a :: l)).map (List.map g) := by
  cases x <;> cases x' <;> cases y <;> cases y' <;> simp_all

theorem unplaced_buildFields (id id' : String) (position position' : Nat) (seen : List String)
    (fs : List FieldDraft) :
    (buildFields d enums table id keyed position seen fs).value?.map (List.map Field.unplaced) =
      (buildFields d enums table id' keyed position' seen
        (fs.map FieldDraft.unnumbered)).value?.map (List.map Field.unplaced) := by
  induction fs generalizing position position' seen with
  | nil => rfl
  | cons f fs ih =>
    rw [List.map_cons, buildFields, buildFields]
    show Option.map _ (Advised.value? (if f.name ∈ seen then _ else _)) =
      Option.map _ (Advised.value? (if f.name ∈ seen then _ else _))
    split
    · rfl
    · simp only [Advised.value?_bind, Advised.value?_pure]
      exact map_cons_congr (unplaced_buildField _ _ _ f) (ih _ _ _)

theorem buildIndexes_unnumbered (columns : List String) (is : List IndexDraft) :
    (buildIndexes table columns (is.map IndexDraft.unnumbered)).toOption =
      (buildIndexes table columns is).toOption := by
  induction is with
  | nil => rfl
  | cons i is ih =>
    have hfields : i.unnumbered.fields = i.fields := rfl
    have hkey : i.unnumbered.primaryKey = i.primaryKey := rfl
    have hbuild : Index.build i.unnumbered.fields i.unnumbered.unique i.unnumbered.name =
        Index.build i.fields i.unique i.name := rfl
    rw [List.map_cons, buildIndexes, buildIndexes, hbuild, hkey, hfields]
    cases i.fields.filter (· ∉ columns) with
    | cons _ _ => rfl
    | nil =>
      dsimp only
      cases i.primaryKey with
      | true => exact ih
      | false =>
        cases Index.build i.fields i.unique i.name with
        | error e => rfl
        | ok j =>
          cases h : buildIndexes table columns is <;>
            cases h' : buildIndexes table columns (is.map IndexDraft.unnumbered) <;>
            rw [h, h'] at ih <;> cases ih <;> rfl

/-- The ids of fields are those of their positions. -/
theorem id_buildFields {position : Nat} {seen : List String} {fs : List FieldDraft}
    {fields : List Field}
    (h : (buildFields d enums table id keyed position seen fs).outcome = .ok fields) :
    fields.map (·.id) = (List.range' position fs.length).map (Ids.field id) := by
  induction fs generalizing position seen fields with
  | nil =>
    cases h
    rfl
  | cons f fs ih =>
    rw [buildFields] at h
    split at h
    · cases h
    · obtain ⟨field, hfield, h⟩ := Advised.outcome_bind_eq_ok.1 h
      obtain ⟨rest, hrest, h⟩ := Advised.outcome_bind_eq_ok.1 h
      cases h
      have hid : field.id = Ids.field id position := by
        rw [← Advised.value?_eq_some, value?_buildField] at hfield
        obtain ⟨type, -, hfield⟩ := Option.bind_eq_some_iff.1 hfield
        unfold Field.build at hfield
        split at hfield
        · cases hfield
          rfl
        · cases hfield
      rw [List.map_cons, ih hrest, hid]
      rfl

theorem nodup_buildFields {position : Nat} {seen : List String} {fs : List FieldDraft}
    {fields : List Field}
    (h : (buildFields d enums table id keyed position seen fs).outcome = .ok fields) :
    (fields.map (·.id)).Nodup := by
  rw [id_buildFields h]
  exact (List.nodup_range' ..).map fun _ _ => Ids.field_inj

/-- A table is made of its fields and its indexes: ids by position do not repeat. -/
theorem outline_buildTable (position : Nat) (t : TableDraft) :
    (buildTable d enums position t).value?.map Table.outline =
      ((buildFields d enums t.name (Ids.table position)
        ((t.indexes.filter (·.primaryKey)).flatMap (·.fields)) 0 [] t.fields).value?.map
          (List.map Field.unplaced)).bind fun fields =>
      (buildIndexes t.name (t.fields.map (·.name)) t.indexes).toOption.map fun indexes =>
        ⟨t.name, t.color, t.comment, fields, indexes⟩ := by
  show (buildFields d enums t.name (Ids.table position) _ 0 [] t.fields >>= fun fields =>
    Advised.ofExcept (buildIndexes t.name _ t.indexes) >>= fun indexes =>
      Advised.ofExcept (Table.build _ t.name fields indexes t.comment t.color _ _)).value?.map _ = _
  rw [Advised.value?_bind]
  cases hfields : (buildFields d enums t.name (Ids.table position)
    ((t.indexes.filter (·.primaryKey)).flatMap (·.fields)) 0 [] t.fields).value? with
  | none => rfl
  | some fields =>
    have hnodup := nodup_buildFields (Advised.value?_eq_some.1 hfields)
    rw [Option.bind_some, Option.map_some, Option.bind_some, Advised.value?_bind,
      Advised.value?_ofExcept]
    cases (buildIndexes t.name (t.fields.map (·.name)) t.indexes).toOption with
    | none => rfl
    | some indexes =>
      rw [Option.bind_some, Advised.value?_ofExcept, Table.build, dif_pos hnodup]
      rfl

end Tables

/-- The outline of the table that a draft is built into, if it is. -/
def TableDraft.sketch (d : Dialect) (enums : List EnumType) (t : TableDraft) : Option TableOutline :=
  (buildTable d enums 0 t.unnumbered).value?.map Table.outline

theorem outline_buildTable_eq_sketch (position : Nat) (t : TableDraft) :
    (buildTable d enums position t).value?.map Table.outline = t.sketch d enums := by
  have hkeyed : (t.unnumbered.indexes.filter (·.primaryKey)).flatMap (·.fields) =
      (t.indexes.filter (·.primaryKey)).flatMap (·.fields) := by
    show ((t.indexes.map IndexDraft.unnumbered).filter (·.primaryKey)).flatMap (·.fields) = _
    rw [List.filter_map, List.flatMap_map]
    rfl
  have hnames : t.unnumbered.fields.map (·.name) = t.fields.map (·.name) := by
    show (t.fields.map FieldDraft.unnumbered).map (·.name) = _
    rw [List.map_map]
    rfl
  have hfields := fun keyed =>
    @unplaced_buildFields d enums t.name keyed (Ids.table position) (Ids.table 0) 0 0 [] t.fields
  have hindexes := @buildIndexes_unnumbered t.name (t.fields.map (·.name)) t.indexes
  rw [TableDraft.sketch, outline_buildTable, outline_buildTable, hkeyed, hnames, hfields, ← hindexes]
  rfl

theorem sketch_of_buildTable {position : Nat} {t : TableDraft} {table : Table}
    (h : (buildTable d enums position t).outcome = .ok table) :
    t.sketch d enums = some table.outline := by
  rw [← outline_buildTable_eq_sketch position, Advised.value?_eq_some.2 h]
  rfl

/-! ## Names -/

/-- The names that lead to a table. -/
def TableDraft.keys (t : TableDraft) : List String := t.name :: t.shortName.toList

/-- The sketch of the table that a name leads to. -/
def tableSketch? (d : Dialect) (enums : List EnumType) (drafts : List TableDraft) (key : String) :
    Option TableOutline :=
  (drafts.find? (key ∈ ·.keys)).bind (·.sketch d enums)

/-- What a table adds to the names if its own are new. -/
theorem Names.lookup_add {names : Names} {t : TableDraft} (hnodup : t.keys.Nodup)
    (hfresh : ∀ key ∈ t.keys, names.lookup key = none) (table : Table) (key : String) :
    (names.add t table).lookup key = if key ∈ t.keys then some table else names.lookup key := by
  unfold add TableDraft.keys at *
  cases halias : t.shortName with
  | none =>
    dsimp only
    rw [List.lookup_cons]
    by_cases hname : key = t.name
    · simp [hname]
    · rw [beq_eq_false_iff_ne.2 hname]
      simp [hname]
  | some a =>
    rw [halias] at hnodup hfresh
    have hne : a ≠ t.name := by
      rintro rfl
      simp at hnodup
    have hnew : ((t.name, table) :: names).lookup a = none := by
      rw [List.lookup_cons, beq_eq_false_iff_ne.2 hne]
      exact hfresh a (by simp)
    dsimp only
    rw [hnew, if_neg (by simp), List.lookup_cons, List.lookup_cons]
    by_cases hkey : key = a
    · simp [hkey]
    · by_cases hname : key = t.name
      · rw [beq_eq_false_iff_ne.2 hkey]
        simp [hname]
      · rw [beq_eq_false_iff_ne.2 hkey, beq_eq_false_iff_ne.2 hname]
        simp [hkey, hname]

theorem buildTables_cons_eq_ok {position : Nat} {names : Names} {t : TableDraft}
    {rest : List TableDraft} {r : List Table × Names} :
    (buildTables d enums position names (t :: rest)).outcome = .ok r ↔
      names.lookup t.name = none ∧ ∃ table, (buildTable d enums position t).outcome = .ok table ∧
        ∃ q, (buildTables d enums (position + 1) (names.add t table) rest).outcome = .ok q ∧
          r = (table :: q.1, q.2) := by
  rw [buildTables]
  cases hname : names.lookup t.name with
  | some _ => simp [Advised.fail]
  | none =>
    rw [if_neg (by simp), Advised.outcome_bind_eq_ok]
    simp only [Advised.outcome_bind_eq_ok, true_and]
    refine exists_congr fun table => and_congr_right fun _ => exists_congr fun q =>
      and_congr_right fun _ => ?_
    exact ⟨fun h => (Except.ok.inj h).symm, fun h => h ▸ rfl⟩

/-- The ids of tables are those of their positions. -/
theorem id_buildTables {drafts : List TableDraft} {position : Nat} {names : Names}
    {r : List Table × Names} (h : (buildTables d enums position names drafts).outcome = .ok r) :
    r.1.map (·.id) = (List.range' position drafts.length).map Ids.table := by
  induction drafts generalizing position names r with
  | nil =>
    cases h
    rfl
  | cons t rest ih =>
    obtain ⟨-, table, htable, q, hq, rfl⟩ := buildTables_cons_eq_ok.1 h
    have hid : table.id = Ids.table position := by
      obtain ⟨fields, -, htable⟩ := Advised.outcome_bind_eq_ok.1 htable
      obtain ⟨indexes, -, htable⟩ := Advised.outcome_bind_eq_ok.1 htable
      have hbuild : Table.build (Ids.table position) t.name fields indexes t.comment t.color _ _ =
        .ok table := htable
      unfold Table.build at hbuild
      split at hbuild
      · cases hbuild
        rfl
      · cases hbuild
    rw [List.map_cons, ih hq, hid]
    rfl

section Distinct

variable {drafts : List TableDraft} {position : Nat} {names : Names}

/-- When a table has added its names, those of the tables behind it are still new. -/
theorem fresh_add {t : TableDraft} {rest : List TableDraft}
    (hkeys : ((t :: rest).flatMap TableDraft.keys).Nodup)
    (hfresh : ∀ u ∈ t :: rest, ∀ key ∈ u.keys, names.lookup key = none) (table : Table) :
    (rest.flatMap TableDraft.keys).Nodup ∧
      ∀ u ∈ rest, ∀ key ∈ u.keys, (names.add t table).lookup key = none := by
  rw [List.flatMap_cons, List.nodup_append] at hkeys
  obtain ⟨hnodup, hrest, hdisjoint⟩ := hkeys
  refine ⟨hrest, fun u hu key hkey => ?_⟩
  rw [Names.lookup_add hnodup (hfresh t List.mem_cons_self), if_neg]
  · exact hfresh u (List.mem_cons_of_mem t hu) key hkey
  · exact fun hmem => hdisjoint key hmem key (List.mem_flatMap.2 ⟨u, hu, hkey⟩) rfl

/-- When names lead to one table each, all tables are built exactly when each has a sketch. -/
theorem exists_buildTables_iff (hkeys : (drafts.flatMap TableDraft.keys).Nodup)
    (hfresh : ∀ t ∈ drafts, ∀ key ∈ t.keys, names.lookup key = none) :
    (∃ r, (buildTables d enums position names drafts).outcome = .ok r) ↔
      ∀ t ∈ drafts, (t.sketch d enums).isSome := by
  induction drafts generalizing position names with
  | nil => exact ⟨fun _ => by simp, fun _ => ⟨_, rfl⟩⟩
  | cons t rest ih =>
    rw [List.forall_mem_cons, ← outline_buildTable_eq_sketch position, Option.isSome_map,
      Option.isSome_iff_exists]
    simp only [buildTables_cons_eq_ok, Advised.value?_eq_some]
    constructor
    · rintro ⟨_, -, table, htable, q, hq, -⟩
      obtain ⟨hkeys, hfresh⟩ := fresh_add hkeys hfresh table
      exact ⟨⟨table, htable⟩, (ih hkeys hfresh).1 ⟨q, hq⟩⟩
    · rintro ⟨⟨table, htable⟩, hrest⟩
      obtain ⟨hkeys', hfresh'⟩ := fresh_add hkeys hfresh table
      obtain ⟨q, hq⟩ := (ih hkeys' hfresh').2 hrest
      exact ⟨_, hfresh t List.mem_cons_self t.name List.mem_cons_self, table, htable, q, hq, rfl⟩

/-- The outlines of the tables are the sketches of their drafts. -/
theorem outline_buildTables {r : List Table × Names}
    (h : (buildTables d enums position names drafts).outcome = .ok r) :
    r.1.map Table.outline = drafts.filterMap (·.sketch d enums) := by
  induction drafts generalizing position names r with
  | nil =>
    cases h
    rfl
  | cons t rest ih =>
    obtain ⟨-, table, htable, q, hq, rfl⟩ := buildTables_cons_eq_ok.1 h
    rw [List.map_cons, ih hq, List.filterMap_cons_some (sketch_of_buildTable htable)]

/-- A name leads to the table whose draft has it. -/
theorem lookup_buildTables {r : List Table × Names}
    (hkeys : (drafts.flatMap TableDraft.keys).Nodup)
    (hfresh : ∀ t ∈ drafts, ∀ key ∈ t.keys, names.lookup key = none)
    (h : (buildTables d enums position names drafts).outcome = .ok r) (key : String) :
    (r.2.lookup key).map Table.outline =
      (tableSketch? d enums drafts key).or ((names.lookup key).map Table.outline) := by
  induction drafts generalizing position names r with
  | nil =>
    cases h
    rfl
  | cons t rest ih =>
    obtain ⟨-, table, htable, q, hq, rfl⟩ := buildTables_cons_eq_ok.1 h
    obtain ⟨hkeys', hfresh'⟩ := fresh_add hkeys hfresh table
    have hnodup : t.keys.Nodup := by
      rw [List.flatMap_cons] at hkeys
      exact hkeys.of_append_left
    rw [ih hkeys' hfresh' hq, Names.lookup_add hnodup (hfresh t List.mem_cons_self)]
    unfold tableSketch?
    by_cases hkey : key ∈ t.keys
    · -- no table behind this one has the name, since all of theirs are new
      have hnone : rest.find? (key ∈ ·.keys) = none := by
        rw [List.find?_eq_none]
        intro u hu hmem
        have := hfresh' u hu key (by simpa using hmem)
        rw [Names.lookup_add hnodup (hfresh t List.mem_cons_self), if_pos hkey] at this
        cases this
      rw [hnone, if_pos hkey, List.find?_cons_of_pos (by simpa using hkey), Option.bind_some,
        sketch_of_buildTable htable]
      rfl
    · rw [if_neg hkey, List.find?_cons_of_neg (by simpa using hkey)]

end Distinct

/-! ## References -/

/-- The names of the table and of the field that an endpoint leads to. -/
def endSketch? (named : String → Option TableOutline) (endpoint : String × String) :
    Option (String × String) :=
  (named endpoint.1).bind fun t =>
    (t.fields.find? (·.name = endpoint.2)).map fun f => (t.name, f.name)

/-- The outline of the reference that a draft is built into, if both its ends exist. -/
def ReferenceDraft.sketch (named : String → Option TableOutline) (r : ReferenceDraft) :
    Option ReferenceOutline :=
  (endSketch? named r.left).bind fun left => (endSketch? named r.right).map fun right =>
    ⟨some (left, right), (markers.lookup r.marker).getD .manyToOne, (actionsOf r.settings).1,
      (actionsOf r.settings).2, r.name⟩

section References

variable {names : Names} {named : String → Option TableOutline}
  (hnamed : ∀ key, (names.lookup key).map Table.outline = named key)

include hnamed

theorem resolveEndpoint_eq_sketch (line : Nat) (endpoint : String × String) :
    (resolveEndpoint names line endpoint).toOption.map (fun p => (p.1.name, p.2.name)) =
      endSketch? named endpoint := by
  unfold resolveEndpoint endSketch?
  rw [← hnamed]
  cases names.lookup endpoint.1 with
  | none => rfl
  | some t =>
    have hfind : t.outline.fields.find? (·.name = endpoint.2) =
        (t.fieldByName? endpoint.2).map Field.unplaced := List.find?_map
    rw [Option.map_some, Option.bind_some, hfind]
    dsimp only
    cases t.fieldByName? endpoint.2 <;> rfl

omit hnamed in
theorem value?_buildReference (position : Nat) (r : ReferenceDraft) :
    (buildReference names position r).value? =
      (resolveEndpoint names r.line r.left).toOption.bind fun source =>
      (resolveEndpoint names r.line r.right).toOption.map fun target =>
        ⟨Ids.reference position, source.1.id, source.2.id, target.1.id, target.2.id,
          (markers.lookup r.marker).getD .manyToOne, (actionsOf r.settings).1,
          (actionsOf r.settings).2, r.name⟩ := by
  show (Advised.ofExcept (resolveEndpoint names r.line r.left) >>= fun source =>
    Advised.ofExcept (resolveEndpoint names r.line r.right) >>= fun target =>
      Advised.noteIf _ _ >>= fun _ => pure _).value? = _
  simp only [Advised.value?_bind, Advised.value?_ofExcept, Advised.value?_noteIf,
    Advised.value?_pure, Option.bind_some, Option.map_eq_bind]
  rfl

/-- A reference between tables of a schema has the sketch of its draft for an outline. -/
theorem outline_buildReference {s : Schema} (hmem : ∀ p ∈ names, p.2 ∈ s.tables) (position : Nat)
    (r : ReferenceDraft) :
    (buildReference names position r).value?.map s.outlineOf = r.sketch named := by
  unfold ReferenceDraft.sketch
  rw [value?_buildReference, ← resolveEndpoint_eq_sketch hnamed r.line r.left,
    ← resolveEndpoint_eq_sketch hnamed r.line r.right]
  cases hsource : resolveEndpoint names r.line r.left with
  | error e => rfl
  | ok source =>
    cases htarget : resolveEndpoint names r.line r.right with
    | error e => rfl
    | ok target =>
      obtain ⟨hsource, hfield⟩ := resolveEndpoint_eq_ok hsource
      obtain ⟨htarget, hfield'⟩ := resolveEndpoint_eq_ok htarget
      have hends := fun q => @endNames?_of_mem s _ _ (hmem _ (mem_of_lookup_eq_some hsource))
        (hmem _ (mem_of_lookup_eq_some htarget)) _ _ (List.mem_of_find?_eq_some hfield)
        (List.mem_of_find?_eq_some hfield') q
      exact congrArg (fun ends => some (ReferenceOutline.mk ends _ _ _ _))
        (hends _ ⟨rfl, rfl, rfl, rfl⟩)

/-- All references are built exactly when each has a sketch, and their outlines are the sketches. -/
theorem outline_buildReferences {s : Schema} (hmem : ∀ p ∈ names, p.2 ∈ s.tables) (position : Nat)
    (drafts : List ReferenceDraft) :
    (buildReferences names position drafts).value?.map (List.map s.outlineOf) =
      if ∀ r ∈ drafts, (r.sketch named).isSome then some (drafts.filterMap (·.sketch named))
      else none := by
  induction drafts generalizing position with
  | nil => rfl
  | cons r rest ih =>
    have hreference := outline_buildReference hnamed hmem position r
    have hrest := ih (position + 1)
    rw [buildReferences]
    simp only [Advised.value?_bind, Advised.value?_pure, List.forall_mem_cons]
    rw [← hreference]
    cases hq : (buildReference names position r).value? with
    | none => simp
    | some q =>
      rw [hq] at hreference
      rw [List.filterMap_cons_some hreference.symm]
      cases hqs : (buildReferences names (position + 1) rest).value? with
      | none =>
        rw [hqs] at hrest
        split at hrest
        · cases hrest
        · next h => simp [h]
      | some qs =>
        rw [hqs] at hrest
        split at hrest
        · next h =>
          rw [if_pos ⟨rfl, h⟩, ← Option.some.inj hrest]
          rfl
        · cases hrest

end References

/-! ## Schemas -/

/-- All references that items ask for, those inside tables first. -/
def allReferences (items : List Item) : List ReferenceDraft :=
  (tablesOf items).flatMap inlineReferences ++ referencesOf items

/-- The sketch of the table that a name leads to, in the dialect and with the enumerations of the
items. -/
def sketchNamed (items : List Item) : String → Option TableOutline :=
  tableSketch? (dialectOf items) (enumsOf items) (tablesOf items)

/-- Whether all tables and references of the items have a sketch. -/
structure Builds (items : List Item) : Prop where
  tables : ∀ t ∈ tablesOf items, (t.sketch (dialectOf items) (enumsOf items)).isSome
  references : ∀ r ∈ allReferences items, (r.sketch (sketchNamed items)).isSome

/-- The outline that is made of the sketches. -/
def sketch (items : List Item) : Outline :=
  ⟨dialectOf items, enumsOf items,
    (tablesOf items).filterMap (·.sketch (dialectOf items) (enumsOf items)),
    (allReferences items).filterMap (·.sketch (sketchNamed items))⟩

section Build

variable {items : List Item} (hkeys : ((tablesOf items).flatMap TableDraft.keys).Nodup)

include hkeys

theorem exists_tables_iff :
    (∃ r, (buildTables (dialectOf items) (enumsOf items) 0 [] (tablesOf items)).outcome = .ok r) ↔
      ∀ t ∈ tablesOf items, (t.sketch (dialectOf items) (enumsOf items)).isSome :=
  exists_buildTables_iff hkeys fun _ _ _ _ => rfl

theorem lookup_eq_sketchNamed {r : List Table × Names}
    (h : (buildTables (dialectOf items) (enumsOf items) 0 [] (tablesOf items)).outcome = .ok r)
    (key : String) : (r.2.lookup key).map Table.outline = sketchNamed items key :=
  (lookup_buildTables hkeys (fun _ _ _ _ => rfl) h key).trans (Option.or_none ..)

/-- When names lead to one table each, what is built has the outline that is made of the sketches. -/
theorem outline_build {s : Schema} (h : (build items).outcome = .ok s) :
    Builds items ∧ s.outline = sketch items := by
  unfold build at h
  obtain ⟨⟨tables, names⟩, htables, h⟩ := Advised.outcome_bind_eq_ok.1 h
  obtain ⟨references, hreferences, h⟩ := Advised.outcome_bind_eq_ok.1 h
  have hbuild : Schema.build tables references (enumsOf items) (dialectOf items) = .ok s := h
  unfold Schema.build at hbuild
  split at hbuild
  · next hnodup =>
    have hnamed := lookup_eq_sketchNamed hkeys htables
    have hmem : ∀ p ∈ names, p.2 ∈ s.tables := fun p hp => by
      cases hbuild
      exact (mem_names_buildTables htables p hp).resolve_right List.not_mem_nil
    have houtline := outline_buildReferences hnamed hmem 0 (allReferences items)
    rw [allReferences, Advised.value?_eq_some.2 hreferences] at houtline
    cases hbuild
    split at houtline
    · next hall =>
      refine ⟨⟨(exists_tables_iff hkeys).1 ⟨_, htables⟩, hall⟩, ?_⟩
      unfold Schema.outline sketch
      rw [← outline_buildTables htables]
      exact congrArg _ (Option.some.inj houtline)
    · cases houtline
  · cases hbuild

/-- When names lead to one table each and all parts have a sketch, a schema is built. -/
theorem exists_build (h : Builds items) : ∃ s, (build items).outcome = .ok s := by
  obtain ⟨⟨tables, names⟩, htables⟩ := (exists_tables_iff hkeys).2 h.tables
  have hnamed := lookup_eq_sketchNamed hkeys htables
  have hnodup : (tables.map Table.id).Nodup := by
    have hids := id_buildTables htables
    dsimp only at hids
    rw [hids]
    exact (List.nodup_range' ..).map fun _ _ => Ids.table_inj
  let s : Schema := ⟨tables, [], [], .dbml, hnodup⟩
  have hmem : ∀ p ∈ names, p.2 ∈ s.tables := fun p hp =>
    (mem_names_buildTables htables p hp).resolve_right List.not_mem_nil
  have houtline := outline_buildReferences hnamed hmem 0 (allReferences items)
  rw [if_pos h.references] at houtline
  obtain ⟨references, hreferences, -⟩ := Option.map_eq_some_iff.1 houtline
  refine ⟨⟨tables, references, enumsOf items, dialectOf items, hnodup⟩, ?_⟩
  unfold build
  refine Advised.outcome_bind_eq_ok.2 ⟨_, htables, ?_⟩
  refine Advised.outcome_bind_eq_ok.2 ⟨_, Advised.value?_eq_some.1 hreferences, ?_⟩
  exact dif_pos hnodup

end Build

end Schemata.Notation
