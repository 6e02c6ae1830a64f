import Schemata.Proofs.Catalog.RoundTrip
import Schemata.Proofs.Schema.Closed

/-!
# Foreign keys among rows

A foreign key joins two selected tables, or it leaves the selection. The keys that leave it are noted,
each once, and the others become references in their order; only a key that joins two tables but names
a column that one of them lacks makes the reading fail, and the first such key is the one that is
reported (`buildReferences_eq`). So the schema of some rows is closed, as that of a text is
(`sources_closed`).
-/

namespace Schemata.Catalog

open Notation

/-- The selected tables with the rows of their columns. -/
abbrev Selection := List (String × List ColumnRow)

/-! ## What becomes of a key -/

namespace ForeignKeyRow

/-- Whether both tables of a key are selected. -/
def joins (tables : Selection) (row : ForeignKeyRow) : Bool :=
  (tables.lookup row.table).isSome && (tables.lookup row.referencedTable).isSome

/-- Whether both columns of a key are columns of its tables. -/
def names (tables : Selection) (row : ForeignKeyRow) : Bool :=
  (tables.lookup row.table).any (fun rows => rows.any (·.name = row.column)) &&
    (tables.lookup row.referencedTable).any fun rows => rows.any (·.name = row.referencedColumn)

/-- Whether a key joins two tables but names a column that one of them lacks. -/
def isBroken (tables : Selection) (row : ForeignKeyRow) : Bool :=
  row.joins tables && !row.names tables

/-- The fault of a broken key. -/
def fault (row : ForeignKeyRow) : Fault :=
  .unknownKeyColumn row.table row.column row.referencedTable row.referencedColumn

/-- The columns that a key joins. -/
def ends (row : ForeignKeyRow) : (String × String) × (String × String) :=
  ((row.table, row.column), (row.referencedTable, row.referencedColumn))

/-- The warning about a key that leaves the selection, with the first of its tables that is not
selected. -/
def dropped (tables : Selection) (row : ForeignKeyRow) : Finding :=
  outsideSelection row (if (tables.lookup row.table).isSome then row.referencedTable else row.table)

end ForeignKeyRow

/-! ## Tables by their names -/

theorem find?_tablesOf (d : Dialect) (position : Nat) (tables : Selection) (name : String) :
    match tables.lookup name with
    | some rows => ∃ k, (tablesOf d position tables).find? (·.name = name) =
        some (tableOf d (name, rows) k)
    | none => (tablesOf d position tables).find? (·.name = name) = none := by
  induction tables generalizing position with
  | nil => rfl
  | cons t tables ih =>
    obtain ⟨n, rows⟩ := t
    have hcons : tablesOf d position ((n, rows) :: tables) =
        tableOf d (n, rows) position :: tablesOf d (position + 1) tables := rfl
    rw [hcons, List.lookup_cons]
    by_cases hn : name = n
    · subst hn
      rw [List.find?_cons_of_pos (by simp [tableOf])]
      simp
    · have hname : (tableOf d (n, rows) position).name ≠ name := Ne.symm hn
      rw [List.find?_cons_of_neg (by simpa using hname), beq_eq_false_iff_ne.2 hn]
      exact ih (position + 1)

/-- A table has a field of each name that one of its rows has. -/
theorem isSome_fieldByName?_tableOf (d : Dialect) (t : String × List ColumnRow) (k : Nat)
    (column : String) :
    ((tableOf d t k).fieldByName? column).isSome = t.2.any (·.name = column) := by
  have hnames : (tableOf d t k).fields.map Field.name = t.2.map ColumnRow.name :=
    map_fieldsOf (fun _ _ => rfl) _ 0 t.2
  have hany : (tableOf d t k).fields.any (fun f => f.name = column) =
      t.2.any fun row => row.name = column := by
    have hmap := congrArg (fun names => names.any fun n => n = column) hnames
    rw [List.any_map, List.any_map] at hmap
    exact hmap
  rw [Table.fieldByName?, ← hany, Bool.eq_iff_iff, List.find?_isSome, List.any_eq_true]

/-! ## Findings -/

/-- The code of the warning about a key that leaves the selection. -/
def outsideCode : String := "introspection.fk_outside_selection"

theorem withCode_append (code : String) (xs ys : List Finding) :
    withCode code (xs ++ ys) = withCode code xs ++ withCode code ys := List.filter_append _ _

theorem withCode_bind {α β : Type} {code : String} {x : Advised α} {f : α → Advised β}
    (hx : withCode code x.findings = [])
    (hf : ∀ a, x.outcome = .ok a → withCode code (f a).findings = []) :
    withCode code (x >>= f).findings = [] := by
  cases h : x.outcome with
  | error e => rw [Advised.bind_of_error h, hx]
  | ok a => rw [Advised.bind_of_ok h, withCode_append, hx, hf a h, List.append_nil]

theorem withCode_ofRaw (d : Dialect) (raw : String) (c : ColumnType.Context) :
    withCode outsideCode (ColumnType.ofRaw d raw c).findings = [] := by
  have hnoteIf : ∀ (p : Prop) [Decidable p] (message : String), withCode outsideCode
      (Advised.noteIf p (.warning "type.precision_dropped" message c.table c.field)).findings =
        [] := by
    intro p _ message
    unfold Advised.noteIf
    split <;> rfl
  unfold ColumnType.ofRaw
  dsimp only
  split
  · rfl
  · split
    · rfl
    · split
      · exact withCode_bind rfl fun _ _ => rfl
      · exact withCode_bind (hnoteIf _ _) fun _ _ => rfl

theorem withCode_buildField (d : Dialect) (table id : String) (row : ColumnRow) :
    withCode outsideCode (buildField d table id row).findings = [] :=
  withCode_bind (withCode_ofRaw d _ _) fun _ _ =>
    withCode_bind rfl fun _ _ => withCode_bind rfl fun _ _ => rfl

theorem withCode_buildFields (d : Dialect) (table id : String) (position : Nat)
    (rows : List ColumnRow) :
    withCode outsideCode (buildFields d table id position rows).findings = [] := by
  induction rows generalizing position with
  | nil => rfl
  | cons row rows ih =>
    exact withCode_bind (withCode_buildField d table _ row) fun _ _ =>
      withCode_bind (ih (position + 1)) fun _ _ => rfl

theorem withCode_buildTables (d : Dialect) (position : Nat) (tables : Selection) :
    withCode outsideCode (buildTables d position tables).findings = [] := by
  induction tables generalizing position with
  | nil => rfl
  | cons t tables ih =>
    exact withCode_bind (withCode_buildFields d t.1 _ 0 t.2) fun _ _ =>
      withCode_bind rfl fun _ _ => withCode_bind (ih (position + 1)) fun _ _ => rfl

/-! ## References -/

section References

variable {d : Dialect} {tables : Selection} {s : Schema}

/-- A key between two tables of a schema becomes a reference between the fields that it names, unless
one of them is missing. -/
theorem buildReference_eq {source target : Table} (hsource : source ∈ s.tables)
    (htarget : target ∈ s.tables) (all : List ForeignKeyRow) (id : String) {row : ForeignKeyRow}
    (hnames : source.name = row.table ∧ target.name = row.referencedTable) :
    if (source.fieldByName? row.column).isSome && (target.fieldByName? row.referencedColumn).isSome
    then ∃ r, (buildReference all id row source target).outcome = .ok r ∧
      s.endNames? r = some row.ends ∧
      withCode outsideCode (buildReference all id row source target).findings = []
    else (buildReference all id row source target).outcome = .error row.fault := by
  cases hf : source.fieldByName? row.column with
  | none =>
    rw [buildReference, hf]
    rfl
  | some f =>
    cases hg : target.fieldByName? row.referencedColumn with
    | none =>
      rw [buildReference, hf, hg]
      rfl
    | some g =>
      have hfname : f.name = row.column := by simpa using List.find?_some hf
      have hgname : g.name = row.referencedColumn := by simpa using List.find?_some hg
      rw [Option.isSome_some, Option.isSome_some, Bool.and_self, if_pos rfl, buildReference, hf, hg]
      refine ⟨_, Advised.outcome_bind_eq_ok.2 ⟨(), ?_, rfl⟩, ?_, ?_⟩
      · unfold Advised.noteIf
        split <;> rfl
      · rw [endNames?_of_mem hsource htarget (List.mem_of_find?_eq_some hf)
          (List.mem_of_find?_eq_some hg) ⟨rfl, rfl, rfl, rfl⟩, hfname, hgname, hnames.1, hnames.2]
        rfl
      · refine withCode_bind ?_ fun _ _ => rfl
        unfold Advised.noteIf
        split <;> rfl

/-- A key that leaves the selection is noted and makes no reference. -/
theorem buildReferences_of_not_joins (hs : s.tables = tablesOf d 0 tables)
    (all : List ForeignKeyRow) (position : Nat) {row : ForeignKeyRow}
    (hrow : row.joins tables = false) (keys : List ForeignKeyRow) :
    buildReferences s.tables all position (row :: keys) =
      Advised.note (row.dropped tables) >>= fun _ => buildReferences s.tables all position keys := by
  have hsource := find?_tablesOf d 0 tables row.table
  have htarget := find?_tablesOf d 0 tables row.referencedTable
  rw [← hs] at hsource htarget
  unfold ForeignKeyRow.joins at hrow
  rw [buildReferences, ForeignKeyRow.dropped]
  cases hlookup : tables.lookup row.table with
  | none =>
    rw [hlookup] at hsource
    rw [hsource]
    rfl
  | some rows =>
    rw [hlookup] at hsource hrow
    obtain ⟨k, hsource⟩ := hsource
    rw [hsource]
    cases hlookup' : tables.lookup row.referencedTable with
    | none =>
      rw [hlookup'] at htarget
      rw [htarget]
      rfl
    | some rows' =>
      rw [hlookup'] at hrow
      cases hrow

/-- A key that joins two tables is looked up in them. -/
theorem buildReferences_of_joins (hs : s.tables = tablesOf d 0 tables) (all : List ForeignKeyRow)
    (position : Nat) {row : ForeignKeyRow} (hrow : row.joins tables = true)
    (keys : List ForeignKeyRow) :
    ∃ source ∈ s.tables, ∃ target ∈ s.tables,
      (source.name = row.table ∧ target.name = row.referencedTable) ∧
      row.names tables = ((source.fieldByName? row.column).isSome &&
        (target.fieldByName? row.referencedColumn).isSome) ∧
      buildReferences s.tables all position (row :: keys) = (do
        let r ← buildReference all (Ids.reference position) row source target
        return r :: (← buildReferences s.tables all (position + 1) keys)) := by
  obtain ⟨hrow, hrow'⟩ := Bool.and_eq_true_iff.1 hrow
  obtain ⟨rows, hlookup⟩ := Option.isSome_iff_exists.1 hrow
  obtain ⟨rows', hlookup'⟩ := Option.isSome_iff_exists.1 hrow'
  have hsource := find?_tablesOf d 0 tables row.table
  have htarget := find?_tablesOf d 0 tables row.referencedTable
  rw [← hs, hlookup] at hsource
  rw [← hs, hlookup'] at htarget
  obtain ⟨k, hsource⟩ := hsource
  obtain ⟨k', htarget⟩ := htarget
  refine ⟨_, List.mem_of_find?_eq_some hsource, _, List.mem_of_find?_eq_some htarget, ⟨rfl, rfl⟩,
    ?_, ?_⟩
  · rw [isSome_fieldByName?_tableOf, isSome_fieldByName?_tableOf, ForeignKeyRow.names, hlookup,
      hlookup']
    rfl
  · rw [buildReferences, hsource, htarget]

/-- The keys become references in their order, up to the first one that is broken. -/
theorem buildReferences_eq (hs : s.tables = tablesOf d 0 tables) (all : List ForeignKeyRow)
    (position : Nat) (keys : List ForeignKeyRow) :
    match keys.find? (·.isBroken tables) with
    | some row => (buildReferences s.tables all position keys).outcome = .error row.fault
    | none => ∃ references, (buildReferences s.tables all position keys).outcome = .ok references ∧
        references.map s.endNames? = (keys.filter (·.joins tables)).map (fun row => some row.ends) ∧
        withCode outsideCode (buildReferences s.tables all position keys).findings =
          (keys.filter fun row => !row.joins tables).map (·.dropped tables) := by
  induction keys generalizing position with
  | nil => exact ⟨[], rfl, rfl, rfl⟩
  | cons row keys ih =>
    cases hjoins : row.joins tables with
    | false =>
      have hbroken : row.isBroken tables = false := by rw [ForeignKeyRow.isBroken, hjoins]; rfl
      have hrest := ih position
      rw [buildReferences_of_not_joins hs all position hjoins, List.find?_cons_of_neg (by simp [hbroken]),
        List.filter_cons_of_neg (by simp [hjoins]), List.filter_cons_of_pos (by simp [hjoins])]
      cases hfind : keys.find? (·.isBroken tables) with
      | some broken =>
        rw [hfind] at hrest
        exact hrest
      | none =>
        rw [hfind] at hrest
        obtain ⟨references, hok, hends, hfindings⟩ := hrest
        refine ⟨references, hok, hends, ?_⟩
        rw [Advised.bind_of_ok rfl, withCode_append, hfindings]
        rfl
    | true =>
      obtain ⟨source, hsource, target, htarget, hname, hnames, hstep⟩ :=
        buildReferences_of_joins hs all position hjoins keys
      have hreference := buildReference_eq hsource htarget all (Ids.reference position) hname
      have hbroken : row.isBroken tables = !row.names tables := by
        rw [ForeignKeyRow.isBroken, hjoins]
        rfl
      rw [← hnames] at hreference
      rw [hstep]
      cases hrow : row.names tables with
      | false =>
        rw [if_neg (by simp [hrow])] at hreference
        rw [List.find?_cons_of_pos (by simp [hbroken, hrow]), Advised.bind_of_error hreference]
      | true =>
        rw [if_pos hrow] at hreference
        obtain ⟨r, hok, hends, hfindings⟩ := hreference
        have hrest := ih (position + 1)
        rw [List.find?_cons_of_neg (by simp [hbroken, hrow]),
          List.filter_cons_of_pos (by simp [hjoins]), List.filter_cons_of_neg (by simp [hjoins])]
        cases hfind : keys.find? (·.isBroken tables) with
        | some broken =>
          rw [hfind] at hrest
          exact Advised.outcome_bind_eq_error.2 (.inr ⟨r, hok,
            Advised.outcome_bind_eq_error.2 (.inl hrest)⟩)
        | none =>
          rw [hfind] at hrest
          obtain ⟨references, hok', hends', hfindings'⟩ := hrest
          refine ⟨r :: references, Advised.outcome_bind_eq_ok.2 ⟨r, hok,
            Advised.outcome_bind_eq_ok.2 ⟨references, hok', rfl⟩⟩, ?_, ?_⟩
          · rw [List.map_cons, List.map_cons, hends, hends']
          · rw [Advised.bind_of_ok hok, withCode_append, hfindings, Advised.bind_of_ok hok',
              withCode_append, hfindings']
            exact List.append_nil _

end References

/-! ## Schemas -/

/-- A schema with the selected tables and their columns, a reference for each key that joins two of
them, and a warning among the findings for each other key, all in their order. -/
structure Transcribes (d : Dialect) (tables : Selection) (keys : List ForeignKeyRow) (s : Schema)
    (findings : List Finding) : Prop where
  dialect : s.dialect = d
  columns : s.tables.map (fun t => (t.name, t.fields.map Field.name)) =
    tables.map fun t => (t.1, t.2.map ColumnRow.name)
  references : s.references.map s.endNames? =
    (keys.filter (·.joins tables)).map fun row => some row.ends
  dropped : withCode outsideCode findings =
    (keys.filter fun row => !row.joins tables).map (·.dropped tables)

/-- What holds of a column that was read from a row. -/
structure IsCoherent (f : Field) : Prop where
  key_notNull : f.primaryKey = true → f.nullable = false
  counting_integer : f.autoIncrement = true → f.type.kind.isInteger = true
  counting_default : f.autoIncrement = true → f.default = none
  serial_counting : f.type.kind.isSerial = true → f.autoIncrement = true

theorem ColumnRow.isCoherent_field (d : Dialect) (table : String) (row : ColumnRow) (id : String) :
    IsCoherent (row.field d table id) where
  key_notNull h := by
    have hkey : row.primaryKey = true := h
    show (row.nullable && !row.primaryKey) = false
    rw [hkey, Bool.not_true, Bool.and_false]
  counting_integer := (row.field d table id).isInteger_of_autoIncrement
  counting_default h := if_pos h
  serial_counting h := by
    have hserial : (row.type d table).kind.isSerial = true := h
    show row.countsUp d table = true
    rw [ColumnRow.countsUp, hserial, Kind.isInteger_of_isSerial hserial, Bool.or_true, Bool.and_true]

theorem isCoherent_of_mem {d : Dialect} {position : Nat} {tables : Selection} :
    ∀ t ∈ tablesOf d position tables, ∀ f ∈ t.fields, IsCoherent f := by
  intro t ht f hf
  obtain ⟨u, -, k, rfl⟩ := mem_tablesOf ht
  obtain ⟨row, -, n, rfl⟩ := mem_fieldsOf hf
  exact row.isCoherent_field d u.1 _

/-- Some rows whose types can be read make up a schema unless a key among them is broken. -/
theorem toSchema_eq {d : Dialect} {tables : Selection} (hread : AreRead d tables)
    (keys : List ForeignKeyRow) :
    match keys.find? (·.isBroken tables) with
    | some row => (toSchema d tables keys).outcome = .error row.fault
    | none => ∃ s, (toSchema d tables keys).outcome = .ok s ∧ s.tables = tablesOf d 0 tables ∧
        Transcribes d tables keys s (toSchema d tables keys).findings := by
  have htables := outcome_buildTables 0 hread
  have hsilent := withCode_buildTables d 0 tables
  have hreferences := buildReferences_eq (s := schemaOf d tables) rfl keys 0 keys
  cases hfind : keys.find? (·.isBroken tables) with
  | some row =>
    rw [hfind] at hreferences
    exact Advised.outcome_bind_eq_error.2 (.inr ⟨_, htables,
      Advised.outcome_bind_eq_error.2 (.inl hreferences)⟩)
  | none =>
    rw [hfind] at hreferences
    obtain ⟨references, hok, hends, hfindings⟩ := hreferences
    have hbuild : Schema.build (tablesOf d 0 tables) references (enumsOf d tables) d =
        .ok { schemaOf d tables with references } := dif_pos (nodup_tablesOf d 0 tables)
    refine ⟨{ schemaOf d tables with references }, ?_, rfl, rfl, ?_, hends, ?_⟩
    · exact Advised.outcome_bind_eq_ok.2 ⟨_, htables,
        Advised.outcome_bind_eq_ok.2 ⟨references, hok, hbuild⟩⟩
    · exact map_tablesOf (fun t k => by
        rw [tableOf]
        exact congrArg _ (map_fieldsOf (fun _ _ => rfl) _ 0 t.2)) 0 tables
    · have hrest : (buildReferences (tablesOf d 0 tables) keys 0 keys >>= fun references =>
          Advised.ofExcept (Schema.build (tablesOf d 0 tables) references (enumsOf d tables) d)) =
            ⟨_, _⟩ := Advised.bind_of_ok hok _
      unfold toSchema
      rw [Advised.bind_of_ok htables, withCode_append, hsilent, List.nil_append]
      dsimp only
      rw [hrest, withCode_append]
      exact (List.append_nil _).trans hfindings

/-- What is read from a text is closed. Rows whose types have only numerals among the arguments that are
made of digits are read unless a key joins two selected tables but names a column that one of them
lacks, and the first such key is reported; else they are transcribed as they are, into a closed schema
of coherent columns. -/
theorem sources_closed :
    (∀ text s, (parse text).outcome = .ok s → s.IsClosed) ∧
    ∀ d tables keys, (∀ t ∈ tables, ∀ row ∈ t.2, (RawType.ofText row.rawType).HasNumerals) →
      (∀ f, (toSchema d tables keys).outcome = .error f ↔
        ∃ row, keys.find? (·.isBroken tables) = some row ∧ f = row.fault) ∧
      ∀ s, (toSchema d tables keys).outcome = .ok s →
        s.IsClosed ∧ Transcribes d tables keys s (toSchema d tables keys).findings ∧
          ∀ t ∈ s.tables, ∀ f ∈ t.fields, IsCoherent f := by
  refine ⟨fun text s => isClosed_parse, fun d tables keys hnumerals => ?_⟩
  have hread : AreRead d tables := fun t ht row hrow =>
    ColumnRow.isRead_of_hasNumerals d t.1 (hnumerals t ht row hrow)
  have hschema := toSchema_eq hread keys
  cases hfind : keys.find? (·.isBroken tables) with
  | some row =>
    rw [hfind] at hschema
    refine ⟨fun f => ?_, fun s hs => ?_⟩
    · rw [hschema]
      simp [eq_comm]
    · rw [hschema] at hs
      cases hs
  | none =>
    rw [hfind] at hschema
    obtain ⟨s', hok, htables, htranscribes⟩ := hschema
    refine ⟨fun f => ?_, fun s hs => ?_⟩
    · rw [hok]
      simp
    · obtain rfl : s' = s := Except.ok.inj (hok.symm.trans hs)
      refine ⟨Schema.isClosed_of_ends fun r hr => ?_, htranscribes, ?_⟩
      · have hmem : s'.endNames? r ∈ s'.references.map s'.endNames? := List.mem_map_of_mem hr
        rw [htranscribes.references] at hmem
        obtain ⟨row, -, hrow⟩ := List.mem_map.1 hmem
        rw [← hrow]
        rfl
      · rw [htables]
        exact isCoherent_of_mem

/-- A shop whose orders point to its users, and to bills that are not selected. -/
theorem sources_closed_shop :
    let tables : Selection := [
      ("users", [{ name := "id", rawType := "int", primaryKey := true }]),
      ("orders", [{ name := "number", rawType := "decimal(9)" }, { name := "user_id", rawType := "int" }])]
    let keys : List ForeignKeyRow := [
      { table := "orders", column := "user_id", referencedTable := "users", referencedColumn := "id" },
      { table := "orders", column := "number", referencedTable := "bills", referencedColumn := "id" }]
    (∀ t ∈ tables, ∀ row ∈ t.2, (RawType.ofText row.rawType).HasNumerals) ∧
    ∃ s, (toSchema .mysql tables keys).outcome = .ok s ∧ s.IsClosed ∧
      s.references.map s.endNames? = [some (("orders", "user_id"), ("users", "id"))] ∧
      (withCode outsideCode (toSchema .mysql tables keys).findings).length = 1 := by
  intro tables keys
  have hfind : keys.find? (·.isBroken tables) = none := by decide
  have hnumerals : ∀ t ∈ tables, ∀ row ∈ t.2, (RawType.ofText row.rawType).HasNumerals := by
    decide +kernel
  have hread : AreRead .mysql tables := fun t ht row hrow =>
    ColumnRow.isRead_of_hasNumerals .mysql t.1 (hnumerals t ht row hrow)
  have hschema := toSchema_eq hread keys
  rw [hfind] at hschema
  obtain ⟨s, hs, -⟩ := hschema
  obtain ⟨hclosed, htranscribes, -⟩ := (sources_closed.2 .mysql tables keys hnumerals).2 s hs
  refine ⟨hnumerals, s, hs, hclosed, ?_, ?_⟩
  · rw [htranscribes.references]
    decide
  · rw [htranscribes.dropped]
    decide

end Schemata.Catalog
