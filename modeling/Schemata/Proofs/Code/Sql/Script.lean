import Schemata.Code.Artifact

/-!
# What scripts do

A script is looked at through what its statements do to the tables of a database: which tables they
make, drop and rename, which rows they copy, which indexes they make, and which keys they add and
drop. Remarks and descriptions do none of this. `Rebuilds` says of a script that it makes a table
anew with some keys, and `rebuilds_script` and `rebuilds_undoScript` that the scripts for the keys of
a table in SQLite do.
-/

namespace Schemata.Code.Sql

/-! ## Views -/

namespace Clause

def column? : Clause → Option ColumnDef
  | column c => some c
  | _ => none

def key? : Clause → Option KeyDef
  | foreignKey k => some k
  | _ => none

end Clause

/-- The names of the columns among some clauses. -/
def columnNames (clauses : List Clause) : List String :=
  (clauses.filterMap Clause.column?).map (·.name)

namespace Statement

/-- The table that a statement makes. -/
def made? : Statement → Option (String × List Clause)
  | createTable _ name clauses _ => some (name, clauses)
  | _ => none

/-- The columns whose values a statement copies, and from where to where. -/
def copied? : Statement → Option (List String × String × String)
  | copyRows columns source target => some (columns, source, target)
  | _ => none

/-- The index that a statement makes: whether it is unique, its name, its table and its columns. -/
def index? : Statement → Option (Bool × String × String × List String)
  | createIndex unique name table columns => some (unique, name, table, columns)
  | _ => none

/-- The names of the tables that a statement makes, drops or renames. -/
def tables : Statement → List String
  | createTable _ name _ _ => [name]
  | dropTable _ name => [name]
  | renameTable name newName => [name, newName]
  | _ => []

/-- The table and the name of the constraint that a statement adds to it. -/
def addedKey? : Statement → Option (String × String)
  | addForeignKey table key => some (table, key.name)
  | _ => none

/-- The table and the name of the constraint that a statement drops from it. -/
def droppedKey? : Statement → Option (String × String)
  | dropForeignKey table name => some (table, name)
  | _ => none

/-- Whether a statement only talks about tables. -/
def isNote : Statement → Bool
  | remark _ | describeTable _ _ | describeColumn _ _ _ => true
  | _ => false

end Statement

/-! ## The scripts of a task -/

/-- The script of the file that carries out a task. -/
def script (e : Engine) (o : Options) (t : Task) : Script :=
  match t.phase with
  | .createTable => (create e o t).value
  | .attachForeignKeys => attach e o t

/-- The script of the file that undoes a task. -/
def undoScript (e : Engine) (o : Options) (t : Task) : Script :=
  match t.phase with
  | .createTable => drop t
  | .attachForeignKeys => (detach e o t).value

theorem script_of_create {t : Task} (h : t.phase = .createTable) (e : Engine) (o : Options) :
    script e o t = (create e o t).value := by
  unfold script
  rw [h]

theorem script_of_attach {t : Task} (h : t.phase = .attachForeignKeys) (e : Engine) (o : Options) :
    script e o t = attach e o t := by
  unfold script
  rw [h]

theorem undoScript_of_attach {t : Task} (h : t.phase = .attachForeignKeys) (e : Engine)
    (o : Options) : undoScript e o t = (detach e o t).value := by
  unfold undoScript
  rw [h]

theorem value_content (e : Engine) (o : Options) (t : Task) :
    (content (.sql e) o t).value = (script e o t).text e := by
  unfold content script
  cases t.phase <;> rfl

theorem value_rollbackContent (e : Engine) (o : Options) (t : Task) :
    (rollbackContent e o t).value = (undoScript e o t).text e := by
  unfold rollbackContent undoScript
  cases t.phase <;> rfl

/-! ## Notes -/

theorem isNote_of_mem_header {verb : String} {t : Task} : ∀ s ∈ header verb t, s.isNote := by
  simp [header, Statement.isNote]

theorem isNote_of_mem_remarks {e : Engine} {o : Options} {t : Table} :
    ∀ s ∈ remarks e o t, s.isNote := by
  unfold remarks
  split
  · refine List.forall_mem_append.2 ⟨List.forall_mem_map.2 fun _ _ => rfl, ?_⟩
    exact List.forall_mem_map.2 fun _ _ => rfl
  · simp

theorem isNote_of_mem_descriptions {e : Engine} {o : Options} {t : Table} :
    ∀ s ∈ descriptions e o t, s.isNote := by
  unfold descriptions
  split
  · refine List.forall_mem_append.2 ⟨?_, List.forall_mem_map.2 fun _ _ => rfl⟩
    split <;> simp [Statement.isNote]
  · simp

/-- A view that sees nothing in a note. -/
def PassesNotes {β : Type} (g : Statement → Option β) : Prop :=
  ∀ s : Statement, s.isNote → g s = none

theorem passesNotes_made? : PassesNotes Statement.made? := by
  rintro (_ | _) hs <;> first | rfl | cases hs

theorem passesNotes_copied? : PassesNotes Statement.copied? := by
  rintro (_ | _) hs <;> first | rfl | cases hs

theorem passesNotes_index? : PassesNotes Statement.index? := by
  rintro (_ | _) hs <;> first | rfl | cases hs

theorem passesNotes_addedKey? : PassesNotes Statement.addedKey? := by
  rintro (_ | _) hs <;> first | rfl | cases hs

theorem passesNotes_droppedKey? : PassesNotes Statement.droppedKey? := by
  rintro (_ | _) hs <;> first | rfl | cases hs

section Views

variable {β : Type} {g : Statement → Option β} (hg : PassesNotes g)

include hg

theorem filterMap_notes_append {l : Script} (hl : ∀ s ∈ l, s.isNote) (r : Script) :
    (l ++ r).filterMap g = r.filterMap g := by
  rw [List.filterMap_append, List.filterMap_eq_nil_iff.2 fun s hs => hg s (hl s hs),
    List.nil_append]

/-- What is seen of a script that creates a table is the statement that makes it and its indexes. -/
theorem filterMap_create (e : Engine) (o : Options) (t : Task) :
    (create e o t).value.filterMap g =
      (Statement.createTable true t.table.name
          (clauses e o t.table (typedColumns e o t.table).value []) (storage e o t.table) ::
        indexStatements e o t.table).filterMap g := by
  show (header "Create table" t ++ remarks e o t.table ++ [_] ++ indexStatements e o t.table ++
    descriptions e o t.table).filterMap g = _
  rw [List.filterMap_append, ← List.append_nil (descriptions e o t.table),
    filterMap_notes_append hg isNote_of_mem_descriptions, List.filterMap_nil, List.append_nil,
    List.append_assoc, List.append_assoc, filterMap_notes_append hg isNote_of_mem_header,
    filterMap_notes_append hg isNote_of_mem_remarks]
  rfl

end Views

/-- A view that passes over indexes sees nothing in the statements that make them. -/
theorem filterMap_indexStatements {β : Type} {g : Statement → Option β}
    (hg : ∀ u n t cs, g (.createIndex u n t cs) = none) (e : Engine) (o : Options) (t : Table) :
    (indexStatements e o t).filterMap g = [] := by
  unfold indexStatements
  split <;> simp [hg]

/-- What a script creates is one table, with the clauses of the table. -/
theorem made_script (e : Engine) (o : Options) {c : Task} (hc : c.phase = .createTable) :
    (script e o c).filterMap Statement.made? =
      [(c.table.name, clauses e o c.table (typedColumns e o c.table).value [])] := by
  rw [script_of_create hc, filterMap_create passesNotes_made?, ← List.singleton_append,
    List.filterMap_append, filterMap_indexStatements fun _ _ _ _ => rfl]
  rfl

/-! ## Keys -/

section Keys

variable {e : Engine} (he : e ≠ .sqlite) {o : Options} {t : Task} (ht : t.phase = .attachForeignKeys)

include he ht

/-- Attaching adds the constraint of each edge to the table that holds it. -/
theorem addedKeys_script :
    (script e o t).filterMap Statement.addedKey? =
      t.edges.map fun k => (k.owner.name, k.constraintName) := by
  rw [script_of_attach ht, attach, if_neg he,
    filterMap_notes_append passesNotes_addedKey? isNote_of_mem_header, List.filterMap_map]
  exact congrFun (List.filterMap_eq_map (f := _)) t.edges

/-- Detaching drops the constraint of each edge from the table of the task. -/
theorem droppedKeys_undoScript :
    (undoScript e o t).filterMap Statement.droppedKey? =
      t.edges.map fun k => (t.table.name, k.constraintName) := by
  rw [undoScript_of_attach ht, detach, if_neg he]
  show (header _ t ++ _).filterMap _ = _
  rw [filterMap_notes_append passesNotes_droppedKey? isNote_of_mem_header, List.filterMap_map]
  exact congrFun (List.filterMap_eq_map (f := _)) t.edges

end Keys

/-! ## Making tables anew -/

/-- A script that makes a table anew under another name, with some clauses and some keys behind them,
copies the columns of all rows, and puts the new table in the place of the old one. -/
structure Rebuilds (s : Script) (t : Table) (made : List Clause) (keys : List KeyDef) : Prop where
  made_eq : s.filterMap Statement.made? = [(rebuildName t, made ++ keys.map .foreignKey)]
  copied_eq : s.filterMap Statement.copied? = [(columnNames made, t.name, rebuildName t)]
  tables_eq : s.flatMap Statement.tables =
    [rebuildName t, rebuildName t, t.name, rebuildName t, t.name]

/-- There are no keys among the clauses of a table that is created. -/
theorem keys_clauses (e : Engine) (o : Options) (t : Table) (columns : List (Field × Rendered)) :
    (clauses e o t columns []).filterMap Clause.key? = [] := by
  refine List.filterMap_eq_nil_iff.2 ?_
  unfold clauses primaryKeyClause
  simp only [List.forall_mem_append, List.map_nil, List.forall_mem_map]
  refine ⟨⟨⟨fun _ _ => rfl, ?_⟩, ?_⟩, by simp⟩
  · split <;> simp [Clause.key?]
  · split
    · exact List.forall_mem_map.2 fun _ _ => rfl
    · simp

/-- The columns of a table are the first of its clauses. -/
theorem columns_clauses (e : Engine) (o : Options) (t : Table)
    (columns : List (Field × Rendered)) (edges : List Edge) :
    (clauses e o t columns edges).filterMap Clause.column? = columns.map (columnDef e o t) := by
  have hskip : ∀ {l : List Clause}, (∀ c ∈ l, c.column? = none) → ∀ r,
      (r ++ l).filterMap Clause.column? = r.filterMap Clause.column? := by
    intro l hl r
    rw [List.filterMap_append, List.filterMap_eq_nil_iff.2 hl, List.append_nil]
  unfold clauses primaryKeyClause
  refine (hskip ?foreignKeys _).trans ((hskip ?indexes _).trans ((hskip ?primaryKey _).trans ?_))
  case foreignKeys => exact List.forall_mem_map.2 fun _ _ => rfl
  case indexes =>
    split
    · exact List.forall_mem_map.2 fun _ _ => rfl
    · simp
  case primaryKey => split <;> simp [Clause.column?]
  rw [List.filterMap_map]
  exact congrFun (List.filterMap_eq_map (f := columnDef e o t)) columns

theorem columnNames_clauses (e : Engine) (o : Options) (t : Table)
    (columns : List (Field × Rendered)) (edges : List Edge) :
    columnNames (clauses e o t columns edges) = columns.map (·.1.name) := by
  rw [columnNames, columns_clauses, List.map_map]
  rfl

theorem clauses_eq_append (e : Engine) (o : Options) (t : Table)
    (columns : List (Field × Rendered)) (edges : List Edge) :
    clauses e o t columns edges =
      clauses e o t columns [] ++ (edges.map (keyDef e)).map Clause.foreignKey := by
  simp [clauses, Function.comp_def]

theorem tables_indexStatements (e : Engine) (o : Options) (t : Table) :
    (indexStatements e o t).flatMap Statement.tables = [] := by
  unfold indexStatements
  split
  · rfl
  · rw [List.flatMap_map]
    exact List.flatMap_eq_nil_iff.2 fun _ _ => rfl

/-- What a script makes anew of a table are the clauses of the table and some keys. -/
theorem rebuilds_rebuild (e : Engine) (o : Options) (t : Table) (columns : List (Field × Rendered))
    (edges : List Edge) (verb : String) (task : Task) :
    Rebuilds (header verb task ++ rebuild e o t columns edges) t (clauses e o t columns [])
      (edges.map (keyDef e)) where
  made_eq := by
    rw [filterMap_notes_append passesNotes_made? isNote_of_mem_header, ← clauses_eq_append, rebuild,
      List.append_assoc, List.filterMap_append, List.filterMap_append,
      filterMap_indexStatements fun _ _ _ _ => rfl]
    rfl
  copied_eq := by
    rw [filterMap_notes_append passesNotes_copied? isNote_of_mem_header, columnNames_clauses, rebuild,
      List.append_assoc, List.filterMap_append, List.filterMap_append,
      filterMap_indexStatements fun _ _ _ _ => rfl]
    rfl
  tables_eq := by
    rw [rebuild, List.flatMap_append, List.flatMap_append, List.flatMap_append,
      tables_indexStatements]
    rfl

/-- A table that is made anew is given the indexes of the table again. -/
theorem indexes_rebuild (e : Engine) (o : Options) (t : Table) (columns : List (Field × Rendered))
    (edges : List Edge) (verb : String) (task : Task) :
    (header verb task ++ rebuild e o t columns edges).filterMap Statement.index? =
      (indexStatements e o t).filterMap Statement.index? := by
  rw [filterMap_notes_append passesNotes_index? isNote_of_mem_header, rebuild,
    List.append_assoc, List.filterMap_append, List.filterMap_append]
  exact List.append_nil _

section Sqlite

variable {o : Options} {t : Task}

theorem rebuilds_script (ht : t.phase = .attachForeignKeys) :
    Rebuilds (script .sqlite o t) t.table
      (clauses .sqlite o t.table (typedColumns .sqlite o t.table).value [])
      (t.edges.map (keyDef .sqlite)) := by
  rw [script_of_attach ht]
  exact rebuilds_rebuild ..

theorem rebuilds_undoScript (ht : t.phase = .attachForeignKeys) :
    Rebuilds (undoScript .sqlite o t) t.table
      (clauses .sqlite o t.table (typedColumns .sqlite o t.table).value []) [] := by
  rw [undoScript_of_attach ht]
  exact rebuilds_rebuild _ _ _ _ [] _ _

end Sqlite

end Schemata.Code.Sql
