import Mathlib.Data.List.Nodup
import Mathlib.Logic.Function.Basic
import Schemata.Proofs.Code.Sql.Script

/-!
# Running scripts

What a script of SQLite does to the tables of a database and to their rows. A statement fails where
the database would refuse it, and then the whole script does. Constraints on rows and indexes are not
looked at: they neither add rows nor take them away. What a column holds in a row that is given no
value for it is left open. A remark is one whatever it says; whether its text stays behind its marker
is not asked here.
-/

namespace Schemata.Code.Sql

/-- What SQLite compares names by: the case of ASCII letters makes no difference. -/
def nameKey (s : String) : List Char := s.toList.map Char.toLower

/-- A row: the values of the columns with their names. -/
abbrev Row (V : Type) := List (String × V)

/-- A table in a database. -/
structure Stored (V : Type) where
  columns : List String
  rows : List (Row V)
  columns_ne_nil : columns ≠ []
  nodup_columns : (columns.map nameKey).Nodup
  columns_eq : ∀ r ∈ rows, r.map (·.1) = columns

/-- Tables by what their names are compared by. -/
abbrev Database (V : Type) := List Char → Option (Stored V)

variable {V : Type} (unset : String → V)

/-- The value of a row in a column. -/
def Row.value (r : Row V) (column : String) : V :=
  ((r.find? fun a => nameKey a.1 = nameKey column).map (·.2)).getD (unset column)

/-- A row for some columns with the values that another row has in chosen ones. -/
def Row.project (chosen columns : List String) (r : Row V) : Row V :=
  columns.map fun c => (c, if nameKey c ∈ chosen.map nameKey then r.value unset c else unset c)

namespace Stored

def empty (columns : List String) (hne : columns ≠ []) (hnodup : (columns.map nameKey).Nodup) :
    Stored V where
  columns := columns
  rows := []
  columns_ne_nil := hne
  nodup_columns := hnodup
  columns_eq := by simp

/-- A table with rows of another one added, of which some columns are copied. -/
def insert (u : Stored V) (chosen : List String) (d : Stored V) : Stored V where
  columns := u.columns
  rows := u.rows ++ d.rows.map (Row.project unset chosen u.columns)
  columns_ne_nil := u.columns_ne_nil
  nodup_columns := u.nodup_columns
  columns_eq := by
    refine List.forall_mem_append.2 ⟨u.columns_eq, List.forall_mem_map.2 fun r _ => ?_⟩
    simp [Row.project, Function.comp_def]

def hasColumns (d : Stored V) (names : List String) : Bool :=
  names.all fun n => nameKey n ∈ d.columns.map nameKey

end Stored

/-! ## Rows that are copied -/

theorem Row.value_of_mem {r : Row V} (hr : (r.map fun a => nameKey a.1).Nodup) {a : String × V}
    (ha : a ∈ r) : r.value unset a.1 = a.2 := by
  obtain ⟨b, hb⟩ : ∃ b, r.find? (fun b => nameKey b.1 = nameKey a.1) = some b := by
    rw [← Option.isSome_iff_exists, List.find?_isSome]
    exact ⟨a, ha, decide_eq_true rfl⟩
  have hkey : nameKey b.1 = nameKey a.1 := by simpa using List.find?_some hb
  obtain rfl := List.inj_on_of_nodup_map hr (List.mem_of_find?_eq_some hb) ha hkey
  rw [value, hb]
  rfl

/-- A row that is copied in all its columns stays as it is. -/
theorem Row.project_self {r : Row V} {columns : List String} (hr : r.map (·.1) = columns)
    (hnodup : (columns.map nameKey).Nodup) : r.project unset columns columns = r := by
  subst hr
  rw [List.map_map] at hnodup
  unfold project
  rw [List.map_map]
  refine (List.map_congr_left fun a ha => ?_).trans r.map_id
  have hmem : nameKey a.1 ∈ (r.map (·.1)).map nameKey :=
    List.mem_map_of_mem (List.mem_map_of_mem ha)
  simp only [Function.comp_apply, if_pos hmem, value_of_mem unset hnodup ha, id]

/-- A table filled from another one in all its columns is that table again. -/
theorem Stored.insert_empty (d : Stored V) :
    (empty d.columns d.columns_ne_nil d.nodup_columns).insert unset d.columns d = d := by
  have hrows : d.rows.map (Row.project unset d.columns d.columns) = d.rows :=
    (List.map_congr_left fun r hr => Row.project_self unset (d.columns_eq r hr)
      d.nodup_columns).trans d.rows.map_id
  cases d
  simp only [insert, empty, List.nil_append, hrows]

theorem Stored.hasColumns_self (d : Stored V) : d.hasColumns d.columns := by
  simp only [hasColumns, List.all_eq_true, decide_eq_true_eq]
  exact fun n hn => List.mem_map_of_mem hn

/-! ## Statements -/

/-- Runs a statement. -/
def exec : Statement → Database V → Option (Database V)
  | .createTable guarded name clauses _, db =>
    if (db (nameKey name)).isSome then
      if guarded then some db else none
    else if h : columnNames clauses ≠ [] ∧ ((columnNames clauses).map nameKey).Nodup then
      some (Function.update db (nameKey name) (some (.empty (columnNames clauses) h.1 h.2)))
    else none
  | .dropTable guarded name, db =>
    if (db (nameKey name)).isSome then some (Function.update db (nameKey name) none)
    else if guarded then some db else none
  | .renameTable name newName, db =>
    match db (nameKey name), db (nameKey newName) with
    | some d, none =>
      some (Function.update (Function.update db (nameKey name) none) (nameKey newName) (some d))
    | _, _ => none
  | .copyRows columns source target, db =>
    match db (nameKey source), db (nameKey target) with
    | some d, some u =>
      if d.hasColumns columns && u.hasColumns columns then
        some (Function.update db (nameKey target) (some (u.insert unset columns d)))
      else none
    | _, _ => none
  | .createIndex _ _ table _, db => if (db (nameKey table)).isSome then some db else none
  | .remark _, db | .checkKeys _, db | .begin, db | .commit, db => some db
  | .describeTable _ _, _ | .describeColumn _ _ _, _ | .addForeignKey _ _, _
  | .dropForeignKey _ _, _ => none

/-- Runs the statements of a script one after another. -/
def run (s : Script) (db : Database V) : Option (Database V) :=
  s.foldlM (fun db st => exec unset st db) db

theorem run_append (s s' : Script) (db : Database V) :
    run unset (s ++ s') db = (run unset s db).bind (run unset s') :=
  List.foldlM_append

theorem run_cons (st : Statement) (s : Script) (db : Database V) :
    run unset (st :: s) db = (exec unset st db).bind (run unset s) :=
  List.foldlM_cons

section Steps

variable {db : Database V} {d : Stored V}

theorem exec_dropTable {guarded : Bool} {name : String} (h : db (nameKey name) = some d) :
    exec unset (.dropTable guarded name) db = some (Function.update db (nameKey name) none) := by
  simp [exec, h]

/-- After a table is dropped if it is there, it is not there. -/
theorem exec_dropTable_guarded (name : String) :
    exec unset (.dropTable true name) db = some (Function.update db (nameKey name) none) := by
  cases h : db (nameKey name) with
  | some d => exact exec_dropTable unset h
  | none =>
    rw [Function.update_eq_self_iff.2 h.symm]
    simp [exec, h]

/-- A table that is not there is made with the columns among its clauses and no rows. -/
theorem exec_createTable {guarded : Bool} {name : String} {clauses : List Clause}
    {storage : Option Storage} (h : db (nameKey name) = none) (hne : columnNames clauses ≠ [])
    (hnodup : ((columnNames clauses).map nameKey).Nodup) :
    exec unset (.createTable guarded name clauses storage) db =
      some (Function.update db (nameKey name) (some (.empty _ hne hnodup))) := by
  simp [exec, h, hne, hnodup]

/-- An empty table with the columns of another one is filled with all its rows. -/
theorem exec_copyRows {source target : String} (hsource : db (nameKey source) = some d)
    (htarget : db (nameKey target) =
      some (.empty d.columns d.columns_ne_nil d.nodup_columns)) :
    exec unset (.copyRows d.columns source target) db =
      some (Function.update db (nameKey target) (some d)) := by
  have hcolumns : (Stored.empty (V := V) d.columns d.columns_ne_nil
    d.nodup_columns).hasColumns d.columns := d.hasColumns_self
  simp only [exec, hsource, htarget, d.hasColumns_self, hcolumns, Bool.and_self, if_true,
    d.insert_empty]

theorem exec_renameTable {name newName : String} (h : db (nameKey name) = some d)
    (hnew : db (nameKey newName) = none) :
    exec unset (.renameTable name newName) db =
      some (Function.update (Function.update db (nameKey name) none) (nameKey newName) (some d)) := by
  simp only [exec, h, hnew]

theorem exec_createIndex {unique : Bool} {name table : String} {columns : List String}
    (h : db (nameKey table) = some d) :
    exec unset (.createIndex unique name table columns) db = some db := by
  simp [exec, h]

end Steps

end Schemata.Code.Sql
