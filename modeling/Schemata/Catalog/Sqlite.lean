import Schemata.Catalog.Query
import Schemata.Catalog.Rows
import Schemata.Naming.Identifier

/-!
# The catalog of SQLite

What the pragmas of SQLite say about tables, columns and foreign keys. A whole-number column that is
the whole primary key counts up. A foreign key that names no column points to the primary key, and
only keys over several columns are given a name, to hold their columns together.
-/

namespace Schemata.Catalog.Sqlite

open Text

def version : Reading String := do
  let rows ← Reading.ask ⟨"SELECT sqlite_version() AS version", []⟩
  return (← (← Reading.firstRow rows).value "version").shown

/-- A file is one database. -/
def databases : Reading (List String) := return ["main"]

def tables : Reading (List String) := do
  let rows ← Reading.ask ⟨"SELECT name FROM sqlite_master " ++
    "WHERE type = 'table' AND name NOT LIKE 'sqlite_%' ORDER BY name", []⟩
  rows.mapM fun r => liftM (r.text "name")

/-- The rows of a pragma about something with a name. -/
def pragma (word name : String) : Reading (List Row) :=
  Reading.ask ⟨"PRAGMA " ++ word ++ "(" ++ Naming.quote .sqlite name ++ ")", []⟩

/-- Whether an index is a unique one that is not made for the primary key. -/
def isUniqueIndex (index : Row) : Except Failure Bool := do
  if !(← index.isGiven "unique") then return false
  match ← index.value "origin" with
  | .str "pk" => return false
  | _ => return true

def uniqueColumns (table : String) : Reading (List String) := do
  let found ← (← pragma "index_list" table).mapM fun index => do
    if ← isUniqueIndex index then
      match ← pragma "index_info" (← index.text "name") with
      | [column] => return [← column.text "name"]
      | _ => return []
    else return []
  return found.flatten

def columnRow (keySize : Nat) (unique : List String) (r : Row) : Except Failure ColumnRow := do
  let name ← r.text "name"
  let rawType ← r.givenText "type"
  let nullable ← r.isGiven "notnull"
  let default ← asDefault (← r.value "dflt_value")
  let inKey ← r.isGiven "pk"
  return {
    name, rawType, default
    nullable := !nullable
    primaryKey := inKey
    unique := name ∈ unique
    autoIncrement := inKey && keySize = 1 && upper rawType.toList = "INTEGER".toList }

def columns (table : String) : Reading (List ColumnRow) := do
  let rows ← pragma "table_info" table
  let inKey ← rows.mapM fun r => liftM (r.isGiven "pk")
  let unique ← uniqueColumns table
  rows.mapM fun r => liftM (columnRow (inKey.count true) unique r)

def isOne : Json → Bool
  | .int n => n = 1
  | .bool b => b
  | .float x => x.toInt? = some 1
  | _ => false

/-- The first of some rows of columns that is first in the primary key. -/
def firstKeyRow? : List Row → Except Failure (Option Row)
  | [] => return none
  | r :: rs => do if isOne (← r.value "pk") then return some r else firstKeyRow? rs

/-- The first column of the primary key of a table. -/
def keyColumn? (table : String) : Reading (Option String) := do
  match ← firstKeyRow? (← pragma "table_info" table) with
  | some r => r.text? "name"
  | none => return none

def keyName (table : String) (id : Json) : String := table ++ "_fk_" ++ id.shown

/-- One column of a foreign key of a table whose keys have some sizes; none if it points to a table
without a primary key. -/
def foreignKeyRow? (table : String) (ids : List String) (r : Row) :
    Reading (Option ForeignKeyRow) := do
  let target ← r.value "to"
  let column ← if target.isGiven then some <$> asText target else do keyColumn? (← r.text "table")
  match column with
  | none => return none
  | some referencedColumn =>
    let id ← r.value "id"
    return some {
      table
      column := ← r.text "from"
      referencedTable := ← r.text "table"
      referencedColumn
      updateRule := ← r.text? "on_update"
      deleteRule := ← r.text? "on_delete"
      constraint := if 1 < ids.count id.shown then some (keyName table id) else none }

def foreignKeysOf (table : String) : Reading (List ForeignKeyRow) := do
  let rows ← pragma "foreign_key_list" table
  let ids ← rows.mapM fun r => do return (← r.value "id").shown
  return (← rows.mapM (foreignKeyRow? table ids)).filterMap id

/-- The columns of the foreign keys of some tables. -/
def foreignKeys (tables : List String) : Reading (List ForeignKeyRow) := do
  return (← tables.mapM foreignKeysOf).flatten

end Schemata.Catalog.Sqlite
