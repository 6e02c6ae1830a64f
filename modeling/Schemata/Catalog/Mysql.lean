import Schemata.Catalog.Query
import Schemata.Catalog.Rows
import Schemata.Naming.Identifier

/-!
# The catalog of MySQL

What the information schema of MySQL and MariaDB says about tables, columns and foreign keys.
-/

namespace Schemata.Catalog.Mysql

open Text

def systemDatabases : List String := ["information_schema", "performance_schema", "mysql", "sys"]

def version : Reading String := do
  let rows ← Reading.ask ⟨"SELECT VERSION() AS version", []⟩
  return ((← (← Reading.firstRow rows).value "version")).shown

def databases : Reading (List String) := do
  let names ← (← Reading.ask ⟨"SHOW DATABASES", []⟩).mapM fun r => r.text "Database"
  return names.filter (· ∉ systemDatabases)

/-- The tables of a database in the order of their names; views are left out. -/
def tables (database : String) : Reading (List String) := do
  let rows ← Reading.ask ⟨"SHOW FULL TABLES FROM " ++ Naming.quote .mysql database ++
    " WHERE Table_type = 'BASE TABLE'", []⟩
  let names ← rows.mapM fun r => do asText (← Row.firstValue r)
  return names.mergeSort (fun a b => decide (a ≤ b))

/-- Whether a default is an expression; none leaves it to the text. The server marks generated
defaults; an older one has only the current time as an expression. Text in quotes is a literal that
still has to be read. -/
def expressionFlag (default extra : Json) : Except Failure (Option Bool) := do
  match default with
  | .null => return none
  | default =>
    let extra := lower (← asGivenText extra).toList
    if hasInfix "default_generated".toList extra then return some true
    let text := strip default.shown.toList
    if 2 ≤ text.length ∧ text.head? = some '\'' ∧ text.getLast? = some '\'' then return none
    let text := lower text
    return some (["current_timestamp", "now(", "localtime"].any fun w => w.toList.isPrefixOf text)

def columnRow (r : Row) : Except Failure ColumnRow := do
  let name ← r.text "COLUMN_NAME"
  let rawType ← r.text "COLUMN_TYPE"
  let nullable ← r.isYes "IS_NULLABLE"
  let default ← r.value "COLUMN_DEFAULT"
  let key ← r.value "COLUMN_KEY"
  let extra ← r.value "EXTRA"
  let words := lower (← asGivenText extra).toList
  let comment ← r.givenText "COLUMN_COMMENT"
  return {
    name, rawType, nullable, comment
    default := ← asDefault default
    primaryKey := match key with
      | .str s => s = "PRI"
      | _ => false
    unique := match key with
      | .str s => s = "UNI"
      | _ => false
    autoIncrement := hasInfix "auto_increment".toList words
    isExpression := ← expressionFlag default extra }

def columns (database table : String) : Reading (List ColumnRow) := do
  let rows ← Reading.ask ⟨"SELECT COLUMN_NAME, COLUMN_TYPE, IS_NULLABLE, COLUMN_DEFAULT, EXTRA, " ++
    "COLUMN_KEY, COLUMN_COMMENT FROM INFORMATION_SCHEMA.COLUMNS " ++
    "WHERE TABLE_SCHEMA = %s AND TABLE_NAME = %s ORDER BY ORDINAL_POSITION",
    [.text database, .text table]⟩
  rows.mapM fun r => liftM (columnRow r)

def foreignKeyRow (r : Row) : Except Failure ForeignKeyRow := do
  return {
    table := ← r.text "TABLE_NAME"
    column := ← r.text "COLUMN_NAME"
    referencedTable := ← r.text "REFERENCED_TABLE_NAME"
    referencedColumn := ← r.text "REFERENCED_COLUMN_NAME"
    updateRule := ← r.text? "UPDATE_RULE"
    deleteRule := ← r.text? "DELETE_RULE"
    constraint := ← r.text? "CONSTRAINT_NAME" }

/-- The columns of the foreign keys of some tables. -/
def foreignKeys (database : String) (tables : List String) : Reading (List ForeignKeyRow) := do
  if tables.isEmpty then return []
  let places := ", ".intercalate (tables.map fun _ => "%s")
  let rows ← Reading.ask ⟨"SELECT kcu.TABLE_NAME, kcu.COLUMN_NAME, kcu.CONSTRAINT_NAME, " ++
    "kcu.REFERENCED_TABLE_NAME, kcu.REFERENCED_COLUMN_NAME, rc.UPDATE_RULE, rc.DELETE_RULE " ++
    "FROM INFORMATION_SCHEMA.KEY_COLUMN_USAGE kcu " ++
    "LEFT JOIN INFORMATION_SCHEMA.REFERENTIAL_CONSTRAINTS rc " ++
    "ON kcu.CONSTRAINT_NAME = rc.CONSTRAINT_NAME " ++
    "AND kcu.CONSTRAINT_SCHEMA = rc.CONSTRAINT_SCHEMA " ++
    "WHERE kcu.TABLE_SCHEMA = %s AND kcu.REFERENCED_TABLE_NAME IS NOT NULL " ++
    "AND kcu.TABLE_NAME IN (" ++ places ++ ") " ++
    "ORDER BY kcu.TABLE_NAME, kcu.CONSTRAINT_NAME, kcu.ORDINAL_POSITION",
    .text database :: tables.map .text⟩
  rows.mapM fun r => liftM (foreignKeyRow r)

end Schemata.Catalog.Mysql
