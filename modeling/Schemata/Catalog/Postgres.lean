import Schemata.Catalog.Query
import Schemata.Catalog.Rows
import Schemata.Text.Quoted

/-!
# The catalog of PostgreSQL

What the information schema of PostgreSQL says about the tables, columns and foreign keys of the
public schema. The labels of an enumeration are written into the type of its columns.
-/

namespace Schemata.Catalog.Postgres

open Text

def schemaName : String := "public"

/-- The version, cut off after fifty characters. -/
def version : Reading String := do
  let rows ← Reading.ask ⟨"SELECT version() AS version", []⟩
  let text := (← (← Reading.firstRow rows).value "version").shown
  return String.ofList (text.toList.take 50)

def databases : Reading (List String) := do
  let rows ← Reading.ask ⟨"SELECT datname FROM pg_database WHERE datistemplate = false " ++
    "AND datname NOT IN ('postgres', 'template0', 'template1') ORDER BY datname", []⟩
  rows.mapM fun r => liftM (r.text "datname")

def tables : Reading (List String) := do
  let rows ← Reading.ask
    ⟨"SELECT tablename FROM pg_tables WHERE schemaname = %s ORDER BY tablename",
      [.text schemaName]⟩
  rows.mapM fun r => liftM (r.text "tablename")

/-- Puts a value at the end of the group with a name. -/
def addToGroup (name value : String) : List (String × List String) → List (String × List String)
  | [] => [(name, [value])]
  | (n, vs) :: gs =>
    if n = name then (n, vs ++ [value]) :: gs else (n, vs) :: addToGroup name value gs

/-- Values in groups by their names, the groups in the order of their first values. -/
def grouped (pairs : List (String × String)) : List (String × List String) :=
  pairs.foldl (fun gs p => addToGroup p.1 p.2 gs) []

def enumLabels : Reading (List (String × List String)) := do
  let rows ← Reading.ask ⟨"SELECT t.typname, e.enumlabel FROM pg_type t " ++
    "JOIN pg_enum e ON e.enumtypid = t.oid ORDER BY t.typname, e.enumsortorder", []⟩
  return grouped (← rows.mapM fun r => do return (← r.text "typname", ← r.text "enumlabel"))

def keyColumns (table kind : String) : Reading (List (List String)) := do
  let rows ← Reading.ask ⟨"SELECT tc.constraint_name, kcu.column_name " ++
    "FROM information_schema.table_constraints tc " ++
    "JOIN information_schema.key_column_usage kcu " ++
    "ON tc.constraint_name = kcu.constraint_name AND tc.table_schema = kcu.table_schema " ++
    "WHERE tc.table_schema = %s AND tc.table_name = %s AND tc.constraint_type = %s " ++
    "ORDER BY tc.constraint_name, kcu.ordinal_position",
    [.text schemaName, .text table, .text kind]⟩
  let pairs ← rows.mapM fun r => do return (← r.text "constraint_name", ← r.text "column_name")
  return (grouped pairs).map (·.2)

/-- Labels as the type of a column that lists them. -/
def enumText (labels : List String) : String :=
  "enum(" ++ ", ".intercalate (labels.map fun l => String.ofList (quoteDoubled l.toList)) ++ ")"

/-- The type of a column as one text, if the row has one. -/
def rawType? (r : Row) (enums : List (String × List String)) : Except Failure (Option String) := do
  let dataType ← r.value "data_type"
  let name := match dataType with
    | .str s => s
    | _ => ""
  if name = "USER-DEFINED" then
    let own ← r.text? "udt_name"
    match own.bind (enums.lookup ·) with
    | some (l :: ls) => return some (enumText (l :: ls))
    | _ => return own
  let length ← r.value "character_maximum_length"
  if length.isGiven ∧ (name = "character varying" ∨ name = "character") then
    return some (name ++ "(" ++ length.shown ++ ")")
  if name = "numeric" then
    match ← r.value "numeric_precision" with
    | .null => return some name
    | precision =>
      let scale ← r.value "numeric_scale"
      let scale := if scale.isGiven then scale.shown else "0"
      return some ("numeric(" ++ precision.shown ++ "," ++ scale ++ ")")
  asText? dataType

def columnRow (enums : List (String × List String)) (primary unique : List String) (r : Row) :
    Except Failure ColumnRow := do
  let name ← r.text "column_name"
  return {
    name
    rawType := ← (← rawType? r enums).elim (.error .mistyped) .ok
    nullable := ← r.isYes "is_nullable"
    default := ← asDefault (← r.value "column_default")
    primaryKey := name ∈ primary
    unique := name ∈ unique
    autoIncrement := ← r.isYes "is_identity"
    comment := ← r.givenText "column_comment" }

def columns (table : String) : Reading (List ColumnRow) := do
  let rows ← Reading.ask ⟨"SELECT column_name, data_type, udt_name, is_nullable, " ++
    "column_default, character_maximum_length, numeric_precision, numeric_scale, is_identity, " ++
    "col_description(format('%%I.%%I', table_schema, table_name)::regclass, ordinal_position) " ++
    "AS column_comment FROM information_schema.columns " ++
    "WHERE table_schema = %s AND table_name = %s ORDER BY ordinal_position",
    [.text schemaName, .text table]⟩
  let enums ← enumLabels
  let primary ← keyColumns table "PRIMARY KEY"
  let unique ← keyColumns table "UNIQUE"
  let sole := unique.filterMap fun cs => if cs.length = 1 then cs.head? else none
  rows.mapM fun r => liftM (columnRow enums primary.flatten sole r)

def foreignKeyRow (r : Row) : Except Failure ForeignKeyRow := do
  return {
    table := ← r.text "table_name"
    column := ← r.text "column_name"
    referencedTable := ← r.text "foreign_table_name"
    referencedColumn := ← r.text "foreign_column_name"
    updateRule := ← r.text? "update_rule"
    deleteRule := ← r.text? "delete_rule"
    constraint := ← r.text? "constraint_name" }

/-- The columns of the foreign keys of some tables. -/
def foreignKeys (tables : List String) : Reading (List ForeignKeyRow) := do
  if tables.isEmpty then return []
  let rows ← Reading.ask ⟨"SELECT tc.table_name, kcu.column_name, tc.constraint_name, " ++
    "ccu.table_name AS foreign_table_name, ccu.column_name AS foreign_column_name, " ++
    "rc.update_rule, rc.delete_rule FROM information_schema.table_constraints AS tc " ++
    "JOIN information_schema.key_column_usage AS kcu " ++
    "ON tc.constraint_name = kcu.constraint_name AND tc.table_schema = kcu.table_schema " ++
    "JOIN information_schema.constraint_column_usage AS ccu " ++
    "ON ccu.constraint_name = tc.constraint_name AND ccu.constraint_schema = tc.table_schema " ++
    "JOIN information_schema.referential_constraints AS rc " ++
    "ON tc.constraint_name = rc.constraint_name AND rc.constraint_schema = tc.table_schema " ++
    "WHERE tc.constraint_type = 'FOREIGN KEY' AND tc.table_schema = %s " ++
    "AND tc.table_name = ANY(%s) " ++
    "ORDER BY tc.table_name, tc.constraint_name, kcu.ordinal_position",
    [.text schemaName, .texts tables]⟩
  rows.mapM fun r => liftM (foreignKeyRow r)

end Schemata.Catalog.Postgres
