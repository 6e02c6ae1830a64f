import Schemata.Column.Rendered
import Schemata.Notation.Builder

/-!
# Writing the notation

A schema as text that `Notation.parse` reads back: the project, the enumerations, the tables, and a
line for each reference.
-/

namespace Schemata.Notation

open Text

def dialectLabel : Dialect → String
  | .mysql => "MySQL"
  | .postgres => "PostgreSQL"
  | .sqlite => "SQLite"
  | .mssql => "SQL Server"
  | .laravel => "Laravel"
  | .dbml => "Generic"

def defaultProject : String := "schemaport"

def markerOf : Cardinality → String
  | .manyToOne => ">"
  | .oneToMany => "<"
  | .oneToOne => "-"

/-- The settings in brackets behind a space, if there are any. -/
def bracketed (settings : List String) : String :=
  if settings.isEmpty then "" else " [" ++ ", ".intercalate settings ++ "]"

def typeText (t : ColumnType) : String :=
  match t.enumName? with
  | some name => quoteName name
  | none =>
    let text := (Rendered.ofType .dbml t).value.sql
    if t.unsigned then "\"" ++ text ++ " unsigned\"" else text

def defaultText : Default → String
  | .expr sql => "\x60" ++ sql ++ "\x60"
  | .bool b => if b then "true" else "false"
  | .int n => intText n
  | .decimal d => d.text
  | .text s => quoteText s

def settingIf (c : Bool) (setting : String) : List String := if c then [setting] else []

def fieldSettings (f : Field) : List String :=
  settingIf f.primaryKey "pk" ++ settingIf f.autoIncrement "increment" ++
    settingIf (!f.nullable) "not null" ++ settingIf f.unique "unique" ++
    (f.default.map fun d => "default: " ++ defaultText d).toList ++
    settingIf (!f.comment.isEmpty) ("note: " ++ quoteText f.comment)

def fieldLine (f : Field) : String :=
  quoteName f.name ++ " " ++ typeText f.type ++ bracketed (fieldSettings f)

def indexText (i : Index) : String :=
  let names := ", ".intercalate (i.fields.map quoteName)
  (if 1 < i.fields.length then "(" ++ names ++ ")" else names) ++
    bracketed (settingIf i.unique "unique" ++
      ((i.name.filter (· ≠ "")).map fun n => "name: " ++ quoteText n).toList)

def enumLines (e : EnumType) : List String :=
  ["Enum " ++ quoteName e.name ++ " \x7b"] ++ e.values.map (fun v => "  " ++ quoteLabel v) ++
    ["\x7d", ""]

def tableLines (t : Table) : List String :=
  ["Table " ++ quoteName t.name ++
      bracketed (settingIf (t.color ≠ defaultColor) ("headercolor: " ++ t.color)) ++ " \x7b"] ++
    t.fields.map (fun f => "  " ++ fieldLine f) ++
    settingIf (!t.comment.isEmpty) ("  Note: " ++ quoteText t.comment) ++
    (if t.indexes.isEmpty then []
      else ["  indexes \x7b"] ++ t.indexes.map (fun i => "    " ++ indexText i) ++ ["  \x7d"]) ++
    ["\x7d", ""]

/-- The tables and fields at both ends of a reference. -/
def endpoints (s : Schema) (r : Reference) : Except Fault ((Table × Field) × (Table × Field)) :=
  match s.tableById? r.sourceTable, s.tableById? r.targetTable with
  | some source, some target =>
    match source.fieldById? r.sourceField, target.fieldById? r.targetField with
    | some sourceField, some targetField => .ok ((source, sourceField), (target, targetField))
    | _, _ => .error (.unwritableField r.label)
  | _, _ => .error (.unwritableTable r.label)

/-- An action as a setting, unless it is the one that goes without saying. -/
def actionSetting (key : String) (a : Action) : List String :=
  settingIf (a ≠ .restrict) (key ++ ": " ++ a.name)

def endpointText (e : Table × Field) : String := quoteName e.1.name ++ "." ++ quoteName e.2.name

def referenceText (s : Schema) (r : Reference) : Except Fault String := do
  let (source, target) ← endpoints s r
  return (match r.name? with
      | some name => "Ref " ++ quoteName name ++ ": "
      | none => "Ref: ") ++
    endpointText source ++ " " ++ markerOf r.cardinality ++ " " ++ endpointText target ++
    bracketed (actionSetting "update" r.onUpdate ++ actionSetting "delete" r.onDelete)

def schemaLines (s : Schema) (project : String) : Except Fault (List String) := do
  let references ← s.references.mapM (referenceText s)
  return ["Project " ++ quoteName project ++ " \x7b",
      "  database_type: '" ++ dialectLabel s.dialect ++ "'", "\x7d", ""] ++
    s.enums.flatMap enumLines ++ s.tables.flatMap tableLines ++ references

def serialize (s : Schema) (project : String := defaultProject) : Except Fault String := do
  let text := "\n".intercalate (← schemaLines s project)
  return str (dropTrailingBlanks text.toList) ++ "\n"

end Schemata.Notation
