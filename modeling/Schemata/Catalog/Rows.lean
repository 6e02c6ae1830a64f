import Schemata.Column.Literal
import Schemata.Column.RawType
import Schemata.Schema.Basic
import Schemata.Schema.Grid
import Schemata.Schema.Ids

/-!
# Catalog rows

What a database reports about its columns and foreign keys, and the schema those rows make up. A
column whose type lists its labels gets an enumeration of its own. Foreign keys that leave the
selected tables are dropped with a warning, and those over several columns are split.
-/

namespace Schemata.Catalog

open Text

/-- One column as a database reports it. -/
structure ColumnRow where
  name : String
  rawType : String
  nullable : Bool := true
  default : Option RawDefault := none
  primaryKey : Bool := false
  unique : Bool := false
  autoIncrement : Bool := false
  comment : String := ""
  /-- Whether the default is an expression; none leaves it to the text. -/
  isExpression : Option Bool := none
  deriving DecidableEq

/-- One column of a foreign key as a database reports it. -/
structure ForeignKeyRow where
  table : String
  column : String
  referencedTable : String
  referencedColumn : String
  updateRule : Option String := none
  deleteRule : Option String := none
  constraint : Option String := none
  deriving DecidableEq

/-- Whether a default takes the next number of a sequence. -/
def isSequenceDefault : Option RawDefault → Bool
  | some (.text s) => "nextval(".toList.isPrefixOf (lower (strip s.toList))
  | _ => false

def defaultOf (row : ColumnRow) (t : ColumnType) : Option Default :=
  match row.isExpression, row.default with
  | some true, some (.text s) => some (.expr (String.ofList (strip s.toList)))
  | flag, raw => Default.ofRaw t raw (flag = some false)

/-- What keeps the default of a row from being read. -/
def defaultFault? (l : Limits) (row : ColumnRow) (t : ColumnType) : Option Fault :=
  match row.isExpression, row.default with
  | some true, some (.text _) => none
  | flag, raw => Default.rawFault? l t raw (flag = some false)

@[simp] theorem defaultFault?_none (row : ColumnRow) (t : ColumnType) :
    defaultFault? {} row t = none := by
  unfold defaultFault?
  split
  · rfl
  · exact Default.rawFault?_none t _ _

/-- A type that lists its labels as the type of an enumeration named for its column. -/
def promote (table column : String) (t : ColumnType) : ColumnType × Option EnumType :=
  if t.kind = .enum ∧ t.values ≠ [] ∧ t.enumName? = none then
    let name := table ++ "_" ++ column
    (.ofEnum name t.values, some ⟨name, t.values⟩)
  else (t, none)

/-- A field, and the enumeration it brings along. -/
def buildField (d : Dialect) (table id : String) (row : ColumnRow) (l : Limits := {}) :
    Advised (Field × Option EnumType) := do
  let counts := row.autoIncrement || isSequenceDefault row.default
  let t ← ColumnType.ofRaw d row.rawType ⟨row.primaryKey, counts, some table, some row.name⟩ l
  let (t, e) := promote table row.name t
  let counts := t.kind.isInteger && (counts || t.kind.isSerial)
  unlessFault (if counts then none else defaultFault? l row t)
  let field ← Field.build id row.name t row.primaryKey row.unique
    (row.nullable && !row.primaryKey) counts (if counts then none else defaultOf row t) row.comment
  return (field, e)

/-- The fields of a table from a position on, and the enumerations they bring along. -/
def buildFields (d : Dialect) (table id : String) :
    (position : Nat) → List ColumnRow → (l : Limits := {}) → Advised (List Field × List EnumType)
  | _, [], _ => pure ([], [])
  | position, row :: rest, l => do
    let (field, e) ← buildField d table (Ids.field id position) row l
    let (fields, es) ← buildFields d table id (position + 1) rest l
    return (field :: fields, e.toList ++ es)

/-- The tables from a position on, and the enumerations of their columns. -/
def buildTables (d : Dialect) :
    (position : Nat) → List (String × List ColumnRow) → (l : Limits := {}) →
      Advised (List Table × List EnumType)
  | _, [], _ => pure ([], [])
  | position, (name, rows) :: rest, l => do
    let id := Ids.table position
    let (fields, es) ← buildFields d name id 0 rows l
    let (x, y) := Grid.place position
    let table ← Table.build id name fields [] "" defaultColor x y
    let (tables, es') ← buildTables d (position + 1) rest l
    return (table :: tables, es ++ es')

/-- Whether a row is one of several of its constraint. -/
def isComposite (rows : List ForeignKeyRow) (row : ForeignKeyRow) : Bool :=
  match row.constraint with
  | none => false
  | some name =>
    name ≠ "" && 1 < rows.countP fun r => r.table == row.table && r.constraint == some name

/-- A row as it is named in messages. -/
def ForeignKeyRow.describe (row : ForeignKeyRow) : String :=
  "Foreign key " ++ row.table ++ "." ++ row.column ++ " -> " ++ row.referencedTable ++ "." ++
    row.referencedColumn

/-- The warning about a row that names a table that is not selected. -/
def outsideSelection (row : ForeignKeyRow) (table : String) : Finding :=
  .warning "introspection.fk_outside_selection"
    (row.describe ++ " was dropped because '" ++ table ++ "' is not selected.")
    (some row.table) (some row.column)

/-- The reference with an id that a row between two tables makes. -/
def buildReference (all : List ForeignKeyRow) (id : String) (row : ForeignKeyRow)
    (source target : Table) : Advised Reference := do
  match source.fieldByName? row.column, target.fieldByName? row.referencedColumn with
  | some sourceField, some targetField =>
    let composite := isComposite all row
    Advised.noteIf (composite = true) (.warning "introspection.composite_fk"
      ("Composite foreign key '" ++ row.constraint.getD "" ++ "' on " ++ row.table ++
        " is split into single-column references.") (some row.table) (some row.column))
    let soleKey := source.primaryKey.map (·.id) = [sourceField.id]
    return {
      id
      sourceTable := source.id
      sourceField := sourceField.id
      targetTable := target.id
      targetField := targetField.id
      cardinality := if sourceField.unique ∨ soleKey then .oneToOne else .manyToOne
      onUpdate := .ofText? row.updateRule
      onDelete := .ofText? row.deleteRule
      name := if composite then none else row.constraint }
  | _, _ =>
    Advised.fail
      (.unknownKeyColumn row.table row.column row.referencedTable row.referencedColumn)

def buildReferences (tables : List Table) (all : List ForeignKeyRow) :
    (position : Nat) → List ForeignKeyRow → Advised (List Reference)
  | _, [] => pure []
  | position, row :: rest => do
    match tables.find? (·.name = row.table), tables.find? (·.name = row.referencedTable) with
    | some source, some target =>
      let r ← buildReference all (Ids.reference position) row source target
      return r :: (← buildReferences tables all (position + 1) rest)
    | none, _ =>
      Advised.note (outsideSelection row row.table)
      buildReferences tables all position rest
    | _, none =>
      Advised.note (outsideSelection row row.referencedTable)
      buildReferences tables all position rest

/-- The schema that the rows of a database make up. -/
def toSchema (d : Dialect) (tables : List (String × List ColumnRow))
    (foreignKeys : List ForeignKeyRow) (l : Limits := {}) : Advised Schema := do
  let (tables, enums) ← buildTables d 0 tables l
  let references ← buildReferences tables foreignKeys 0 foreignKeys
  Advised.ofExcept (Schema.build tables references enums d)

end Schemata.Catalog
