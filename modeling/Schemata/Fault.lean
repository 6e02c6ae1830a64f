import Schemata.Column.Kind
import Schemata.Dialect
import Schemata.Json.Reader
import Schemata.Number.Flaw

/-!
# Faults

Why a request was refused or a conversion broke off. Each fault is a cause with its data;
`Fault.message` is its wording and `Fault.tables` the tables it names.
-/

namespace Schemata

/-- One step of the way to a value in a document. -/
inductive Step
  | key (name : String)
  | item (index : Nat)
  deriving DecidableEq

/-- A value of a document that does not fit: the way to it, the rule it breaks, and for a rule of
the domain its wording. -/
structure Violation where
  path : List Step
  rule : String
  message : Option String := none
  deriving DecidableEq

/-- Why something failed. -/
inductive Fault
  /-- The name of a dialect is unknown; the text is the name as it is shown. -/
  | unknownDialect (shown : String)
  | unknownSeverity (name : String)
  | notATarget (d : Dialect)
  | noTarget
  | badNumeral (flaw : NumeralFlaw)
  | badStep
  | instantOutOfRange
  | sizeNotTaken (k : Kind)
  | precisionNotTaken (k : Kind)
  | valuesNotTaken (k : Kind)
  | autoIncrementType (field : String) (k : Kind)
  | emptyIndex
  | duplicateFieldId (id table : String)
  | duplicateTableId (id table : String)
  | invalidDocument (violations : List Violation)
  | invalidValues (violations : List Violation)
  | notJson (flaw : Json.Flaw)
  | unknownKeyColumn (table column referencedTable referencedColumn : String)
  | unknownTableId (label id : String)
  | unknownFieldId (label id table : String)
  | circular (path : List String)
  | incompatibleKey (owner ownerType : String) (ownerFamily : Family)
      (target targetType : String) (targetFamily : Family)
  | outsidePlan (table : String)
  | unorderable (tables : List String)
  | unwritableTable (label : String)
  | unwritableField (label : String)
  | unclosedBlock (header : String)
  | unexpectedContent (line : String)
  | malformedField (line : String)
  | malformedInlineReference (setting : String)
  | malformedIndex (line : String)
  | indexWithoutColumn
  | malformedReference (body : String)
  | duplicateTable (name : String)
  | duplicateField (name table : String)
  | unknownIndexColumns (table : String) (columns : List String)
  | unknownTable (name : String)
  | unknownField (table field : String)
  /-- The heading of a table or an enumeration in which no name is found. -/
  | unnamedHeading
  /-- More calls are nested than there is room for. -/
  | nestedTooDeeply
  /-- A fault at a line of a text. -/
  | atLine (line : Nat) (cause : Fault)
  /-- A request that the conversion refuses before it reads the schema, or cannot finish. -/
  | refused (cause : Fault)
  deriving DecidableEq

namespace Fault

def message : Fault → String
  | unknownDialect shown => "Unsupported dialect: " ++ shown
  | unknownSeverity name => Text.display name ++ " is not a valid Severity"
  | notATarget d => "'" ++ d.name ++ "' is not a code generation target"
  | noTarget => "At least one target dialect is required"
  | badNumeral flaw => flaw.message
  | badStep => "step_seconds must be a positive number of seconds"
  | instantOutOfRange => "date value out of range"
  | sizeNotTaken k => "Type '" ++ k.name ++ "' does not take a size."
  | precisionNotTaken k => "Type '" ++ k.name ++ "' does not take precision or scale."
  | valuesNotTaken k => "Type '" ++ k.name ++ "' does not take a value list."
  | autoIncrementType field k =>
    "Field '" ++ field ++ "' is auto-increment but has non-integer type '" ++ k.name ++ "'."
  | emptyIndex => "An index must cover at least one field."
  | duplicateFieldId id table => "Duplicate field id '" ++ id ++ "' in table '" ++ table ++ "'."
  | duplicateTableId id table => "Duplicate table id '" ++ id ++ "' ('" ++ table ++ "')."
  | invalidDocument _ => "Invalid schema document"
  | invalidValues _ => "Invalid values"
  | notJson flaw => "Schema document is not valid JSON: " ++ flaw.message
  | unknownKeyColumn table column referencedTable referencedColumn =>
    "Foreign key " ++ table ++ "." ++ column ++ " -> " ++ referencedTable ++ "." ++
      referencedColumn ++ " names an unknown column."
  | unknownTableId label id =>
    "Reference '" ++ label ++ "' points to unknown table id '" ++ id ++ "'."
  | unknownFieldId label id table =>
    "Reference '" ++ label ++ "' points to unknown field id '" ++ id ++ "' in table '" ++ table ++
      "'."
  | circular path =>
    "Circular foreign key dependency: " ++ " -> ".intercalate (path ++ path.take 1)
  | incompatibleKey owner ownerType ownerFamily target targetType targetFamily =>
    "Foreign key " ++ owner ++ " (" ++ ownerType ++ ", " ++ ownerFamily.name ++
      ") cannot reference " ++ target ++ " (" ++ targetType ++ ", " ++ targetFamily.name ++ ")."
  | outsidePlan table => "Table '" ++ table ++ "' is referenced but not part of the plan."
  | unorderable tables =>
    "Cannot order foreign key attachments; cycle involving: " ++ ", ".intercalate tables
  | unwritableTable label => "Reference '" ++ label ++ "' has an unknown endpoint table."
  | unwritableField label => "Reference '" ++ label ++ "' has an unknown endpoint field."
  | unclosedBlock header => "Unclosed '" ++ header ++ "' block"
  | unexpectedContent line => "Unexpected content: '" ++ line ++ "'"
  | malformedField line => "Malformed field definition: '" ++ line ++ "'"
  | malformedInlineReference setting => "Malformed inline reference: '" ++ setting ++ "'"
  | malformedIndex line => "Malformed index definition: '" ++ line ++ "'"
  | indexWithoutColumn => "Index must name at least one column"
  | malformedReference body => "Malformed reference: '" ++ body ++ "'"
  | duplicateTable name => "Duplicate table '" ++ name ++ "'"
  | duplicateField name table => "Duplicate field '" ++ name ++ "' in table '" ++ table ++ "'"
  | unknownIndexColumns table columns =>
    "Index on '" ++ table ++ "' names unknown column(s): " ++ ", ".intercalate columns
  | unknownTable name => "Reference to unknown table '" ++ name ++ "'"
  | unknownField table field => "Reference to unknown field '" ++ table ++ "." ++ field ++ "'"
  | unnamedHeading => "list index out of range"
  | nestedTooDeeply => "maximum recursion depth exceeded"
  | atLine line cause => "Line " ++ Text.natText line ++ ": " ++ cause.message
  | refused cause => cause.message

/-- The tables that a fault of a schema names, a cycle in path order. -/
def tables : Fault → List String
  | duplicateFieldId _ table | duplicateTableId _ table => [table]
  | unknownFieldId _ _ table => [table]
  | unknownKeyColumn table _ referencedTable _ => [table, referencedTable]
  | circular path => path
  | outsidePlan table => [table]
  | unorderable tables => tables
  | _ => []

/-- Whether a fault is a malformed request rather than a flaw of a schema or its text. -/
def isRequest : Fault → Bool
  | unknownDialect _ | unknownSeverity _ | notATarget _ | noTarget | badNumeral _ | badStep => true
  | _ => false

end Fault

end Schemata
