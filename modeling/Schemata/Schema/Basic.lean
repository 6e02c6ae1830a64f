import Schemata.Column.Basic

/-!
# Schemas

Tables with their fields and indexes, references between fields, and enumerations. What must hold of
them by themselves is part of the types: only whole-number fields count up by themselves, an index
names a field, the ids of the fields of a table differ, and so do the ids of the tables.
Identifiers are opaque texts; the endpoints of a reference may name anything.
-/

namespace Schemata

/-- What happens to a referencing row when the referenced row goes or changes. -/
inductive Action
  | cascade
  | restrict
  | setNull
  | noAction
  | setDefault
  deriving DecidableEq, Repr

namespace Action

def all : List Action := [cascade, restrict, setNull, noAction, setDefault]

def name : Action → String
  | cascade => "cascade"
  | restrict => "restrict"
  | setNull => "set null"
  | noAction => "no action"
  | setDefault => "set default"

/-- A spelling without blanks and low lines, in lower case. -/
def key (s : String) : String :=
  String.ofList (Text.lower (s.toList.filter fun c => !(Text.isBlank c || c == '_')))

/-- The action that a spelling names; any other text means `restrict`. -/
def ofText (s : String) : Action :=
  (all.find? fun a => key a.name == key s).getD restrict

def ofText? (s : Option String) : Action := s.elim restrict ofText

theorem ofText_name (a : Action) : ofText a.name = a := by cases a <;> rfl

end Action

/-- How many rows on each side a reference joins, from its source to its target. -/
inductive Cardinality
  | oneToOne
  | oneToMany
  | manyToOne
  deriving DecidableEq, Repr

namespace Cardinality

def all : List Cardinality := [oneToOne, oneToMany, manyToOne]

def name : Cardinality → String
  | oneToOne => "one_to_one"
  | oneToMany => "one_to_many"
  | manyToOne => "many_to_one"

def ofName? (s : String) : Option Cardinality := all.find? (·.name = s)

end Cardinality

/-- A column of a table. -/
structure Field where
  id : String
  name : String
  type : ColumnType
  primaryKey : Bool := false
  unique : Bool := false
  nullable : Bool := true
  autoIncrement : Bool := false
  default : Option Default := none
  comment : String := ""
  isInteger_of_autoIncrement : autoIncrement = true → type.kind.isInteger = true := by simp
  deriving DecidableEq

/-- A field from its parts, if it may count up by itself. -/
def Field.build (id name : String) (type : ColumnType)
    (primaryKey unique nullable autoIncrement : Bool) (default : Option Default)
    (comment : String) : Except Fault Field :=
  if h : autoIncrement = true → type.kind.isInteger = true then
    .ok ⟨id, name, type, primaryKey, unique, nullable, autoIncrement, default, comment, h⟩
  else .error (.autoIncrementType name type.kind)

/-- An index over fields of a table, in order, by their names. -/
structure Index where
  fields : List String
  unique : Bool := false
  name : Option String := none
  fields_ne_nil : fields ≠ []
  deriving DecidableEq

namespace Index

def build (fields : List String) (unique : Bool) (name : Option String) : Except Fault Index :=
  if h : fields ≠ [] then .ok ⟨fields, unique, name, h⟩ else .error .emptyIndex

/-- The name of an index without a name of its own: its table, its fields and its place. -/
def derivedName (table : String) (fields : List String) (ordinal : Int) : String :=
  table ++ "_" ++ "_".intercalate fields ++ "_index_" ++ Text.intText ordinal

/-- The name given to the index, or else the derived one. -/
def resolvedName (i : Index) (table : String) (ordinal : Int) : String :=
  (i.name.filter (· ≠ "")).getD (derivedName table i.fields ordinal)

end Index

/-- The first text that stands twice in a list. -/
def firstRepeat? (xs : List String) : Option String := go [] xs
where
  go (seen : List String) : List String → Option String
    | [] => none
    | x :: r => if x ∈ seen then some x else go (x :: seen) r

def defaultColor : String := "#175e7a"

/-- A table, and where it is drawn. -/
structure Table where
  id : String
  name : String
  fields : List Field := []
  indexes : List Index := []
  comment : String := ""
  color : String := defaultColor
  x : Binary64 := .ofInt 0
  y : Binary64 := .ofInt 0
  nodup_fields : (fields.map Field.id).Nodup := by simp
  deriving DecidableEq

namespace Table

/-- A table from its parts, if its fields have different ids. -/
def build (id name : String) (fields : List Field) (indexes : List Index)
    (comment color : String) (x y : Binary64) : Except Fault Table :=
  if h : (fields.map Field.id).Nodup then
    .ok ⟨id, name, fields, indexes, comment, color, x, y, h⟩
  else .error (.duplicateFieldId ((firstRepeat? (fields.map Field.id)).getD "") name)

def fieldById? (t : Table) (id : String) : Option Field := t.fields.find? (·.id = id)

def fieldByName? (t : Table) (name : String) : Option Field := t.fields.find? (·.name = name)

def primaryKey (t : Table) : List Field := t.fields.filter (·.primaryKey)

def hasLeadingIndex (t : Table) (field : String) : Bool :=
  t.indexes.any fun i => i.fields.head? == some field

end Table

/-- A reference between two fields, as it was drawn. The side that holds the key is the target when
one source row has many target rows, and the source otherwise. -/
structure Reference where
  id : String
  sourceTable : String
  sourceField : String
  targetTable : String
  targetField : String
  cardinality : Cardinality := .manyToOne
  onUpdate : Action := .restrict
  onDelete : Action := .restrict
  name : Option String := none
  deriving DecidableEq

namespace Reference

/-- The name of a reference, unless it is empty. -/
def name? (r : Reference) : Option String := r.name.filter (· ≠ "")

/-- The name of a reference in messages: its own, or else its id. -/
def label (r : Reference) : String := r.name?.getD r.id

def ownedByTarget (r : Reference) : Bool := r.cardinality = .oneToMany

end Reference

/-- A named list of labels. -/
structure EnumType where
  name : String
  values : List String := []
  deriving DecidableEq

/-- Everything that one conversion is about. -/
structure Schema where
  tables : List Table := []
  references : List Reference := []
  enums : List EnumType := []
  dialect : Dialect := .dbml
  nodup_tables : (tables.map Table.id).Nodup := by simp
  deriving DecidableEq

namespace Schema

/-- The table whose id is the first to stand twice. -/
def duplicate? (tables : List Table) : Option Table :=
  (firstRepeat? (tables.map Table.id)).bind fun id =>
    ((tables.filter (·.id = id)).drop 1).head?

/-- A schema from its parts, if its tables have different ids. -/
def build (tables : List Table) (references : List Reference) (enums : List EnumType)
    (dialect : Dialect) : Except Fault Schema :=
  if h : (tables.map Table.id).Nodup then .ok ⟨tables, references, enums, dialect, h⟩
  else
    .error (.duplicateTableId ((duplicate? tables).elim "" Table.id)
      ((duplicate? tables).elim "" Table.name))

def tableById? (s : Schema) (id : String) : Option Table := s.tables.find? (·.id = id)

def tableByName? (s : Schema) (name : String) : Option Table := s.tables.find? (·.name = name)

def enumByName? (s : Schema) (name : String) : Option EnumType := s.enums.find? (·.name = name)

end Schema

/-! ## Equality of values -/

/-- Equality of fields, their defaults compared by value. -/
def Field.same (a b : Field) : Bool :=
  a.id == b.id && a.name == b.name && a.type == b.type && a.primaryKey == b.primaryKey &&
    a.unique == b.unique && a.nullable == b.nullable && a.autoIncrement == b.autoIncrement &&
    (match a.default, b.default with
      | some x, some y => x.same y
      | none, none => true
      | _, _ => false) &&
    a.comment == b.comment

/-- Two lists of one length whose items agree one by one. -/
def listSame {α : Type} (same : α → α → Bool) : List α → List α → Bool
  | [], [] => true
  | x :: xs, y :: ys => same x y && listSame same xs ys
  | _, _ => false

/-- Equality of tables, coordinates and defaults compared by value. -/
def Table.same (a b : Table) : Bool :=
  a.id == b.id && a.name == b.name && listSame Field.same a.fields b.fields &&
    a.indexes == b.indexes && a.comment == b.comment && a.color == b.color && a.x.same b.x &&
    a.y.same b.y

/-- Equality of schemas, coordinates and defaults compared by value. -/
def Schema.same (a b : Schema) : Bool :=
  listSame Table.same a.tables b.tables && a.references == b.references && a.enums == b.enums &&
    a.dialect == b.dialect

end Schemata
