import Schemata.Column.Literal
import Schemata.Document.Basic

/-!
# Documents of schemas

A schema as a document and back. Everything is kept: ids, names, types, defaults and coordinates. A
literal text of a text column is read back as it is; any other text is read as a default. The records
of a document are made, written and read by a library, within the limits of the machine.
-/

namespace Schemata

namespace Scalar

def text : Scalar → String
  | bool b => if b then "True" else "False"
  | int n => Text.intText n
  | str s => s

/-- A default in a document, and whether it is an expression. -/
def ofDefault : Option Default → Option Scalar × Bool
  | none => (none, false)
  | some (.expr sql) => (some (str sql), true)
  | some (.bool b) => (some (bool b), false)
  | some (.int n) => (some (int n), false)
  | some (.decimal d) => (some (str d.text), false)
  | some (.text s) => (some (str s), false)

def toDefault (t : ColumnType) (isExpression : Bool) : Option Scalar → Option Default
  | none => none
  | some s =>
    if isExpression then some (.expr s.text)
    else
      match s with
      | str text =>
        if t.family = .string then some (.text text) else Default.ofRaw t (some (.text text))
      | bool b => Default.ofRaw t (some (.bool b))
      | int n => Default.ofRaw t (some (.int n))

/-- What keeps a default in a document from being read for a column of a type. -/
def fault? (l : Limits) (t : ColumnType) (isExpression : Bool) : Option Scalar → Option Fault
  | none => none
  | some s =>
    match s with
    | str text =>
      if isExpression ∨ t.family = .string then none
      else Default.rawFault? l t (some (.text text))
    | bool _ => none
    | int n => if isExpression then l.writeFault? [n] else Default.rawFault? l t (some (.int n))

end Scalar

/-! ## From a schema -/

/-- The values that the record of a field is made from. -/
def FieldDoc.ofField (f : Field) : FieldDoc where
  id := f.id
  name := f.name
  kind := f.type.kind
  size := f.type.size
  precision := f.type.precision
  scale := f.type.scale
  values := f.type.values
  enumName := f.type.enumName
  unsigned := f.type.unsigned
  primary := f.primaryKey
  unique := f.unique
  notNull := !f.nullable
  increment := f.autoIncrement
  default := (Scalar.ofDefault f.default).1
  isExpression := (Scalar.ofDefault f.default).2
  comment := f.comment

def IndexDoc.ofIndex (i : Index) : IndexDoc := ⟨i.fields, i.unique, i.name⟩

namespace Document

def ofField (f : Field) (lib : Validation := .standard) : Except Fault FieldDoc :=
  construct (FieldDoc.check lib) ((FieldDoc.ofField f).toJson false)

/-- The record of a table. Parts that are records already are taken as they are. -/
def ofTable (t : Table) (lib : Validation := .standard) : Except Fault TableDoc := do
  let fields ← t.fields.mapM (ofField · lib)
  let indexes ← t.indexes.mapM fun i => construct (IndexDoc.check lib) (IndexDoc.ofIndex i).toJson
  let doc : TableDoc :=
    { id := t.id, name := t.name, comment := t.comment, color := t.color, x := t.x, y := t.y }
  return { ← construct (TableDoc.check lib) doc.toJson with fields, indexes }

def ofSchema (s : Schema) (title : String := "") (lib : Validation := .standard) :
    Except Fault Document := do
  let tables ← s.tables.mapM (ofTable · lib)
  let references ← s.references.mapM fun r => construct (checkReference lib) (referenceJson r false)
  let enums ← s.enums.mapM fun e => construct (checkEnum lib) (enumJson e)
  let doc : Document := { title, database := s.dialect }
  return { ← construct (check lib) doc.toJson with tables, references, enums }

/-! ## To a schema -/

def toField (f : FieldDoc) (l : Limits := {}) : Except Fault Field := do
  let t ← ColumnType.build f.kind f.size f.precision f.scale f.values f.enumName f.unsigned
  unlessFault (Scalar.fault? l t f.isExpression f.default)
  Field.build f.id f.name t f.primary f.unique (!(f.notNull || f.primary)) f.increment
    (Scalar.toDefault t f.isExpression f.default) f.comment

def toTable (t : TableDoc) (l : Limits := {}) : Except Fault Table := do
  let fields ← t.fields.mapM (toField · l)
  let indexes ← t.indexes.mapM fun i => Index.build i.fields i.unique i.name
  Table.build t.id t.name fields indexes t.comment t.color t.x t.y

def toSchema (d : Document) (l : Limits := {}) : Except Fault Schema := do
  let tables ← d.tables.mapM (toTable · l)
  Schema.build tables d.references d.enums d.database

/-! ## As text -/

def schemaOfJson (j : Json) (l : Limits := {}) (lib : Validation := .standard) :
    Except Fault Schema := do
  (← ofJson j lib).toSchema l

def write (s : Schema) (title : String := "") (style : Json.Style := .indented 2)
    (lib : Validation := .standard) : Except Fault String := do
  lib.dump style (← ofSchema s title lib).toJson

/-- Reads a text. A number that is too long for the machine is no flaw of the document. -/
def read (text : String) (l : Limits := {}) (lib : Validation := .standard) : Except Fault Schema :=
  match Json.ofText? text l.digits with
  | .error (.number flaw) => .error (.badNumeral flaw)
  | .error flaw => .error (.notJson flaw)
  | .ok j => schemaOfJson j l lib

end Document

end Schemata
