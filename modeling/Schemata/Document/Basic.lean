import Schemata.Document.Standard
import Schemata.Schema.Basic

/-!
# Editor documents

The JSON document in which a diagram is saved: tables with fields and indexes, relationship lines
and enumerations. `Document.check` reads one and names everything that does not fit;
`Document.toJson` writes one with all its members. A member may have two names, the one that a document
uses and the one that the program uses.
-/

namespace Schemata

/-- A field in a document. -/
structure FieldDoc where
  id : String
  name : String
  kind : Kind
  size : Option Int := none
  precision : Option Int := none
  scale : Option Int := none
  values : List String := []
  enumName : Option String := none
  unsigned : Bool := false
  primary : Bool := false
  unique : Bool := false
  notNull : Bool := false
  increment : Bool := false
  default : Option Scalar := none
  isExpression : Bool := false
  comment : String := ""
  deriving DecidableEq

/-- An index in a document. -/
structure IndexDoc where
  fields : List String
  unique : Bool := false
  name : Option String := none
  deriving DecidableEq

/-- A table in a document. -/
structure TableDoc where
  id : String
  name : String
  fields : List FieldDoc := []
  indexes : List IndexDoc := []
  comment : String := ""
  color : String := defaultColor
  x : Binary64 := .ofInt 0
  y : Binary64 := .ofInt 0
  deriving DecidableEq

/-- A document. Its references and enumerations are those of a schema. -/
structure Document where
  title : String := ""
  database : Dialect := .dbml
  tables : List TableDoc := []
  references : List Reference := []
  enums : List EnumType := []
  deriving DecidableEq

/-! ## Reading and writing -/

namespace FieldDoc

def check (lib : Validation) : Check FieldDoc :=
  lib.record
    (lib.both (lib.required "id" lib.string) <|
      lib.both (lib.required "name" lib.string) <|
      lib.both (lib.required "type" (lib.named Kind.ofName?)) <|
      lib.both (lib.optional "size" (lib.nullable (lib.bounded (some 1) none)) none) <|
      lib.both (lib.optional "precision" (lib.nullable (lib.bounded (some 1) none)) none) <|
      lib.both (lib.optional "scale" (lib.nullable (lib.bounded (some 0) none)) none) <|
      lib.both (lib.optional "values" (lib.list lib.string) []) <|
      lib.both (lib.optional "enumName" (lib.nullable lib.string) none "enum_name") <|
      lib.both (lib.optional "unsigned" lib.bool false) <|
      lib.both (lib.optional "primary" lib.bool false) <|
      lib.both (lib.optional "unique" lib.bool false) <|
      lib.both (lib.optional "notNull" lib.bool false "not_null") <|
      lib.both (lib.optional "increment" lib.bool false) <|
      lib.both (lib.optional "default" (lib.nullable lib.scalar) none) <|
      lib.both (lib.optional "defaultIsExpression" lib.bool false "default_is_expression") <|
      lib.optional "comment" lib.string "")
    fun (id, name, kind, size, precision, scale, values, enumName, unsigned, primary, unique,
        notNull, increment, default, isExpression, comment) =>
      { id, name, kind, size, precision, scale, values, enumName, unsigned, primary, unique,
        notNull, increment, default, isExpression, comment }

/-- A field with all its members, under the names of a document or under those of the program. -/
def toJson (f : FieldDoc) (byAlias : Bool := true) : Json :=
  let number (n : Option Int) : Json := n.elim .null .int
  let key (inDocument name : String) : String := if byAlias then inDocument else name
  .obj [("id", .str f.id), ("name", .str f.name), ("type", .str f.kind.name),
    ("size", number f.size), ("precision", number f.precision), ("scale", number f.scale),
    ("values", Json.strings f.values), (key "enumName" "enum_name", Json.ofOption f.enumName),
    ("unsigned", .bool f.unsigned), ("primary", .bool f.primary), ("unique", .bool f.unique),
    (key "notNull" "not_null", .bool f.notNull), ("increment", .bool f.increment),
    ("default", f.default.elim .null Scalar.toJson),
    (key "defaultIsExpression" "default_is_expression", .bool f.isExpression),
    ("comment", .str f.comment)]

end FieldDoc

namespace IndexDoc

def check (lib : Validation) : Check IndexDoc :=
  lib.record
    (lib.both (lib.required "fields" (lib.nonempty lib.string)) <|
      lib.both (lib.optional "unique" lib.bool false) <|
      lib.optional "name" (lib.nullable lib.string) none)
    fun (fields, unique, name) => { fields, unique, name }

def toJson (i : IndexDoc) : Json :=
  .obj [("fields", Json.strings i.fields), ("unique", .bool i.unique),
    ("name", Json.ofOption i.name)]

end IndexDoc

namespace TableDoc

def check (lib : Validation) : Check TableDoc :=
  lib.record
    (lib.both (lib.required "id" lib.string) <|
      lib.both (lib.required "name" lib.string) <|
      lib.both (lib.optional "fields" (lib.list (FieldDoc.check lib)) []) <|
      lib.both (lib.optional "indices" (lib.list (IndexDoc.check lib)) []) <|
      lib.both (lib.optional "comment" lib.string "") <|
      lib.both (lib.optional "color" lib.string defaultColor) <|
      lib.both (lib.optional "x" lib.float (.ofInt 0)) <|
      lib.optional "y" lib.float (.ofInt 0))
    fun (id, name, fields, indexes, comment, color, x, y) =>
      { id, name, fields, indexes, comment, color, x, y }

def toJson (t : TableDoc) : Json :=
  .obj [("id", .str t.id), ("name", .str t.name),
    ("fields", .arr (t.fields.map (FieldDoc.toJson ·))),
    ("indices", .arr (t.indexes.map IndexDoc.toJson)), ("comment", .str t.comment),
    ("color", .str t.color), ("x", .float t.x), ("y", .float t.y)]

end TableDoc

namespace Document

variable (lib : Validation)

/-- An action in any spelling; what names none means `restrict`. -/
def checkAction : Check Action :=
  lib.parsed fun j =>
    match j with
    | .str s => .ok (.ofText s)
    | _ => .ok .restrict

def checkReference : Check Reference :=
  lib.record
    (lib.both (lib.required "id" lib.string) <|
      lib.both (lib.optional "name" (lib.nullable lib.string) none) <|
      lib.both (lib.required "startTableId" lib.string "start_table_id") <|
      lib.both (lib.required "startFieldId" lib.string "start_field_id") <|
      lib.both (lib.required "endTableId" lib.string "end_table_id") <|
      lib.both (lib.required "endFieldId" lib.string "end_field_id") <|
      lib.both (lib.optional "cardinality" (lib.named Cardinality.ofName?) .manyToOne) <|
      lib.both (lib.optional "updateConstraint" (checkAction lib) .restrict "update_constraint") <|
      lib.optional "deleteConstraint" (checkAction lib) .restrict "delete_constraint")
    fun (id, name, sourceTable, sourceField, targetTable, targetField, cardinality, onUpdate,
        onDelete) =>
      { id, name, sourceTable, sourceField, targetTable, targetField, cardinality, onUpdate,
        onDelete }

def checkEnum : Check EnumType :=
  lib.record
    (lib.both (lib.required "name" lib.string) <| lib.optional "values" (lib.list lib.string) [])
    fun (name, values) => ⟨name, values⟩

/-- Reads a document and names everything that does not fit. -/
def check : Check Document :=
  lib.record
    (lib.both (lib.optional "title" lib.string "") <|
      lib.both (lib.optional "database" lib.dialect .dbml) <|
      lib.both (lib.optional "tables" (lib.list (TableDoc.check lib)) []) <|
      lib.both (lib.optional "references" (lib.list (checkReference lib)) []) <|
      lib.optional "enums" (lib.list (checkEnum lib)) [])
    fun (title, database, tables, references, enums) =>
      { title, database, tables, references, enums }

def ofJson (j : Json) (lib : Validation := .standard) : Except Fault Document :=
  (check lib [] j).toExcept .invalidDocument

/-- A reference with all its members, under the names of a document or under those of the program. -/
def referenceJson (r : Reference) (byAlias : Bool := true) : Json :=
  let key (inDocument name : String) : String := if byAlias then inDocument else name
  .obj [("id", .str r.id), ("name", Json.ofOption r.name),
    (key "startTableId" "start_table_id", .str r.sourceTable),
    (key "startFieldId" "start_field_id", .str r.sourceField),
    (key "endTableId" "end_table_id", .str r.targetTable),
    (key "endFieldId" "end_field_id", .str r.targetField),
    ("cardinality", .str r.cardinality.name),
    (key "updateConstraint" "update_constraint", .str r.onUpdate.name),
    (key "deleteConstraint" "delete_constraint", .str r.onDelete.name)]

def enumJson (e : EnumType) : Json :=
  .obj [("name", .str e.name), ("values", Json.strings e.values)]

/-- A document with all its members, in their order. -/
def toJson (d : Document) : Json :=
  .obj [("title", .str d.title), ("database", .str d.database.name),
    ("tables", .arr (d.tables.map TableDoc.toJson)),
    ("references", .arr (d.references.map (referenceJson ·))),
    ("enums", .arr (d.enums.map enumJson))]

end Document

end Schemata
