import Schemata.Dependency.Edge
import Schemata.Dependency.Graph
import Schemata.Finding
import Schemata.Limits

/-!
# Resolving references

`Schema.resolve` finds both ends of every reference. It fails if an end does not exist, if the types
at the two ends belong to different families, or if tables depend on each other in a circle; a table
may point to itself. Everything else it has to say about a key is a finding.
-/

namespace Schemata

namespace Reference

def endpoint (s : Schema) (r : Reference) (tableId fieldId : String) :
    Except Fault (Table × Field) :=
  match s.tableById? tableId with
  | none => .error (.unknownTableId r.label tableId)
  | some t =>
    match t.fieldById? fieldId with
    | none => .error (.unknownFieldId r.label fieldId t.name)
    | some f => .ok (t, f)

def edge (s : Schema) (r : Reference) : Except Fault Edge := do
  let source ← r.endpoint s r.sourceTable r.sourceField
  let target ← r.endpoint s r.targetTable r.targetField
  return if r.ownedByTarget then ⟨r, target.1, target.2, source.1, source.2⟩
    else ⟨r, source.1, source.2, target.1, target.2⟩

end Reference

namespace Edge

/-- The column of the key, in messages. -/
def left (e : Edge) : String := describe e.owner e.ownerField

/-- The column that the key points to, in messages. -/
def right (e : Edge) : String := describe e.target e.targetField

/-- What has to agree for two columns to store the same values. -/
def shape (t : ColumnType) : Kind × Option Int × Option Int × Option Int × Bool :=
  (t.kind.storage, t.size, t.precision, t.scale, t.unsigned)

/-- What is noted of two columns whose types have different shapes. -/
def typeMismatch (e : Edge) : Finding :=
  .warning "reference.type_mismatch"
    ("Foreign key " ++ e.left ++ " is " ++ e.ownerField.type.describe ++ " but references " ++
      e.right ++ " of type " ++ e.targetField.type.describe ++ ".")
    (some e.owner.name) (some e.ownerField.name)

/-- The types at both ends: of one family, or else it fails; different shapes are noted. -/
def checkTypes (e : Edge) : Advised Unit :=
  let owner := e.ownerField.type
  let target := e.targetField.type
  if owner.family ≠ target.family then
    Advised.fail
      (.incompatibleKey e.left owner.describe owner.family e.right target.describe target.family)
  else
    Advised.noteIf (shape owner ≠ shape target) e.typeMismatch

/-- The numbers that are shown of two columns whose types do not agree. -/
def shownNumbers (e : Edge) : List Int :=
  let owner := e.ownerField.type
  let target := e.targetField.type
  if owner.family ≠ target.family ∨ shape owner ≠ shape target then owner.numbers ++ target.numbers
  else []

/-- Whether each value stands at most once in a column. -/
def isKey (t : Table) (f : Field) : Bool :=
  f.primaryKey || f.unique || t.indexes.any fun i => i.unique && i.fields == [f.name]

/-- Notes a key that points to a column that is no key. -/
def checkTarget (e : Edge) : Noted Unit :=
  Noted.noteIf (isKey e.target e.targetField = false) (.warning "reference.target_not_key"
    (e.right ++ " is referenced by " ++ e.left ++ " but is neither a primary key nor unique.")
    (some e.target.name) (some e.targetField.name))

/-- Notes a column whose name is not the conventional one. -/
def checkName (e : Edge) : Noted Unit :=
  Noted.noteIf (e.followsConvention = false) (.suggestion "naming.convention"
    ("Rename " ++ e.left ++ " to '" ++ e.conventionalName ++
      "' to follow the <table>_<column> convention.")
    (some e.owner.name) (some e.ownerField.name))

/-- Notes a key that no index supports. -/
def checkIndex (e : Edge) : Noted Unit :=
  let f := e.ownerField
  Noted.noteIf ((f.primaryKey || f.unique || e.owner.hasLeadingIndex f.name) = false)
    (.suggestion "index.missing"
      ("Add an index on " ++ e.left ++ " to support the foreign key to " ++ e.target.name ++ ".")
      (some e.owner.name) (some f.name))

def check (e : Edge) : Advised Unit := do
  e.checkTypes
  e.checkTarget
  e.checkName
  e.checkIndex

/-- Adds a successor to a node, unless it is there. -/
def link (owner target : String) : Graph.Adjacency → Graph.Adjacency
  | [] => [(owner, [target])]
  | (n, ts) :: rest =>
    if n = owner then (n, if target ∈ ts then ts else ts ++ [target]) :: rest
    else (n, ts) :: link owner target rest

/-- The tables and those they depend on, without the edges from a table to itself. -/
def graph (edges : List Edge) : Graph.Adjacency :=
  (edges.filter (!·.isSelf)).foldl (fun a e => link e.owner.id e.target.id a) []

end Edge

namespace Schema

def resolveReference (s : Schema) (r : Reference) (l : Limits := {}) : Advised Edge := do
  let e ← r.edge s
  unlessFault (l.writeFault? e.shownNumbers)
  e.check
  return e

/-- Without limits a reference is checked as soon as its ends are known. -/
theorem resolveReference_eq (s : Schema) (r : Reference) :
    s.resolveReference r = (do
      let e ← r.edge s
      e.check
      return e) := rfl

def tableNames (s : Schema) (ids : List String) : List String :=
  ids.filterMap fun id => (s.tableById? id).map (·.name)

/-- The edges of the references of a schema, in their order. -/
def resolve (s : Schema) (l : Limits := {}) : Advised (List Edge) := do
  let edges ← s.references.mapM (s.resolveReference · l)
  match Graph.cycle? (s.tables.map (·.id)) (Edge.graph edges) with
  | some c => Advised.fail (.circular (s.tableNames c))
  | none => return edges

end Schema

end Schemata
