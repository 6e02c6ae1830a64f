import Schemata.Dependency.Edge
import Schemata.Dependency.Kahn
import Schemata.Plan.Clock

/-!
# Plans

The order in which a schema is carried out: first every table is created, in the order of the
schema; then the foreign keys of each table that holds any are attached. A table's keys come after
those of every table they point to, and of the tables that may come next the first in the schema
does. The graph of the tables that hold keys is put in order by `Kahn.order`. Each task of a plan
has a stamp, and the ticks count the tasks.
-/

namespace Schemata

/-- What a task does. -/
inductive Phase
  | createTable
  | attachForeignKeys
  deriving DecidableEq, Repr

def Phase.name : Phase → String
  | createTable => "create_table"
  | attachForeignKeys => "attach_foreign_keys"

/-- One step of a plan: a table to create, or a table whose keys are attached. -/
structure Task where
  phase : Phase
  table : Table
  edges : List Edge
  stamp : Stamp
  deriving DecidableEq

/-- Tasks in the order in which they are carried out. -/
structure Plan where
  tasks : List Task
  deriving DecidableEq

namespace Plan

def creates (p : Plan) : List Task := p.tasks.filter (·.phase = .createTable)

def attachments (p : Plan) : List Task := p.tasks.filter (·.phase = .attachForeignKeys)

/-- The task that creates the table with some id. -/
def createFor? (p : Plan) (id : String) : Option Task := p.creates.find? (·.table.id = id)

/-- Edges by the ids of the tables that hold their keys. -/
abbrev Groups := List (String × List Edge)

namespace Groups

def add : Groups → Edge → Groups
  | [], e => [(e.owner.id, [e])]
  | (id, es) :: rest, e =>
    if id = e.owner.id then (id, es ++ [e]) :: rest else (id, es) :: add rest e

/-- The edges of each owner, the owners in the order of their first edges. -/
def ofEdges (edges : List Edge) : Groups := edges.foldl add []

def owners (g : Groups) : List String := g.map (·.1)

def held (g : Groups) (owner : String) : List Edge := (g.lookup owner).getD []

/-- The other owners that the keys of an owner point to. -/
def needs (g : Groups) (owner : String) : List String :=
  g.owners.filter fun t => t ≠ owner ∧ t ∈ (g.held owner).map (·.target.id)

/-- The owners with a key that points to another owner. -/
def dependents (g : Groups) (target : String) : List String :=
  g.owners.filter (target ∈ g.needs ·)

end Groups

/-- The last table with some id, and its place. -/
def find? (tables : List Table) (id : String) : Option (Table × Nat) :=
  tables.zipIdx.reverse.find? (·.1.id = id)

def position (tables : List Table) (id : String) : Nat := (find? tables id).elim 0 (·.2)

def tablesOf (tables : List Table) (ids : List String) : List Table :=
  ids.filterMap fun id => (find? tables id).map (·.1)

/-- The owners whose keys can be attached, in order. What the dependents of an owner are arranged by
is left open. -/
def attachable (arrange : String → List String → List String) (tables : List Table) (g : Groups) :
    List String :=
  Kahn.order (position tables) g.owners g.needs fun t => arrange t (g.dependents t)

/-- The owners that an order leaves out, in the order of the tables. -/
def stuck (tables : List Table) (g : Groups) (ordered : List String) : List String :=
  (Kahn.Queue.ofNodes (position tables) (g.owners.filter (· ∉ ordered))).map (·.2)

/-- The ids of all owners, each after those that its keys point to. -/
def attachOrder (arrange : String → List String → List String) (tables : List Table) (g : Groups) :
    Except Fault (List String) :=
  let ordered := attachable arrange tables g
  if ordered.length = g.length then .ok ordered
  else .error (.unorderable ((tablesOf tables (stuck tables g ordered)).map (·.name)))

/-- Refuses an edge with an end outside some tables. -/
def checkEnds (tables : List Table) (edges : List Edge) : Except Fault Unit :=
  edges.forM fun e => [e.owner, e.target].forM fun t =>
    if tables.any (·.id = t.id) then .ok () else .error (.outsidePlan t.name)

/-- The plan for tables and the edges between them, the dependents of each table arranged in some
way. -/
def orderBy (arrange : String → List String → List String) (tables : List Table)
    (edges : List Edge) (base : Instant) (step : Int) : Except Fault Plan := do
  let clock ← Clock.start base step
  let created ← clock.stampFrom 0 tables
  checkEnds tables edges
  let groups := Groups.ofEdges edges
  let ids ← attachOrder arrange tables groups
  let attached ← clock.stampFrom tables.length (tablesOf tables ids)
  return ⟨created.map (fun (t, s) => ⟨.createTable, t, [], s⟩) ++
    attached.map (fun (t, s) => ⟨.attachForeignKeys, t, groups.held t.id, s⟩)⟩

/-- The plan for tables and the edges between them. -/
def order : List Table → List Edge → Instant → Int → Except Fault Plan := orderBy fun _ l => l

end Plan

end Schemata
