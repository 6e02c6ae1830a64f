import Schemata.Code.Migration
import Schemata.Code.Sql.Script
import Schemata.Limits
import Schemata.Naming.Convention

/-!
# Artifacts

The files that are generated for a plan. Each task gives one file, and its stamp begins the name of
the file, so that files sorted by name stand in the order of the plan. Files that undo a plan are
made in the opposite order; a migration of Laravel holds its own reversal.
-/

namespace Schemata.Code

/-- A generated file. -/
structure Artifact where
  name : String
  content : String
  phase : Phase
  table : String
  token : String
  /-- Whether the file undoes a task. -/
  isRollback : Bool := false
  deriving DecidableEq

namespace Artifact

/-- The name of a file: the stamp of the task, what is done, the table, and an ending. -/
def fileName (task : Task) (verb ending : String) : String :=
  task.stamp.token ++ "_" ++ verb ++ "_" ++ Naming.snake task.table.name ++ "." ++ ending

def ofTask (task : Task) (verb ending content : String) (isRollback : Bool) : Artifact :=
  ⟨fileName task verb ending, content, task.phase, task.table.name, task.stamp.token, isRollback⟩

/-- What is done by a task, in the name of its file. -/
def verb : Phase → String
  | .createTable => "create"
  | .attachForeignKeys => "add_foreign_keys_to"

def rollbackVerb : Phase → String
  | .createTable => "drop"
  | .attachForeignKeys => "drop_foreign_keys_from"

end Artifact

/-- The ending of the names of files for a target. -/
def Target.ending : Target → String
  | sql _ => "sql"
  | laravel => "php"

/-- The default of a column that is written for a target. -/
def Target.default? (target : Target) (f : Field) : Option Default :=
  match target with
  | sql e => Sql.default? e f
  | laravel => Migration.default? f

/-- The whole numbers that are written for the default of a column. -/
def Target.defaultNumbers (target : Target) (f : Field) : List Int :=
  ((target.default? f).map (·.numbers)).getD []

/-- The tasks of a plan by their ticks, the first one first. -/
def ascending (p : Plan) : List Task := p.tasks.mergeSort fun a b => a.stamp.tick ≤ b.stamp.tick

/-- The tasks of a plan by their ticks, the last one first. -/
def descending (p : Plan) : List Task := p.tasks.mergeSort fun a b => b.stamp.tick ≤ a.stamp.tick

/-- The tasks that files are made for. -/
def Options.chosen (o : Options) (tasks : List Task) : List Task :=
  tasks.filter fun t => t.phase = .createTable || o.foreignKeys

/-- The columns of the tables that a plan creates, in its order. -/
def columns (p : Plan) : List (Table × Field) :=
  ((ascending p).filter (·.phase = .createTable)).flatMap fun t => t.table.fields.map (t.table, ·)

/-- The content of the file that carries out a task. -/
def content (target : Target) (o : Options) (task : Task) : Noted String :=
  match target, task.phase with
  | .sql e, .createTable => do return (← Sql.create e o task).text e
  | .sql e, .attachForeignKeys => return (Sql.attach e o task).text e
  | .laravel, .createTable => Migration.create o task
  | .laravel, .attachForeignKeys => return Migration.attach task

/-- The content of the file that undoes a task in a database. -/
def rollbackContent (e : Engine) (o : Options) (task : Task) : Noted String :=
  match task.phase with
  | .createTable => return (Sql.drop task).text e
  | .attachForeignKeys => do return (← Sql.detach e o task).text e

/-- Notes what there is to note about a column, unless a number of its type or of its default cannot be
written. -/
def writeColumn (l : Limits) (target : Target) (c : Table × Field) : Advised Unit := do
  unlessFault (l.writeFault? c.2.type.numbers)
  let _ ← Rendered.ofType target.dialect c.2.type ⟨some c.1.name, some c.2.name⟩
  unlessFault (l.writeFault? (target.defaultNumbers c.2))

/-- The files that carry out a plan, in its order. -/
def render (target : Target) (o : Options) (p : Plan) : Noted (List Artifact) :=
  (o.chosen (ascending p)).mapM fun t => do
    return .ofTask t (Artifact.verb t.phase) target.ending (← content target o t) false

/-- The files that undo a plan, last task first. -/
def renderRollback (target : Target) (o : Options) (p : Plan) : Noted (List Artifact) :=
  match target with
  | .laravel => return []
  | .sql e =>
    (o.chosen (descending p)).mapM fun t => do
      return .ofTask t (Artifact.rollbackVerb t.phase) "down.sql" (← rollbackContent e o t) true

end Schemata.Code
