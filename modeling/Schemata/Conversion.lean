import Schemata.Catalog.Rows
import Schemata.Code.Artifact
import Schemata.Dependency.Resolve
import Schemata.Document.Schema
import Schemata.Notation.Builder
import Schemata.Notation.Writer
import Schemata.Settings

/-!
# Conversions

Whole runs from a schema in one of its forms to generated files, to a text, or to a checked schema.
A schema is resolved and put into an order once, and files are made for each target in turn. The
result of a run has all findings made on the way, whether it succeeded or not, and never a part of
the files.
-/

namespace Schemata

namespace Fault

/-- Whether a run reports a fault as its result. A request that makes no sense, a heading without a
name, a moment outside the calendar and too many nested calls break the run off instead. -/
def isReported (f : Fault) : Bool :=
  !f.isRequest && f ∉ [.instantOutOfRange, .unnamedHeading, .nestedTooDeeply]

/-- A malformed request as something that a run refuses. -/
def asRefused (f : Fault) : Fault := if f.isRequest then .refused f else f

end Fault

/-- The result of a run, unless a fault breaks it off. -/
def Advised.settle {α : Type} (x : Advised α) : Except Fault (Advised α) :=
  match x.outcome with
  | .ok _ => .ok x
  | .error f => if f.isReported then .ok x else .error f

def Dialect.named (spelling : String) : Except Fault Dialect :=
  (ofAlias? spelling).elim (.error (.unknownDialect (Text.display spelling))) .ok

namespace Conversion

/-- How files are generated. -/
structure Options where
  generator : Code.Options := ({} : GenerationSettings).options
  base : Instant
  step : Int := ({} : GenerationSettings).step
  withRollback : Bool := false

abbrev Files := List (Code.Target × List Code.Artifact)

/-- The targets that spellings name, each once, in the order of their first mention. -/
def targets (spellings : List String) : Except Fault (List Code.Target) := do
  let all ← spellings.mapM fun s => do Code.Target.ofDialect (← Dialect.named s)
  if all = [] then throw .noTarget
  return all.eraseDups

def filesFor (plan : Plan) (o : Options) (target : Code.Target) : Noted (List Code.Artifact) := do
  let forward ← Code.render target o.generator plan
  if o.withRollback then return forward ++ (← Code.renderRollback target o.generator plan)
  else return forward

/-- The files for a plan. They are written table by table, so what there is to note about the columns
in front of a number that cannot be written is noted. -/
def filesWithin (l : Limits) (plan : Plan) (o : Options) (target : Code.Target) :
    Advised (List Code.Artifact) :=
  let columns := (Code.columns plan).mapM (Code.writeColumn l target)
  match columns.outcome with
  | .error f => ⟨columns.findings, .error f⟩
  | .ok _ => filesFor plan o target

/-- The files for a schema. The targets are looked at before the schema is. -/
def generate (s : Schema) (spellings : Option (List String)) (o : Options) (l : Limits := {}) :
    Advised Files := do
  let spellings := spellings.getD ({} : GenerationSettings).targets
  let targets ← Advised.ofExcept ((targets spellings).mapError .refused)
  let plan ← Plan.order s.tables (← s.resolve l) o.base o.step
  targets.mapM fun t => do return (t, ← filesWithin l plan o t)

def ofSchema (s : Schema) (spellings : Option (List String)) (o : Options) (l : Limits := {}) :
    Except Fault (Advised Files) :=
  (generate s spellings o l).settle

def ofNotation (text : String) (spellings : Option (List String)) (o : Options)
    (l : Limits := {}) : Except Fault (Advised Files) :=
  Advised.settle do generate (← Notation.parse text l) spellings o l

/-- Generates files for the rows of a catalog. A malformed request is part of the result. -/
def ofCatalog (dialect : String) (tables : List (String × List Catalog.ColumnRow))
    (keys : List Catalog.ForeignKeyRow) (spellings : Option (List String)) (o : Options)
    (l : Limits := {}) : Except Fault (Advised Files) :=
  Advised.settle <| Advised.mapFault Fault.asRefused do
    generate (← Catalog.toSchema (← Dialect.named dialect) tables keys l) spellings o l

/-- Writes a schema in the notation, if its references fit. -/
def exportNotation (s : Schema) (project : String) : Advised String := do
  let _ ← s.resolve
  Notation.serialize s project

/-- Keeps a schema whose references fit. -/
def checked (s : Schema) (l : Limits := {}) : Advised Schema := do
  let _ ← s.resolve l
  return s

def importText (text : String) (l : Limits := {}) (lib : Validation := .standard) :
    Advised Schema := do
  checked (← Document.read text l lib) l

def importDocument (document : Json) (l : Limits := {}) (lib : Validation := .standard) :
    Advised Schema := do
  checked (← Document.schemaOfJson document l lib) l

end Conversion

end Schemata
