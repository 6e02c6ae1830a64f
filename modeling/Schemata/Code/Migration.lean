import Schemata.Code.Options
import Schemata.Column.Rendered
import Schemata.Plan.Order

/-!
# Migrations

The migration files of Laravel: classes in PHP whose two methods describe a change of a table and
its reversal as calls on a table builder. A `Line` is one such call with the links chained to it.
-/

namespace Schemata.Code.Migration

open Text

def literal (s : String) : String := String.ofList (enclose '\'' '\'' (backslashed s.toList))

def literals (names : List String) : String := "[" ++ ", ".intercalate (names.map literal) ++ "]"

def defaultText : Default → String
  | .bool b => if b then "true" else "false"
  | .int n => intText n
  | .decimal d => d.text
  | .text s => literal s
  | .expr sql => "DB::raw(" ++ literal sql ++ ")"

/-- What is chained to the call that makes a column. -/
inductive Link
  | modifier (text : String)
  | primary
  | nullable
  | useCurrent
  | default (value : Default)
  | unique
  | autoIncrement
  | comment (text : String)
  deriving DecidableEq

def Link.text : Link → String
  | modifier s => s
  | primary => "primary()"
  | nullable => "nullable()"
  | useCurrent => "useCurrent()"
  | default v => "default(" ++ defaultText v ++ ")"
  | unique => "unique()"
  | autoIncrement => "autoIncrement()"
  | comment s => "comment(" ++ literal s ++ ")"

def Link.isRaw : Link → Bool
  | default (.expr _) => true
  | _ => false

/-- One statement about a table. -/
inductive Line
  /-- The numbered key column with its conventional name. -/
  | id (links : List Link)
  | column (method name : String) (parameters : List String) (links : List Link)
  | primary (columns : List String)
  | index (unique : Bool) (columns : List String) (name : Option String)
  | timestamps
  | softDeletes
  | comment (text : String)
  /-- A key; its constraint has the derived name unless it is given another. -/
  | foreign (column : String) (name : Option String) (targetColumn target : String)
      (onUpdate onDelete : Action)
  | dropForeignOn (column : String)
  | dropForeign (name : String)
  deriving DecidableEq

namespace Line

def chain (links : List String) : String := String.join (links.map ("->" ++ ·))

def actionLink (method : String) (a : Action) : List String :=
  if a = .restrict then [] else [method ++ "(" ++ literal a.name ++ ")"]

/-- The call without the variable of the table in front of it. -/
def callText : Line → String
  | id links => "id()" ++ chain (links.map Link.text)
  | column method name parameters links =>
    method ++ "(" ++ ", ".intercalate (literal name :: parameters) ++ ")" ++
      chain (links.map Link.text)
  | primary names => "primary(" ++ literals names ++ ")"
  | index unique names name =>
    (if unique then "unique(" else "index(") ++ literals names ++
      name.elim "" (", " ++ literal ·) ++ ")"
  | timestamps => "timestamps()"
  | softDeletes => "softDeletes()"
  | comment s => "comment(" ++ literal s ++ ")"
  | foreign key name targetKey target onUpdate onDelete =>
    "foreign(" ++ literal key ++ name.elim "" (", " ++ literal ·) ++ ")" ++
      String.join ((["references(" ++ literal targetKey ++ ")", "on(" ++ literal target ++ ")"] ++
        actionLink "onUpdate" onUpdate ++ actionLink "onDelete" onDelete).map
          ("\n                  ->" ++ ·))
  | dropForeignOn key => "dropForeign(" ++ literals [key] ++ ")"
  | dropForeign name => "dropForeign(" ++ literal name ++ ")"

def text (l : Line) : String := "$table->" ++ l.callText ++ ";"

def links : Line → List Link
  | id links | column _ _ _ links => links
  | _ => []

end Line

/-! ## The lines of a task -/

/-- The link for the default of a column. -/
def defaultLink : Default → Link
  | .expr sql =>
    if currentKeyword? sql = some "CURRENT_TIMESTAMP" then .useCurrent else .default (.expr sql)
  | v => .default v

/-- The default of a column, unless it counts up. -/
def default? (f : Field) : Option Default := if f.autoIncrement then none else f.default

/-- The links of a column of a table whose primary key is one column or is not. -/
def columnLinks (o : Options) (f : Field) (r : Rendered) (soleKey : Bool) : List Link :=
  let serial := f.type.kind.isSerial
  r.modifiers.map .modifier ++
    (if f.primaryKey && soleKey && !(serial || f.autoIncrement) then [.primary] else []) ++
    (if f.nullable && !f.primaryKey then [.nullable] else []) ++
    ((default? f).map defaultLink).toList ++
    (if f.unique && !f.primaryKey then [.unique] else []) ++
    (if f.autoIncrement && !serial then [.autoIncrement] else []) ++
    if o.comments && f.comment ≠ "" then [.comment f.comment] else []

def columnLine (o : Options) (f : Field) (r : Rendered) (soleKey : Bool) : Line :=
  let links := columnLinks o f r soleKey
  if f.type.kind.isSerial && f.name = "id" && r.word = "bigIncrements" then .id links
  else .column r.word f.name r.parameters links

def createLines (o : Options) (t : Table) : Noted (List Line) := do
  let key := t.primaryKey.map (·.name)
  let columns ← t.fields.mapM fun f => do
    let r ← Rendered.ofType .laravel f.type ⟨some t.name, some f.name⟩
    return columnLine o f r (key.length = 1)
  return columns ++ (if 1 < key.length then [.primary key] else []) ++
    (if o.indexes then
      t.indexes.map fun i => .index i.unique i.fields (i.name.filter (· ≠ ""))
    else []) ++
    (if o.addsTimestamps t then [.timestamps] else []) ++
    (if o.addsSoftDelete t then [.softDeletes] else []) ++
    if o.comments && t.comment ≠ "" then [.comment t.comment] else []

def attachLine (e : Edge) : Line :=
  .foreign e.ownerField.name (if isTerse e then none else some e.constraintName)
    e.targetField.name e.target.name e.reference.onUpdate e.reference.onDelete

def detachLine (e : Edge) : Line :=
  if isTerse e then .dropForeignOn e.ownerField.name else .dropForeign e.constraintName

/-! ## Files -/

/-- Lines with a line feed between them, each indented. -/
def blockText (lines : List Line) : String :=
  "\n".intercalate (lines.map fun l => "            " ++ l.text)

/-- A call on the schema builder with the lines for a table. -/
def builderCall (method table : String) (lines : List Line) : String :=
  "        Schema::" ++ method ++ "(" ++ literal table ++ ", function (Blueprint $table) \x7b\n" ++
    blockText lines ++ "\n        \x7d);\n"

/-- A migration file with the bodies of its two methods. -/
def fileText (imports up down : String) : String :=
  "<?php\n\nuse Illuminate\\Database\\Migrations\\Migration;\n" ++
    "use Illuminate\\Database\\Schema\\Blueprint;\n" ++ imports ++
    "use Illuminate\\Support\\Facades\\Schema;\n\n" ++
    "return new class extends Migration\n\x7b\n" ++
    "    /**\n     * Run the migrations.\n     */\n" ++
    "    public function up(): void\n    \x7b\n" ++ up ++ "    \x7d\n\n" ++
    "    /**\n     * Reverse the migrations.\n     */\n" ++
    "    public function down(): void\n    \x7b\n" ++ down ++ "    \x7d\n\x7d;\n"

def create (o : Options) (task : Task) : Noted String := do
  let lines ← createLines o task.table
  let imports := if lines.any (·.links.any Link.isRaw) then
    "use Illuminate\\Support\\Facades\\DB;\n" else ""
  return fileText imports (builderCall "create" task.table.name lines)
    ("        Schema::dropIfExists(" ++ literal task.table.name ++ ");\n")

def attach (task : Task) : String :=
  fileText "" (builderCall "table" task.table.name (task.edges.map attachLine))
    (builderCall "table" task.table.name (task.edges.map detachLine))

end Schemata.Code.Migration
