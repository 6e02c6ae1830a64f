import Schemata.Code.Sql.Statement
import Schemata.Plan.Order
import Schemata.Text.Lines

/-!
# Scripts

The statements that carry out one task of a plan in a database, and those that undo it. A database
that cannot change the keys of a table has the table made anew under another name, its rows copied,
and the new table put in the place of the old one.
-/

namespace Schemata.Code.Sql

/-- The columns of a table with their types, those that the switches add at the end. An added column
whose id belongs to a field takes the type of that field. -/
def typedColumns (e : Engine) (o : Options) (t : Table) : Noted (List (Field × Rendered)) := do
  let own ← t.fields.mapM fun f => do
    return (f, ← Rendered.ofType e.dialect f.type ⟨some t.name, some f.name⟩)
  let added := (o.addedFields t).map fun f =>
    (f, ((own.find? (·.1.id = f.id)).map (·.2)).getD (Rendered.ofType e.dialect f.type).value)
  return own ++ added

/-- Whether a column is made to count up by an attribute. -/
def countsUp (e : Engine) (f : Field) : Bool :=
  match e with
  | .mysql | .mssql => f.autoIncrement || f.type.kind.isSerial
  | .postgres => f.autoIncrement && !f.type.kind.isSerial
  | .sqlite => false

/-- Whether the primary key of a table is a single column that counts up. -/
def keyCountsUp (t : Table) : Bool :=
  match t.primaryKey with
  | [f] => f.autoIncrement || f.type.kind.isSerial
  | _ => false

/-- Whether the primary key is declared at its column. -/
def isInlineKey (e : Engine) (t : Table) : Bool := e = .sqlite && keyCountsUp t

def nullAttributes (e : Engine) (f : Field) : List Attribute :=
  if f.primaryKey || !f.nullable then [.notNull] else if e = .mysql then [.null] else []

/-- The default of a column, unless it counts up. -/
def default? (e : Engine) (f : Field) : Option Default :=
  if (if e = .mysql then countsUp e f else f.autoIncrement) then none else f.default

def defaultAttributes (e : Engine) (f : Field) : List Attribute :=
  ((default? e f).map .default).toList

/-- What stands behind the type of a column of a table, in the order of the database. -/
def attributes (e : Engine) (o : Options) (t : Table) (f : Field) : List Attribute :=
  let increment := if countsUp e f then [.increment] else []
  let unique := if f.unique && !f.primaryKey then [Attribute.unique] else []
  match e with
  | .mysql =>
    nullAttributes e f ++ defaultAttributes e f ++ increment ++ unique ++
      if o.comments && f.comment ≠ "" then [.comment f.comment] else []
  | .sqlite =>
    (if isInlineKey e t && f.primaryKey then [.incrementKey] else []) ++ nullAttributes e f ++
      defaultAttributes e f ++ unique
  | e => increment ++ nullAttributes e f ++ defaultAttributes e f ++ unique

/-- A type without the words that make it count up; they are attributes. -/
def withoutIncrement (r : Rendered) : Rendered :=
  { r with modifiers := r.modifiers.filter (· ∉ ["AUTO_INCREMENT", "IDENTITY(1,1)"]) }

def columnDef (e : Engine) (o : Options) (t : Table) (c : Field × Rendered) : ColumnDef :=
  ⟨c.1.name, withoutIncrement c.2, attributes e o t c.1⟩

def primaryKeyClause (e : Engine) (t : Table) : List Clause :=
  if t.primaryKey = [] ∨ isInlineKey e t then [] else [.primaryKey (t.primaryKey.map (·.name))]

/-- The indexes of a table with their names, unless they are switched off. -/
def namedIndexes (o : Options) (t : Table) : List (String × Index) :=
  if o.indexes then
    t.indexes.zipIdx.map fun (i, ordinal) => (i.resolvedName t.name (ordinal : Nat), i)
  else []

/-- The constraint of an edge. MySQL has to be told the column that is pointed to. -/
def keyDef (e : Engine) (edge : Edge) : KeyDef where
  name := edge.constraintName
  column := edge.ownerField.name
  target := edge.target.name
  targetColumn := if isTerse edge ∧ e ≠ .mysql then none else some edge.targetField.name
  onUpdate := edge.reference.onUpdate
  onDelete := edge.reference.onDelete

/-- What stands between the brackets of a table with some keys. -/
def clauses (e : Engine) (o : Options) (t : Table) (columns : List (Field × Rendered))
    (edges : List Edge) : List Clause :=
  columns.map (fun c => .column (columnDef e o t c)) ++ primaryKeyClause e t ++
    (if e = .mysql then (namedIndexes o t).map fun (n, i) => .index i.unique n i.fields else []) ++
    edges.map (fun k => .foreignKey (keyDef e k))

/-- The indexes that are statements of their own. -/
def indexStatements (e : Engine) (o : Options) (t : Table) : Script :=
  if e = .mysql then []
  else (namedIndexes o t).map fun (n, i) => .createIndex i.unique n t.name i.fields

/-- The comments of a table and its columns as remarks, where the database has no place for them. -/
def remarks (e : Engine) (o : Options) (t : Table) : Script :=
  if o.comments ∧ (e = .sqlite ∨ e = .mssql) then
    (Text.linesOf t.comment).map .remark ++
      (t.fields.filter (·.comment ≠ "")).map fun f =>
        .remark (f.name ++ ": " ++ " ".intercalate (Text.linesOf f.comment))
  else []

/-- The comments of a table and its columns as statements. -/
def descriptions (e : Engine) (o : Options) (t : Table) : Script :=
  if o.comments ∧ e = .postgres then
    (if t.comment ≠ "" then [.describeTable t.name t.comment] else []) ++
      (t.fields.filter (·.comment ≠ "")).map fun f => .describeColumn t.name f.name f.comment
  else []

/-- The storage options of a table, where the database has them. -/
def storage (e : Engine) (o : Options) (t : Table) : Option Storage :=
  if e = .mysql then
    some {
      engine := o.engine, charset := o.charset, collation := o.collation
      comment := if o.comments ∧ t.comment ≠ "" then some t.comment else none }
  else none

def header (verb : String) (task : Task) : Script :=
  [.remark (verb ++ " " ++ task.table.name), .remark ("Sequence: " ++ task.stamp.token)]

def rebuildName (t : Table) : String := t.name ++ "__rebuild"

/-- Makes a table anew with other keys and keeps its rows. -/
def rebuild (e : Engine) (o : Options) (t : Table) (columns : List (Field × Rendered))
    (edges : List Edge) : Script :=
  [.checkKeys false, .begin, .dropTable true (rebuildName t),
    .createTable false (rebuildName t) (clauses e o t columns edges) none,
    .copyRows (columns.map (·.1.name)) t.name (rebuildName t),
    .dropTable false t.name, .renameTable (rebuildName t) t.name] ++
    indexStatements e o t ++ [.commit, .checkKeys true]

def create (e : Engine) (o : Options) (task : Task) : Noted Script := do
  let t := task.table
  let columns ← typedColumns e o t
  return header "Create table" task ++ remarks e o t ++
    [.createTable true t.name (clauses e o t columns []) (storage e o t)] ++
    indexStatements e o t ++ descriptions e o t

/-- Attaches the keys of a task. What there is to note about the types was noted when the table was
created. -/
def attach (e : Engine) (o : Options) (task : Task) : Script :=
  header "Add foreign keys to" task ++
    if e = .sqlite then rebuild e o task.table (typedColumns e o task.table).value task.edges
    else task.edges.map fun k => .addForeignKey k.owner.name (keyDef e k)

def drop (task : Task) : Script := header "Drop table" task ++ [.dropTable true task.table.name]

def detach (e : Engine) (o : Options) (task : Task) : Noted Script := do
  let top := header "Drop foreign keys from" task
  if e = .sqlite then
    return top ++ rebuild e o task.table (← typedColumns e o task.table) []
  else return top ++ task.edges.map fun k => .dropForeignKey task.table.name k.constraintName

end Schemata.Code.Sql
