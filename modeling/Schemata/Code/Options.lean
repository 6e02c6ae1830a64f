import Schemata.Dependency.Edge

/-!
# What to generate

The switches of code generation, the columns that they add to a table, and the targets that code can
be generated for: the four databases that take SQL, and the migrations of Laravel.
-/

namespace Schemata.Code

/-- The switches of code generation. -/
structure Options where
  timestamps : Bool := false
  softDeletes : Bool := false
  indexes : Bool := true
  foreignKeys : Bool := true
  comments : Bool := true
  /-- The storage engine, the character set and the collation of tables in MySQL. -/
  engine : String := "InnoDB"
  charset : String := "utf8mb4"
  collation : String := "utf8mb4_unicode_ci"
  deriving DecidableEq

/-- The columns for the times of creation and of the last change. -/
def timestampNames : List String := ["created_at", "updated_at"]

/-- The column for the time of a deletion that keeps the row. -/
def softDeleteName : String := "deleted_at"

namespace Options

/-- Whether a table is given both timestamp columns: only if it has neither. -/
def addsTimestamps (o : Options) (t : Table) : Bool :=
  o.timestamps && !timestampNames.any fun n => (t.fieldByName? n).isSome

/-- Whether a table is given a column for deletions: only if it has none. -/
def addsSoftDelete (o : Options) (t : Table) : Bool :=
  o.softDeletes && (t.fieldByName? softDeleteName).isNone

/-- The names of the columns that a table is given. -/
def addedNames (o : Options) (t : Table) : List String :=
  (if o.addsTimestamps t then timestampNames else []) ++
    if o.addsSoftDelete t then [softDeleteName] else []

/-- A column that a table is given; its id is made of the table's id and the name. -/
def addedField (t : Table) (name : String) : Field where
  id := t.id ++ ":" ++ name
  name := name
  type := .plain .timestamp

def addedFields (o : Options) (t : Table) : List Field := (o.addedNames t).map (addedField t)

end Options

/-- A database that takes SQL. -/
inductive Engine
  | mysql
  | postgres
  | sqlite
  | mssql
  deriving DecidableEq, Repr

def Engine.dialect : Engine → Dialect
  | mysql => .mysql
  | postgres => .postgres
  | sqlite => .sqlite
  | mssql => .mssql

/-- What code is generated for. -/
inductive Target
  | sql (engine : Engine)
  | laravel
  deriving DecidableEq, Repr

namespace Target

def dialect : Target → Dialect
  | sql e => e.dialect
  | laravel => .laravel

/-- The target that a dialect is, if code can be generated for it. -/
def ofDialect : Dialect → Except Fault Target
  | .mysql => .ok (sql .mysql)
  | .postgres => .ok (sql .postgres)
  | .sqlite => .ok (sql .sqlite)
  | .mssql => .ok (sql .mssql)
  | .laravel => .ok laravel
  | .dbml => .error (.notATarget .dbml)

theorem ofDialect_dialect (t : Target) : ofDialect t.dialect = .ok t := by
  cases t with
  | sql e => cases e <;> rfl
  | laravel => rfl

theorem dialect_of_ofDialect {d : Dialect} {t : Target} (h : ofDialect d = .ok t) :
    t.dialect = d := by
  cases d <;> cases h <;> rfl

end Target

/-! ## Expressions that every target has -/

/-- The keyword for an expression that means the current time, date or time of day. -/
def currentKeyword? (sql : String) : Option String :=
  match Text.lowered (String.ofList (Text.strip sql.toList)) with
  | "current_timestamp" | "now()" | "getdate()" | "sysdatetime()" | "localtimestamp" =>
    some "CURRENT_TIMESTAMP"
  | "current_date" => some "CURRENT_DATE"
  | "current_time" => some "CURRENT_TIME"
  | _ => none

/-- Whether a key needs to name neither its constraint nor the column it points to: its column has
the conventional name and points to the whole primary key. -/
def isTerse (e : Edge) : Bool := e.followsConvention && e.targetsSoleKey

end Schemata.Code
