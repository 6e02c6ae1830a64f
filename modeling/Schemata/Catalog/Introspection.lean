import Schemata.Catalog.Mysql
import Schemata.Catalog.Postgres
import Schemata.Catalog.Sqlite
import Schemata.Connection.Registry
import Schemata.Connection.Settings

/-!
# Introspection

Reading the catalog of a live database. Every reading opens a connection of its own, holds it in a
session of a registry while its queries run, and gives it back at the end, also when a query fails.
What a driver reports on the way is reworded by what was being read.
-/

namespace Schemata.Catalog

/-- How to read the catalog of one kind of database. -/
structure Reader where
  version : Reading String
  databases : Reading (List String)
  tables (database : String) : Reading (List String)
  columns (database table : String) : Reading (List ColumnRow)
  foreignKeys (database : String) (tables : List String) : Reading (List ForeignKeyRow)

/-- The reader for a dialect, if its catalog can be read. -/
def Reader.of : Dialect → Except Failure Reader
  | .mysql => .ok ⟨Mysql.version, Mysql.databases, Mysql.tables, Mysql.columns, Mysql.foreignKeys⟩
  | .postgres => .ok
    { version := Postgres.version, databases := Postgres.databases
      tables := fun _ => Postgres.tables, columns := fun _ => Postgres.columns
      foreignKeys := fun _ => Postgres.foreignKeys }
  | .sqlite => .ok
    { version := Sqlite.version, databases := Sqlite.databases
      tables := fun _ => Sqlite.tables, columns := fun _ => Sqlite.columns
      foreignKeys := fun _ => Sqlite.foreignKeys }
  | d => .error (.unsupported d)

/-- The columns of some tables, and the foreign keys between tables. -/
structure Rows where
  tables : List (String × List ColumnRow)
  foreignKeys : List ForeignKeyRow

/-! ## Sessions -/

/-- The state that readings change: the connections, the wire of the one in use, the databases that
connections were opened for, and what was noted about closing them. -/
structure Desk (C : Type) where
  registry : Registry C
  wire : Wire
  requested : List (Option String) := []
  warnings : List String := []

/-- What a reading is given: how to reach the database, what comes of connecting, and the time. -/
structure Request (C : Type) where
  settings : ConnectionSettings
  connected : Except Failure C
  now : Rat

variable {C α : Type}

/-- What is noted about closing a connection with a label. A failure goes no further. -/
def closeQuietly (label : String) : Except Failure Unit → List String
  | .ok () => []
  | .error f => ["Error closing connection " ++ label ++ ": " ++ f.message]

/-- Runs queries over a connection of their own. -/
def session (r : Request C) (database : Option String) (body : Reading α) (d : Desk C) :
    Except Failure α × Desk C :=
  let d := { d with requested := d.requested ++ [database] }
  match r.connected with
  | .error f => (.error f, d)
  | .ok c =>
    let label := r.settings.label database
    let (handle, registry) := d.registry.enter c label r.now
    let (result, wire) := body.run.run d.wire
    (result, { d with
      registry := registry.leave handle, wire
      warnings := d.warnings ++ closeQuietly label wire.closing })

/-- Runs queries of the reader for the dialect of a request, and rewords what a driver reports. -/
def reading (r : Request C) (database : Option String) (reword : String → Failure)
    (body : Reader → Reading α) (d : Desk C) : Except Failure α × Desk C :=
  match Reader.of r.settings.dialect with
  | .error f => (.error f, d)
  | .ok reader =>
    let (result, d) := session r database (body reader) d
    (result.mapError (.whileDoing reword), d)

/-! ## Readings -/

/-- Tries a connection: whether it works, and a remark. A failure to read is part of the result. -/
def testConnection (r : Request C) (d : Desk C) : Except Failure (Bool × String) × Desk C :=
  match Reader.of r.settings.dialect with
  | .error f => (.error f, d)
  | .ok reader =>
    let (result, d) := session r none reader.version d
    let outcome := match result with
      | .ok version => .ok (true, "Connected successfully. Version: " ++ version)
      | .error f =>
        if f.isReading || f.driverText?.isSome then .ok (false, f.message) else .error f
    (outcome, d)

/-- The databases of a server without those of the system. -/
def listDatabases (r : Request C) (d : Desk C) : Except Failure (List String) × Desk C :=
  reading r none .unlistedDatabases (·.databases) d

/-- The database that is read: the one asked for, or that of the settings, or the main one. -/
def Request.database (r : Request C) (asked : Option String) : String :=
  ((given? asked).or (given? r.settings.database)).getD "main"

def listTables (r : Request C) (asked : Option String) (d : Desk C) :
    Except Failure (List String) × Desk C :=
  let database := r.database asked
  reading r (some database) (.unlistedTables database) (·.tables database) d

/-- Puts a value under a key; a key that is there keeps its place. -/
def putRows (name : String) (rows : List ColumnRow) :
    List (String × List ColumnRow) → List (String × List ColumnRow)
  | [] => [(name, rows)]
  | (n, rs) :: ts => if n = name then (n, rows) :: ts else (n, rs) :: putRows name rows ts

/-- The columns and foreign keys of chosen tables, or of all tables. -/
def readRows (database : String) (chosen : Option (List String)) (reader : Reader) :
    Reading Rows := do
  let available ← reader.tables database
  let selected := chosen.getD available
  let missing := selected.filter (· ∉ available)
  if !missing.isEmpty then throw (.missingTables database missing)
  let columns ← selected.mapM fun name => do return (name, ← reader.columns database name)
  let foreignKeys ← reader.foreignKeys database selected
  return ⟨columns.foldl (fun ts c => putRows c.1 c.2 ts) [], foreignKeys⟩

/-- Reads the columns and foreign keys of chosen tables, or of all tables, of a database. -/
def introspect (r : Request C) (asked : Option String) (chosen : Option (List String))
    (d : Desk C) : Except Failure Rows × Desk C :=
  let database := r.database asked
  reading r (some database) (.unread database) (readRows database chosen) d

/-- Reads a database as a schema, with the findings made on the way. -/
def introspectSchema (r : Request C) (asked : Option String) (chosen : Option (List String))
    (d : Desk C) : Noted (Except Failure Schema) × Desk C :=
  let (result, d) := introspect r asked chosen d
  match result with
  | .error f => (⟨[], .error f⟩, d)
  | .ok rows =>
    let schema := toSchema r.settings.dialect rows.tables rows.foreignKeys
    (⟨schema.findings, schema.outcome.mapError .schema⟩, d)

end Schemata.Catalog
