import Schemata.Connection.Address
import Schemata.Document.Standard
import Schemata.Settings

/-!
# Connection settings

What is needed to reach a database whose catalog can be read: a file for SQLite, a host and a user
for MySQL and PostgreSQL.
-/

namespace Schemata

/-- How to reach a database. -/
structure ConnectionSettings where
  dialect : Dialect := .mysql
  host : Option String := none
  port : Option Int := none
  user : Option String := none
  password : String := ""
  database : Option String := none
  charset : String := "utf8mb4"
  /-- The file of a database that is a file. -/
  path : Option String := none
  deriving DecidableEq

/-- A text that is there and not empty. -/
def given? (s : Option String) : Option String := s.filter (· ≠ "")

namespace ConnectionSettings

/-- What is missing to reach a database, if anything is. -/
def flaw? (s : ConnectionSettings) : Option String :=
  match s.dialect with
  | .sqlite =>
    if (given? s.path).isSome then none else some "SQLite connections require a database file path"
  | .mysql | .postgres =>
    if (given? s.host).isSome ∧ (given? s.user).isSome then none
    else some (s.dialect.name ++ " connections require host and user")
  | d => some ("Introspection is not supported for " ++ d.name)

/-- Reads settings; whether they suffice is looked at once each member fits. -/
def check (lib : Validation) : Check ConnectionSettings :=
  lib.refined
    (lib.record
      (lib.both (lib.optional "dialect" lib.dialect .mysql) <|
        lib.both (lib.optional "host" (lib.nullable lib.string) none) <|
        lib.both (lib.optional "port" (lib.nullable (lib.bounded (some 1) (some 65535))) none) <|
        lib.both (lib.optional "user" (lib.nullable lib.string) none) <|
        lib.both (lib.optional "password" lib.string "") <|
        lib.both (lib.optional "database" (lib.nullable lib.string) none) <|
        lib.both (lib.optional "charset" lib.string "utf8mb4") <|
        lib.optional "path" (lib.nullable lib.string) none)
      fun (dialect, host, port, user, password, database, charset, path) =>
        { dialect, host, port, user, password, database, charset, path })
    flaw?

def ofJson (j : Json) (lib : Validation := .standard) : Except Fault ConnectionSettings :=
  construct (check lib) j

/-- The port, or else the usual one of the dialect. -/
def resolvedPort (s : ConnectionSettings) (r : ReadingSettings := {}) : Option Int :=
  s.port.or <|
    match s.dialect with
    | .mysql => some r.mysqlPort
    | .postgres => some r.postgresPort
    | _ => none

/-- The database to select: the one that is asked for, or else the one of the settings. -/
def selected (s : ConnectionSettings) (database : Option String) : Option String :=
  (given? database).or s.database

def label (s : ConnectionSettings) (database : Option String) : String :=
  s.dialect.name ++ ":" ++ (((given? database).or (given? s.database)).or s.path).getD ""

def address (s : ConnectionSettings) (database : Option String) (r : ReadingSettings := {}) :
    String :=
  let shown (x : Option String) : String := x.getD (Json.shown .null)
  let a : Address := {
    host := shown s.host, port := shown ((s.resolvedPort r).map Text.intText)
    user := s.user.getD "", database := s.database.getD "", path := s.path.getD "" }
  a.text s.dialect.name (s.selected database)

end ConnectionSettings

end Schemata
