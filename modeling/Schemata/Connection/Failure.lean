import Schemata.Fault

/-!
# Failures of reading

Why the catalog of a database could not be read. What a driver reports is told apart from what the
reading itself finds; a reader turns the former into the latter by saying what was being done.
-/

namespace Schemata

/-- The driver of a database. -/
inductive Driver
  | mysql
  | postgres
  | sqlite
  deriving DecidableEq, Repr

/-- A slot of a registry and the generation in which it was given out. -/
structure Handle where
  slot : Int
  generation : Int
  deriving DecidableEq

def Handle.text (h : Handle) : String :=
  "ConnectionHandle(slot=" ++ Text.intText h.slot ++ ", generation=" ++ Text.intText h.generation ++
    ")"

/-- Why a catalog could not be read, or a connection not be had. -/
inductive Failure
  /-- A driver reports a text. -/
  | driver (d : Driver) (text : String)
  /-- Something else went wrong on the way. -/
  | broken (text : String)
  /-- The connection was refused with a text of its own. -/
  | refused (text : String)
  | unreachable (address cause : String)
  | unsupported (d : Dialect)
  | unlistedDatabases (cause : String)
  | unlistedTables (database cause : String)
  | unread (database cause : String)
  | missingTables (database : String) (names : List String)
  | unknownHandle (h : Handle)
  | staleHandle (h : Handle) (generation : Nat)
  /-- A row lacks a column. -/
  | missingColumn
  /-- A query that always gives a row gave none. -/
  | missingRow
  /-- A value of a row is of another type than its column has. -/
  | mistyped
  /-- The rows make up no schema. -/
  | schema (f : Fault)
  deriving DecidableEq

namespace Failure

def message : Failure → String
  | driver _ text | broken text | refused text => text
  | unreachable address cause => "Could not connect to " ++ address ++ ": " ++ cause
  | unsupported d => "Introspection is not supported for " ++ d.name
  | unlistedDatabases cause => "Could not list databases: " ++ cause
  | unlistedTables database cause => "Could not list tables of " ++ database ++ ": " ++ cause
  | unread database cause => "Introspection of " ++ database ++ " failed: " ++ cause
  | missingTables database names =>
    "Table(s) not found in " ++ database ++ ": " ++ ", ".intercalate names
  | unknownHandle h => "Unknown connection handle " ++ h.text
  | staleHandle h generation =>
    "Connection handle " ++ h.text ++ " is stale (slot now at generation " ++
      Text.natText generation ++ ")"
  | missingColumn => "A row lacks a column"
  | missingRow => "A row is missing"
  | mistyped => "A value has the wrong type"
  | schema f => f.message

def driverText? : Failure → Option String
  | driver _ text => some text
  | _ => none

/-- Whether the failure is one of reading a catalog, in words of its own. -/
def isReading : Failure → Bool
  | refused _ | unreachable .. | unsupported _ | unlistedDatabases _ | unlistedTables ..
  | unread .. | missingTables .. | unknownHandle _ | staleHandle .. => true
  | _ => false

/-- Says what was being done when a driver reported a failure. -/
def whileDoing (g : String → Failure) (f : Failure) : Failure := f.driverText?.elim f g

end Failure

end Schemata
