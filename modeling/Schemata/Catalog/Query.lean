import Schemata.Column.Literal
import Schemata.Connection.Failure
import Schemata.Json.Display

/-!
# Catalog queries

A reading of a catalog asks queries over one connection, each with a cursor of its own that is
closed once the answer is there or has failed. Rows give their values by the names of their columns.
-/

namespace Schemata.Catalog

/-- A value that is bound to a query. -/
inductive Parameter
  | text (s : String)
  | texts (names : List String)
  deriving DecidableEq

/-- A query and the values bound to it. -/
structure Query where
  sql : String
  parameters : List Parameter := []
  deriving DecidableEq

/-- A row: its columns in order, with their values. -/
abbrev Row := List (String × Json)

/-- What a query is answered with. -/
inductive Answer
  | rows (rows : List Row)
  | failure (f : Failure)
  /-- The connection gives out no cursor to ask with. -/
  | noCursor (f : Failure)

/-- A connection in use: the answers still to come, the queries asked so far, and the cursors. Once
there are no more answers, queries give no rows. -/
structure Wire where
  answers : List Answer
  asked : List Query := []
  /-- How many cursors were given out; they are numbered as they come. -/
  cursors : Nat := 0
  /-- The cursors that were closed, in order. -/
  closed : List Nat := []
  /-- What comes of closing the connection. -/
  closing : Except Failure Unit := .ok ()

def Wire.cursorsClosed (w : Wire) : Nat := w.closed.length

/-- A computation that asks queries over a connection. -/
abbrev Reading := ExceptT Failure (StateM Wire)

namespace Reading

def openCursor : Reading Nat := do
  let wire ← get
  match wire.answers with
  | .noCursor f :: rest =>
    set { wire with answers := rest }
    throw f
  | _ =>
    set { wire with cursors := wire.cursors + 1 }
    return wire.cursors

def closeCursor (cursor : Nat) : Reading Unit :=
  modify fun wire => { wire with closed := wire.closed ++ [cursor] }

/-- Runs a query with a cursor that is open and fetches the rows. -/
def execute (q : Query) : Reading (List Row) := do
  let wire ← get
  set { wire with answers := wire.answers.drop 1, asked := wire.asked ++ [q] }
  match wire.answers.head? with
  | none => return []
  | some (.rows rows) => return rows
  | some (.failure f) | some (.noCursor f) => throw f

/-- Asks one query with a cursor of its own, which is closed also when the query fails. -/
def ask (q : Query) : Reading (List Row) := do
  let cursor ← openCursor
  try execute q finally closeCursor cursor

def firstRow (rows : List Row) : Except Failure Row := rows.head?.elim (.error .missingRow) .ok

end Reading

/-! ## Values of rows -/

namespace Row

def value (r : Row) (column : String) : Except Failure Json :=
  (Json.member? column r).elim (.error .missingColumn) .ok

def firstValue (r : Row) : Except Failure Json :=
  r.head?.elim (.error (.broken "generator raised StopIteration")) fun c => value r c.1

end Row

def asText : Json → Except Failure String
  | .str s => .ok s
  | _ => .error .mistyped

def asText? : Json → Except Failure (Option String)
  | .null => .ok none
  | j => some <$> asText j

/-- A text; null and what counts as not given mean the empty one. -/
def asGivenText (j : Json) : Except Failure String := if j.isGiven then asText j else .ok ""

def asDefault : Json → Except Failure (Option RawDefault)
  | .null => .ok none
  | .bool b => .ok (some (.bool b))
  | .int n => .ok (some (.int n))
  | .float x => .ok (some (.float x))
  | .str s => .ok (some (.text s))
  | _ => .error .mistyped

namespace Row

def text (r : Row) (column : String) : Except Failure String := do asText (← r.value column)

def text? (r : Row) (column : String) : Except Failure (Option String) := do
  asText? (← r.value column)

def givenText (r : Row) (column : String) : Except Failure String := do
  asGivenText (← r.value column)

def isYes (r : Row) (column : String) : Except Failure Bool := do
  return match ← r.value column with
    | .str s => s = "YES"
    | _ => false

/-- Whether the value of a column counts as given. -/
def isGiven (r : Row) (column : String) : Except Failure Bool := return (← r.value column).isGiven

end Row

end Schemata.Catalog
