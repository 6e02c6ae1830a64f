import Schemata.Fault
import Schemata.Json.Display

/-!
# Checked values

Reading typed values out of JSON, and writing JSON as text, is the work of a library, a `Validation`.
Here stands what one offers: a reader for each way in which a member of a record can be declared. What
the readers take, and how texts look, is left open. Records are declared on top of it.
-/

namespace Schemata

/-- A value, or everything that is wrong with it. -/
inductive Checked (α : Type)
  | valid (a : α)
  | invalid (violations : List Violation)

def Checked.toExcept {α : Type} (g : List Violation → Fault) : Checked α → Except Fault α
  | .valid a => .ok a
  | .invalid vs => .error (g vs)

/-- A reader of the value at a path. -/
abbrev Check (α : Type) := List Step → Json → Checked α

/-- A truth value, a whole number or a text. -/
inductive Scalar
  | bool (b : Bool)
  | int (n : Int)
  | str (s : String)
  deriving DecidableEq

def Scalar.toJson : Scalar → Json
  | bool b => .bool b
  | int n => .int n
  | str s => .str s

/-- The member of an object under a key, or else under another name of it, and the name it has. -/
def Json.memberUnder? (j : Json) (key other : String) : Option (String × Json) :=
  ((j.get? key).map fun v => (key, v)).or ((j.get? other).map fun v => (other, v))

/-- A library that reads values as they are declared and writes JSON as text. -/
structure Validation where
  string : Check String
  bool : Check Bool
  float : Check Binary64
  /-- A whole number within bounds. -/
  bounded (low high : Option Int) : Check Int
  /-- The first of the three sorts that fits. -/
  scalar : Check Scalar
  /-- One of the values that a function knows by their names. -/
  named {α : Type} (ofName? : String → Option α) : Check α
  /-- A value that a function of the program reads, or refuses with a message. -/
  parsed {α : Type} (parse : Json → Except String α) : Check α
  nullable {α : Type} (c : Check α) : Check (Option α)
  list {α : Type} (c : Check α) : Check (List α)
  nonempty {α : Type} (c : Check α) : Check (List α)
  /-- A member of an object under one of two names. Without a default it has to be there. -/
  member {α : Type} (key other : String) (default : Option α) (c : Check α) : Check α
  /-- Two parts of one object. -/
  both {α β : Type} (c : Check α) (d : Check β) : Check (α × β)
  /-- A record made of the parts of an object. -/
  record {α β : Type} (parts : Check α) (make : α → β) : Check β
  /-- A value that a function of the program may find a flaw in afterwards. -/
  refined {α : Type} (c : Check α) (flaw? : α → Option String) : Check α
  /-- The text of a number with a fraction. -/
  floatText : Binary64 → String
  dump : Json.Style → Json → Except Fault String

namespace Validation

variable (lib : Validation) {α : Type}

def required (key : String) (c : Check α) (other : String := key) : Check α :=
  lib.member key other none c

def optional (key : String) (c : Check α) (default : α) (other : String := key) : Check α :=
  lib.member key other (some default) c

def dialect : Check Dialect :=
  lib.parsed fun j =>
    match (match j with
      | .str s => Dialect.ofAlias? s
      | _ => none) with
    | some d => .ok d
    | none => .error (Fault.unknownDialect j.display).message

end Validation

/-- Makes a record from the values of its members, which are checked like those of a document. -/
def construct {α : Type} (check : Check α) (members : Json) : Except Fault α :=
  (check [] members).toExcept .invalidValues

end Schemata
