import Schemata.Number.Binary64

/-!
# JSON values

The values of a JSON text. Whole numbers and numbers with a fraction or an exponent are kept apart,
and the members of an object keep their order.
-/

namespace Schemata

/-- A JSON value. -/
inductive Json
  | null
  | bool (b : Bool)
  | int (n : Int)
  | float (x : Binary64)
  | str (s : String)
  | arr (items : List Json)
  | obj (members : List (String × Json))
  deriving Inhabited

namespace Json

/-- The value of the last member with a key. -/
def member? (key : String) : List (String × Json) → Option Json
  | [] => none
  | (k, v) :: r => (member? key r).or (if k = key then some v else none)

/-- The members with each key once: where the key came first, with the value that came last. -/
def distinct : List (String × Json) → List (String × Json)
  | [] => []
  | (k, v) :: r => (k, (member? k r).getD v) :: (distinct r).filter (·.1 ≠ k)

/-- The member of an object; any other value has none. -/
def get? (j : Json) (key : String) : Option Json :=
  match j with
  | obj members => member? key members
  | _ => none

def ofOption (s : Option String) : Json := s.elim null str

def strings (items : List String) : Json := arr (items.map str)

/-- How items are laid out in a text: on one line, or one a line, each level further in by some
spaces. -/
inductive Style
  | compact
  | indented (spaces : Nat)
  deriving DecidableEq

@[simp] theorem member?_cons (key k : String) (v : Json) (r : List (String × Json)) :
    member? key ((k, v) :: r) = (member? key r).or (if k = key then some v else none) := rfl

end Json

end Schemata
