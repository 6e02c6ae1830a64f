import Schemata.Json.Basic
import Schemata.Text.Display

/-!
# Values in messages

How a message shows a JSON value: as plain text, or with strings in quotes. Null is `None`, and the
truth values are `True` and `False`.
-/

namespace Schemata.Json

mutual

def display : Json → String
  | null => "None"
  | bool b => if b then "True" else "False"
  | int n => Text.intText n
  | float x => x.text
  | str s => Text.display s
  | arr items => "[" ++ ", ".intercalate (displayItems items) ++ "]"
  | obj members => "\x7b" ++ ", ".intercalate (displayMembers members) ++ "\x7d"

def displayItems : List Json → List String
  | [] => []
  | v :: vs => display v :: displayItems vs

def displayMembers : List (String × Json) → List String
  | [] => []
  | (k, v) :: ms => (Text.display k ++ ": " ++ display v) :: displayMembers ms

end

def shown : Json → String
  | str s => s
  | j => j.display

/-- Whether a value counts as given: null, false, zero and what is empty do not. -/
def isGiven : Json → Bool
  | null => false
  | bool b => b
  | int n => n != 0
  | float x => !x.same (.ofInt 0)
  | str s => !s.isEmpty
  | arr items => !items.isEmpty
  | obj members => !members.isEmpty

end Schemata.Json
