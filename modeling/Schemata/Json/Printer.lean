import Schemata.Json.Basic
import Schemata.Text.Numeral

/-!
# Writing JSON

A value as text, without any blanks or with one item or member a line. Characters beyond ASCII are
written as they are, and numbers with a fraction in the fewest digits that read back.
-/

namespace Schemata.Json

def escapeChar (c : Char) : List Char :=
  if c = '"' ∨ c = '\\' then ['\\', c]
  else if c = '\n' then ['\\', 'n']
  else if c = '\r' then ['\\', 'r']
  else if c = '\t' then ['\\', 't']
  else if c = '\x08' then ['\\', 'b']
  else if c = '\x0c' then ['\\', 'f']
  else if c.toNat < 32 then '\\' :: 'u' :: Text.hexPadded 4 c.toNat
  else [c]

def quote (s : String) : List Char := '"' :: (s.toList.flatMap escapeChar ++ ['"'])

/-- Numbers are positional from `0.00001` to below `10 ^ 16`. -/
def layout : Binary64.Layout := ⟨-5, 15, "e", 1⟩

/-- A number with a fraction; what is no finite number is written as null. -/
def floatChars : Binary64 → List Char
  | .finite negative m e => ((Binary64.finite negative m e).write layout).toList
  | _ => "null".toList

/-- What stands in front of an item at a depth. -/
def Style.newline : Style → (depth : Nat) → List Char
  | compact, _ => []
  | indented spaces, depth => '\n' :: List.replicate (spaces * depth) ' '

def Style.colon : Style → List Char
  | compact => [':']
  | indented _ => [':', ' ']

mutual

def write (style : Style) (depth : Nat) : Json → List Char
  | null => "null".toList
  | bool b => (if b then "true" else "false").toList
  | int n => (Text.intText n).toList
  | float x => floatChars x
  | str s => quote s
  | arr [] => ['[', ']']
  | arr (v :: vs) =>
    '[' :: (style.newline (depth + 1) ++ write style (depth + 1) v ++
      writeItems style (depth + 1) vs ++ style.newline depth ++ [']'])
  | obj [] => ['\x7b', '\x7d']
  | obj ((k, v) :: ms) =>
    '\x7b' :: (style.newline (depth + 1) ++ quote k ++ style.colon ++ write style (depth + 1) v ++
      writeMembers style (depth + 1) ms ++ style.newline depth ++ ['\x7d'])

/-- The items after the first one, each behind its comma. -/
def writeItems (style : Style) (depth : Nat) : List Json → List Char
  | [] => []
  | v :: vs =>
    ',' :: (style.newline depth ++ write style depth v ++ writeItems style depth vs)

/-- The members after the first one, each behind its comma. -/
def writeMembers (style : Style) (depth : Nat) : List (String × Json) → List Char
  | [] => []
  | (k, v) :: ms =>
    ',' :: (style.newline depth ++ quote k ++ style.colon ++ write style depth v ++
      writeMembers style depth ms)

end

def text (style : Style) (j : Json) : String := String.ofList (write style 0 j)

end Schemata.Json
