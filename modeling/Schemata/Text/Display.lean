import Schemata.Text.Numeral

/-!
# Quoted display

How a message shows a text so that its ends and its invisible characters can be seen: between
quotes, with escapes for what does not print.
-/

namespace Schemata.Text

/-- Controls, separators other than the space, format marks, private and unassigned characters. -/
def isInvisible (c : Char) : Bool :=
  let n := c.toNat
  n < 0x20 || (0x7F ≤ n && n ≤ 0xA0) || n == 0xAD || (0x600 ≤ n && n ≤ 0x605) || n == 0x61C ||
    n == 0x6DD || n == 0x70F || n == 0x1680 || n == 0x180E || (0x2000 ≤ n && n ≤ 0x200F) ||
    (0x2028 ≤ n && n ≤ 0x202F) || (0x205F ≤ n && n ≤ 0x206F) || n == 0x3000 ||
    (0xE000 ≤ n && n ≤ 0xF8FF) || n == 0xFEFF || (0xFFF0 ≤ n && n ≤ 0xFFFB) || n == 0xFFFE ||
    n == 0xFFFF || 0xE0000 ≤ n

/-- One character of a display between the quotes `q`. -/
def displayChar (q c : Char) : List Char :=
  if c = '\\' ∨ c = q then ['\\', c]
  else if c = '\n' then ['\\', 'n']
  else if c = '\r' then ['\\', 'r']
  else if c = '\t' then ['\\', 't']
  else if isInvisible c then
    let n := c.toNat
    if n < 0x100 then '\\' :: 'x' :: hexPadded 2 n
    else if n < 0x10000 then '\\' :: 'u' :: hexPadded 4 n
    else '\\' :: 'U' :: hexPadded 8 n
  else [c]

/-- Single quotes, unless the text has single quotes and no double ones. -/
def displayQuote (s : List Char) : Char := if '\'' ∈ s ∧ '"' ∉ s then '"' else '\''

def display (s : String) : String :=
  let q := displayQuote s.toList
  String.ofList (enclosed q (s.toList.flatMap (displayChar q)))
where
  enclosed (q : Char) (body : List Char) : List Char := q :: (body ++ [q])

end Schemata.Text
