/-!
# Lines

A text is cut into lines at any Unicode line boundary; a carriage return with the line feed after it
is one boundary. A boundary at the end of the text starts no further line.
-/

namespace Schemata.Text

/-- The characters that end a line. -/
def isLineBreak (c : Char) : Bool :=
  let n := c.toNat
  (10 ≤ n && n ≤ 13) || (28 ≤ n && n ≤ 30) || n == 0x85 || n == 0x2028 || n == 0x2029

/-- Puts a character in front of the first of some pieces. -/
def consHead (c : Char) : List (List Char) → List (List Char)
  | [] => [[c]]
  | l :: ls => (c :: l) :: ls

/-- The lines of a text, without the boundaries that end them. -/
def lines : List Char → List (List Char)
  | [] => []
  | '\r' :: '\n' :: r => [] :: lines r
  | c :: r => if isLineBreak c then [] :: lines r else consHead c (lines r)

def linesOf (s : String) : List String := (lines s.toList).map String.ofList

end Schemata.Text
