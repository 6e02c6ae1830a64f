/-!
# Blanks

Which characters count as white space, and what is done with them at the ends of a text and between
its words. A blank is white space or an information separator. The readers of this library know
blanks; only numbers in the texts of a document are trimmed of white space alone.
-/

namespace Schemata.Text

/-- White space of Unicode. -/
def isWhite (c : Char) : Bool :=
  let n := c.toNat
  (9 ≤ n && n ≤ 13) || n == 32 || n == 0x85 || n == 0xA0 || n == 0x1680 ||
    (0x2000 ≤ n && n ≤ 0x200A) || n == 0x2028 || n == 0x2029 || n == 0x202F || n == 0x205F ||
    n == 0x3000

/-- The text without the white space at both ends. -/
def trim (s : List Char) : List Char := ((s.dropWhile isWhite).reverse.dropWhile isWhite).reverse

/-- White space of Unicode, and the four information separators. -/
def isBlank (c : Char) : Bool := isWhite c || (28 ≤ c.toNat && c.toNat ≤ 31)

/-- The text from its first character that is no blank. -/
def skipBlanks (s : List Char) : List Char := s.dropWhile isBlank

/-- The text without the blanks at its end. -/
def dropTrailingBlanks (s : List Char) : List Char := (s.reverse.dropWhile isBlank).reverse

def strip (s : List Char) : List Char := dropTrailingBlanks (skipBlanks s)

/-- The maximal runs of characters that are no blanks, in order. -/
def words (s : List Char) : List (List Char) := (s.splitOnP isBlank).filter (!·.isEmpty)

/-- The words with one space between them. -/
def squeeze (s : List Char) : List Char := [' '].intercalate (words s)

/-- Skips the blanks and says whether there was one. -/
def skipBlanks1 (s : List Char) : Option (List Char) :=
  match s with
  | c :: r => if isBlank c then some (skipBlanks r) else none
  | [] => none

@[simp] theorem skipBlanks_nil : skipBlanks [] = [] := rfl

end Schemata.Text
