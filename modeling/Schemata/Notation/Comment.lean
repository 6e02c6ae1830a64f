/-!
# Comments of the notation

Line comments run from `//` to the end of the line and block comments from `/*` to `*/` or to the
end of the text; neither starts inside quotes. `blankComments` writes spaces over them and keeps
line feeds, so that every other character stays where it was.
-/

namespace Schemata.Notation

/-- Where a character stands. -/
inductive Region
  | code
  | quoted (quote : Char)
  | lineComment
  | blockComment
  deriving DecidableEq

/-- The quotes of the notation. -/
def isQuote (c : Char) : Bool := c == '\'' || c == '"' || c == '\x60'

/-- The text with its comments as spaces, read from within a region. In quotes a backslash takes the
character after it along. -/
def blankFrom : Region → List Char → List Char
  | _, [] => []
  | .code, '/' :: '/' :: r => ' ' :: ' ' :: blankFrom .lineComment r
  | .code, '/' :: '*' :: r => ' ' :: ' ' :: blankFrom .blockComment r
  | .code, c :: r => c :: blankFrom (if isQuote c then .quoted c else .code) r
  | .quoted q, '\\' :: c :: r => '\\' :: c :: blankFrom (.quoted q) r
  | .quoted q, c :: r => c :: blankFrom (if c = q then .code else .quoted q) r
  | .lineComment, '\n' :: r => '\n' :: blankFrom .code r
  | .lineComment, _ :: r => ' ' :: blankFrom .lineComment r
  | .blockComment, '*' :: '/' :: r => ' ' :: ' ' :: blankFrom .code r
  | .blockComment, '\n' :: r => '\n' :: blankFrom .blockComment r
  | .blockComment, _ :: r => ' ' :: blankFrom .blockComment r

/-- The text with its comments as spaces. -/
def blankComments (s : List Char) : List Char := blankFrom .code s

/-- Blanking keeps the length. -/
theorem length_blankFrom (region : Region) (s : List Char) :
    (blankFrom region s).length = s.length := by
  fun_induction blankFrom region s <;> simp_all

end Schemata.Notation
