import Schemata.Text.Display

/-!
# Numerals that do not fit

Why a text and a whole number do not go together: the text is no numeral, or one of them has more
digits than there is room for.
-/

namespace Schemata

/-- How many digits a whole number is written with. -/
def digitCount (n : Int) : Nat := (Nat.toDigits 10 n.natAbs).length

/-- Why a text and a whole number do not go together. -/
inductive NumeralFlaw
  | malformed (text : String)
  /-- A text has more digits than the limit. -/
  | tooLong (limit digits : Nat)
  /-- A number would be written with more digits than the limit. -/
  | unwritable (limit : Nat)
  deriving DecidableEq, Repr

namespace NumeralFlaw

/-- How much of a malformed numeral is shown. -/
def shownLength : Nat := 200

/-- The wording of a limit of digits, and of the number of digits that a text has. -/
def limitMessage (limit : Nat) (digits : Option Nat) : String :=
  "Exceeds the limit (" ++ Text.natText limit ++ " digits) for integer string conversion" ++
    (digits.map fun n => ": value has " ++ Text.natText n ++ " digits").getD "" ++
    "; use sys.set_int_max_str_digits() to increase the limit"

def message : NumeralFlaw → String
  | malformed text =>
    "invalid literal for int() with base 10: " ++
      String.ofList ((Text.display text).toList.take shownLength)
  | tooLong limit digits => limitMessage limit (some digits)
  | unwritable limit => limitMessage limit none

end NumeralFlaw

end Schemata
