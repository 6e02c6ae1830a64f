import Schemata.Text.Blank
import Schemata.Text.Letter

/-!
# Numerals

Whole numbers as text. Reading takes the decimal digits of any script; writing uses ASCII.
-/

namespace Schemata.Text

/-- The number that a run of digits names, most significant digit first. -/
def digitsValue (s : List Char) : Nat :=
  s.foldl (fun n c => 10 * n + (digitValue? c).getD 0) 0

/-- A text of one or more digits. -/
def isNumeral (s : List Char) : Bool := !s.isEmpty && s.all isDigit

/-- A sign, if there is one, and the text after it; `true` for a minus. -/
def takeSign : List Char → Bool × List Char
  | '-' :: r => (true, r)
  | '+' :: r => (false, r)
  | s => (false, s)

/-- The number with the sign that `takeSign` found. -/
def signed (negative : Bool) (n : Nat) : Int := if negative then -(n : Int) else n

/-- Digits with single low lines between them, the low lines dropped. -/
def plainDigits? : List Char → Option (List Char)
  | [] => none
  | [c] => if isDigit c then some [c] else none
  | c :: '_' :: r => if isDigit c then (plainDigits? r).map (c :: ·) else none
  | c :: r => if isDigit c then (plainDigits? r).map (c :: ·) else none

/-- Reads a whole number with blanks around it, a sign in front of it and single low lines in it. -/
def readInt? (s : List Char) : Option Int :=
  let (negative, digits) := takeSign (strip s)
  (plainDigits? digits).map fun ds => signed negative (digitsValue ds)

def natText (n : Nat) : String := String.ofList (Nat.toDigits 10 n)

/-- A whole number in decimal digits, a negative one after a minus. -/
def intText (n : Int) : String := if n < 0 then "-" ++ natText n.natAbs else natText n.natAbs

/-- A number with zeros in front up to a width. -/
def padded (width : Nat) (n : Nat) : String :=
  let digits := Nat.toDigits 10 n
  String.ofList (List.replicate (width - digits.length) '0' ++ digits)

/-- A character code in lower-case hexadecimal digits with zeros in front up to a width. -/
def hexPadded (width : Nat) (n : Nat) : List Char :=
  let digits := Nat.toDigits 16 n
  List.replicate (width - digits.length) '0' ++ digits

end Schemata.Text
