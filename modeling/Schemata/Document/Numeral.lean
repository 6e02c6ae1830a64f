import Schemata.Number.Binary64

/-!
# Lenient numerals

Numbers that stand in the texts of a document. A whole number may have white space around it, a sign
and zeros in front, low lines between its digits, and a fraction of zeros behind it:
`wholeNumber` brings it into its plain form and reads that. `number?` reads a number with a fraction
or an exponent, which may have white space around it or low lines in it, but not both.
-/

namespace Schemata.Lenient

open Text

/-- Why a text is no whole number. -/
inductive Flaw
  | malformed
  | tooLong
  deriving DecidableEq

/-- The most characters that a whole number may have in its plain form. -/
def longest : Nat := 4300

/-- Reads the plain form of a whole number: digits behind an optional minus, and no zero in front of
another digit. One with too many digits is too long, whatever stands behind them. -/
def plain (s : List Char) : Except Flaw Int :=
  let (negative, r) := match s with
    | '-' :: r => (true, r)
    | r => (false, r)
  let digits := r.takeWhile Char.isDigit
  let rest := r.dropWhile Char.isDigit
  if digits = [] ∨ (digits.head? = some '0' ∧ 1 < digits.length) then .error .malformed
  else if longest < s.length - rest.length then .error .tooLong
  else if rest = [] then .ok (signed negative (digitsValue digits))
  else .error .malformed

/-- The text behind leading zeros and the low lines among them, from the first other digit or a
minus. A point, and the end of the text, keep the character in front of them. -/
def afterZeros? (last : Char) : List Char → Option (List Char)
  | [] => some [last]
  | c :: r =>
    if c = '0' ∨ c = '_' then afterZeros? c r
    else if c = '.' then some (last :: c :: r)
    else if c.isDigit ∨ c = '-' then some (c :: r)
    else none

/-- A numeral without its leading zeros; what begins with no digit is none. -/
def dropLeadingZeros? : List Char → Option (List Char)
  | [] => none
  | c :: r => if c = '0' then afterZeros? c r else if c.isDigit then some (c :: r) else none

/-- A numeral without a fraction of one or more zeros. -/
def dropZeroFraction (s : List Char) : List Char :=
  match s.dropWhile (· ≠ '.') with
  | _ :: f => if f ≠ [] ∧ f.all (· == '0') then s.takeWhile (· ≠ '.') else s
  | [] => s

/-- The text without its low lines, none of which may stand at an end or next to another. -/
def dropLowLines? (s : List Char) : Option (List Char) :=
  if s.head? = some '_' ∨ s.getLast? = some '_' ∨ hasInfix ['_', '_'] s then none
  else some (s.filter (· ≠ '_'))

/-- The plain form of a numeral without a sign. -/
def unsigned? (s : List Char) : Option (List Char) := do
  let s := dropZeroFraction (← dropLeadingZeros? s)
  return (dropLowLines? s).getD s

def plainForm? (s : List Char) : Option (List Char) :=
  match trim s with
  | '+' :: '-' :: _ => none
  | '+' :: r => unsigned? r
  | '-' :: r => (unsigned? r).map ('-' :: ·)
  | r => unsigned? r

def wholeNumber (s : List Char) : Except Flaw Int :=
  match plain s with
  | .error .malformed => (plainForm? s).elim (.error .malformed) plain
  | x => x

/-- The words for infinities and for no number. -/
def word? (s : List Char) : Option Binary64 :=
  let (negative, word) := takeSign s
  match String.ofList (lower word) with
  | "inf" | "infinity" => some (.infinite negative)
  | "nan" => some .nan
  | _ => none

/-- Reads a number of ASCII characters without anything around it. -/
def bareNumber? (s : List Char) : Option Binary64 :=
  if s.all (·.toNat < 128) then (word? s).or (Binary64.ofText? s) else none

def number? (s : List Char) : Option Binary64 :=
  (bareNumber? (trim s)).or ((dropLowLines? s).bind bareNumber?)

end Schemata.Lenient
