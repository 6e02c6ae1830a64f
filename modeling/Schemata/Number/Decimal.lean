import Schemata.Text.Numeral

/-!
# Decimals

A decimal keeps its sign, its digits and its exponent as they were written: `1.5` and `1.50` are
different decimals. `Decimal.ofText?` reads one and `Decimal.text` writes it; the exponent is
spelled out only when the plain notation would need more than six zeros or trailing ones.
-/

namespace Schemata

/-- A finite decimal `± coefficient · 10 ^ exponent`, or one of the two special values. -/
inductive Decimal
  | finite (negative : Bool) (coefficient : Nat) (exponent : Int)
  | infinite (negative : Bool)
  | nan
  deriving DecidableEq, Inhabited

namespace Decimal

open Text

/-- The exponent of the first digit. -/
def adjusted (coefficient : Nat) (exponent : Int) : Int :=
  exponent + (Nat.toDigits 10 coefficient).length - 1

/-- A decimal, if its exponents are within the bounds of the format. -/
def bounded? (negative : Bool) (coefficient : Nat) (exponent : Int) : Option Decimal :=
  if adjusted coefficient exponent > 999999999999999999 ∨ exponent < -1999999999999999997 then none
  else some (finite negative coefficient exponent)

/-- The digits in front of the point, those behind it, and the text after both. -/
def takeMantissa (s : List Char) : List Char × List Char × List Char :=
  let whole := s.takeWhile isDigit
  match s.dropWhile isDigit with
  | '.' :: r => (whole, r.takeWhile isDigit, r.dropWhile isDigit)
  | r => (whole, [], r)

/-- An exponent at the end of a numeral; no text at all is the exponent zero. -/
def exponent? : List Char → Option Int
  | [] => some 0
  | c :: r =>
    if c = 'e' ∨ c = 'E' then
      let (negative, digits) := takeSign r
      if isNumeral digits then some (signed negative (digitsValue digits)) else none
    else none

/-- The parts of a numeral with an optional sign, point and exponent. -/
def parts? (s : List Char) : Option (Bool × Nat × Int) :=
  let (negative, r) := takeSign s
  let (whole, fraction, rest) := takeMantissa r
  if whole.isEmpty && fraction.isEmpty then none
  else (exponent? rest).map fun e =>
    (negative, digitsValue (whole ++ fraction), e - fraction.length)

/-- Reads a numeral whose exponents are within bounds. -/
def ofText? (s : List Char) : Option Decimal :=
  (parts? s).bind fun (negative, coefficient, exponent) => bounded? negative coefficient exponent

/-- Plain notation with `places` digits behind the point. -/
def plain (digits : List Char) (places : Nat) : List Char :=
  if places = 0 then digits
  else
    let filled := List.replicate (places + 1 - digits.length) '0' ++ digits
    filled.take (filled.length - places) ++ '.' :: filled.drop (filled.length - places)

/-- Scientific notation with one digit in front of the point. -/
def scientific (digits : List Char) (adjusted : Int) : List Char :=
  let mantissa := match digits with
    | d :: e :: r => d :: '.' :: e :: r
    | ds => ds
  mantissa ++ 'E' :: (if adjusted < 0 then '-' else '+') :: Nat.toDigits 10 adjusted.natAbs

/-- The text of a decimal, with every digit it has. -/
def chars : Decimal → List Char
  | finite negative coefficient exponent =>
    let digits := Nat.toDigits 10 coefficient
    let a := adjusted coefficient exponent
    let body := if exponent ≤ 0 ∧ -6 ≤ a then plain digits exponent.natAbs else scientific digits a
    if negative then '-' :: body else body
  | infinite negative => (if negative then ['-'] else []) ++ "Infinity".toList
  | nan => "NaN".toList

def text (d : Decimal) : String := String.ofList d.chars

end Decimal

end Schemata
