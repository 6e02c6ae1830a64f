import Schemata.Number.Decimal
import Schemata.Number.Fraction

/-!
# Binary64

Double-precision numbers as exact values: a significand times a power of two, an infinity, or no
number. `Binary64.round` takes the nearest such number to a fraction, a tie to the even significand.
`Binary64.shortest` gives the fewest decimal digits that round back to the number, and of those the
nearest.
-/

namespace Schemata

/-- A number `± significand · 2 ^ exponent`. Results of `round` have a significand below `2 ^ 53`
and an exponent from `-1074` to `971`, and the exponent is least unless the significand has 53
bits. -/
inductive Binary64
  | finite (negative : Bool) (significand : Nat) (exponent : Int)
  | infinite (negative : Bool)
  | nan
  deriving DecidableEq, Inhabited

namespace Binary64

/-- The number nearest to a fraction with a sign. -/
def round (negative : Bool) (q : Fraction) : Binary64 :=
  if q.num = 0 then finite negative 0 (-1074)
  else
    let e := max (q.log2 - 52) (-1074)
    let m := (q.scale 2 (-e)).round
    let (m, e) := if m = overflow then (overflow / 2, e + 1) else (m, e)
    if 971 < e then infinite negative else finite negative m e
where
  /-- The least number that has more than 53 bits. -/
  overflow : Nat := 0x20000000000000

/-- The number nearest to `± coefficient · 10 ^ exponent`. -/
def ofDecimal (negative : Bool) (coefficient : Nat) (exponent : Int) : Binary64 :=
  let a := Decimal.adjusted coefficient exponent
  if coefficient = 0 ∨ a < -400 then finite negative 0 (-1074)
  else if 400 < a then infinite negative
  else round negative (Fraction.scale 10 exponent ⟨coefficient, 1⟩)

def ofInt (n : Int) : Binary64 := round (n < 0) ⟨n.natAbs, 1⟩

/-- Reads a decimal numeral with an optional point and exponent. -/
def ofText? (s : List Char) : Option Binary64 :=
  (Decimal.parts? s).map fun (negative, coefficient, exponent) =>
    ofDecimal negative coefficient exponent

/-- The absolute value of a finite number. -/
def magnitude (m : Nat) (e : Int) : Fraction := Fraction.scale 2 e ⟨m, 1⟩

def toRat? : Binary64 → Option Rat
  | finite negative m e => some ((magnitude m e).toRat negative)
  | _ => none

/-- The number nearest to an exact value. -/
def ofRat (q : Rat) : Binary64 := round (q < 0) ⟨q.num.natAbs, q.den⟩

/-- The number times a whole number, rounded. -/
def times (k : Nat) : Binary64 → Binary64
  | finite negative m e => round negative (magnitude (m * k) e)
  | x => x

/-- The whole part of a finite number, the fraction cut off. -/
def truncate? : Binary64 → Option Int
  | finite negative m e => some (Text.signed negative (magnitude m e).floor)
  | _ => none

/-- The whole number that a finite number is. -/
def toInt? : Binary64 → Option Int
  | finite negative m e =>
    let q := magnitude m e
    if q.num % q.den = 0 then some (Text.signed negative q.floor) else none
  | _ => none

/-- Numerical equality: the two zeros are equal, and no number is not. -/
def same : Binary64 → Binary64 → Bool
  | nan, _ => false
  | _, nan => false
  | finite _ 0 _, finite _ 0 _ => true
  | x, y => x == y

/-! ## Decimal digits -/

/-- The multiple of `10 ^ p` nearest to a fraction, or else its other neighbour of that sort, if it
rounds back to the number; as a count. -/
def onGrid? (x : Binary64) (negative : Bool) (q : Fraction) (p : Int) : Option Nat :=
  let counted := q.scale 10 (-p)
  let below := counted.floor
  let near := counted.round
  let far := if near = below then below + 1 else below
  if ofDecimal negative near p = x then some near
  else if ofDecimal negative far p = x then some far
  else none

/-- Moves the zeros at the end of a coefficient into the exponent. -/
def dropZeros : (fuel : Nat) → Nat → Int → Nat × Int
  | 0, c, p => (c, p)
  | fuel + 1, c, p => if c ≠ 0 ∧ c % 10 = 0 then dropZeros fuel (c / 10) (p + 1) else (c, p)

/-- The fewest digits that round back to a finite number, and the exponent of the last one. -/
def shortest (negative : Bool) (m : Nat) (e : Int) : Nat × Int :=
  if m = 0 then (0, 0)
  else
    let q := magnitude m e
    let d := q.log10
    let found := (List.range 17).findSome? fun (n : Nat) =>
      (onGrid? (finite negative m e) negative q (d - n)).map fun c => (c, d - n)
    let (c, p) := found.getD (q.num, 0)
    dropZeros 20 c p

/-- Where a layout changes to scientific notation and how it writes the exponent. -/
structure Layout where
  /-- The least exponent of the first digit in positional notation. -/
  lowest : Int
  /-- The greatest exponent of the first digit in positional notation. -/
  highest : Int
  /-- The mark between mantissa and exponent of a positive exponent. -/
  positive : String
  /-- The least number of exponent digits. -/
  width : Nat

/-- Positional notation for the digits of a number; a whole number gets one zero as its fraction. -/
def positional (digits : List Char) (p : Int) : List Char :=
  if 0 ≤ p then digits ++ List.replicate p.toNat '0' ++ ['.', '0']
  else Decimal.plain digits p.natAbs

/-- The digits of a mantissa: a point stands behind the first one if more follow. -/
def mantissa : List Char → List Char
  | d :: f :: r => d :: '.' :: f :: r
  | ds => ds

def write (l : Layout) : Binary64 → String
  | finite negative m e =>
    let (c, p) := shortest negative m e
    let digits := Nat.toDigits 10 c
    let a := p + digits.length - 1
    let body :=
      if c = 0 ∨ (l.lowest ≤ a ∧ a ≤ l.highest) then String.ofList (positional digits p)
      else
        String.ofList (mantissa digits) ++ (if a < 0 then "e-" else l.positive) ++
          Text.padded l.width a.natAbs
    if negative then "-" ++ body else body
  | infinite negative => if negative then "-inf" else "inf"
  | nan => "nan"

/-- The everyday layout: positional from `0.0001` to below `10 ^ 16`, exponents of two digits. -/
def everyday : Layout := ⟨-4, 15, "e+", 2⟩

def text (x : Binary64) : String := x.write everyday

/-- The exact value rounded to `places` decimal places, a half going to the even neighbour. -/
def fixed (places : Nat) : Binary64 → String
  | finite negative m e =>
    let digits := Nat.toDigits 10 ((magnitude m e).scale 10 places).round
    let body := Decimal.plain digits places
    String.ofList (if negative then '-' :: body else body)
  | x => x.text

end Binary64

end Schemata
