import Schemata.Text.Numeral

/-!
# Fractions

Quotients of natural numbers that need not be in lowest terms. They are scaled by powers of a base,
which may be negative, and rounded to whole numbers; nothing else is ever approximated.
-/

namespace Schemata

/-- The quotient of two natural numbers, the second one positive. -/
structure Fraction where
  num : Nat
  den : Nat := 1
  deriving DecidableEq

namespace Fraction

/-- The fraction times `base ^ e`. -/
def scale (base : Nat) (e : Int) (q : Fraction) : Fraction :=
  if e < 0 then { q with den := q.den * Nat.pow base e.natAbs }
  else { q with num := q.num * Nat.pow base e.toNat }

/-- The greatest whole number up to the fraction. -/
def floor (q : Fraction) : Nat := q.num / q.den

/-- The whole number nearest to the fraction, a half going to the even neighbour. -/
def round (q : Fraction) : Nat :=
  let rest := q.num % q.den
  if 2 * rest < q.den then q.floor
  else if q.den < 2 * rest then q.floor + 1
  else q.floor + q.floor % 2

/-- The exponent `k` with `2 ^ k ≤ q < 2 ^ (k + 1)`, for a positive fraction. -/
def log2 (q : Fraction) : Int :=
  let k : Int := (Nat.log2 q.num : Int) - Nat.log2 q.den
  let r := q.scale 2 (-k)
  if r.den ≤ r.num then k else k - 1

/-- The exponent `k` with `10 ^ k ≤ q < 10 ^ (k + 1)`, for a positive fraction. -/
def log10 (q : Fraction) : Int :=
  if q.den ≤ q.num then ((Nat.toDigits 10 q.floor).length : Int) - 1
  else
    let k : Int := ((Nat.toDigits 10 (q.den / q.num)).length : Int) - 1
    let r := q.scale 10 k
    if r.den ≤ r.num then -k else -k - 1

/-- The fraction with a sign. -/
def toRat (negative : Bool) (q : Fraction) : Rat := mkRat (Text.signed negative q.num) q.den

end Fraction

end Schemata
