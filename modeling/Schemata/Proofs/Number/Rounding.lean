import Mathlib.Tactic.Common
import Mathlib.Algebra.Order.Ring.Cast
import Mathlib.Data.Rat.Lemmas
import Mathlib.Algebra.Order.Ring.Rat
import Schemata.Number.Binary64
import Schemata.Proofs.Number.Decimal

/-!
# Whole numbers are not rounded

A whole number of at most 53 bits is a double-precision number, so rounding leaves it as it is
(`toRat?_ofRat_intCast`).
-/

namespace Schemata

namespace Fraction

theorem log2_whole {n : Nat} (hn : n ≠ 0) : log2 ⟨n, 1⟩ = Nat.log2 n := by
  have hle : 2 ^ Nat.log2 n ≤ n := Nat.log2_self_le hn
  have hlog : ((Nat.log2 n : Int) - Nat.log2 1) = Nat.log2 n := by
    have : Nat.log2 1 = 0 := by decide
    omega
  unfold log2
  simp only [hlog]
  rw [if_pos]
  unfold scale
  split
  · simpa using hle
  · next h =>
    have hzero : Nat.log2 n = 0 := by omega
    simpa [hzero] using Nat.one_le_iff_ne_zero.2 hn

/-- A whole number is its own nearest whole number. -/
theorem round_whole (n : Nat) : round ⟨n, 1⟩ = n := by
  simp [round, floor, Nat.mod_one]

end Fraction

namespace Binary64

theorem round_whole {n : Nat} (hn : n ≠ 0) (hbits : n < 2 ^ 53) (negative : Bool) :
    round negative ⟨n, 1⟩ =
      finite negative (n * 2 ^ (52 - Nat.log2 n)) ((Nat.log2 n : Int) - 52) := by
  have hlog : Nat.log2 n ≤ 52 := by
    have := (Nat.log2_lt hn).2 hbits
    omega
  have he : max ((Nat.log2 n : Int) - 52) (-1074) = (Nat.log2 n : Int) - 52 := by omega
  have hscale : Fraction.scale 2 (-((Nat.log2 n : Int) - 52)) ⟨n, 1⟩ =
      ⟨n * 2 ^ (52 - Nat.log2 n), 1⟩ := by
    unfold Fraction.scale
    rw [if_neg (by omega)]
    have htoNat : (-((Nat.log2 n : Int) - 52)).toNat = 52 - Nat.log2 n := by omega
    rw [htoNat]
    rfl
  have hfull : n * 2 ^ (52 - Nat.log2 n) < 2 ^ 53 := by
    calc n * 2 ^ (52 - Nat.log2 n)
        < 2 ^ (Nat.log2 n + 1) * 2 ^ (52 - Nat.log2 n) :=
          Nat.mul_lt_mul_of_pos_right Nat.lt_log2_self (Nat.two_pow_pos _)
      _ = 2 ^ 53 := by
          rw [← Nat.pow_add]
          congr 1
          omega
  unfold round
  rw [if_neg hn, Fraction.log2_whole hn]
  simp only [he, hscale, Fraction.round_whole]
  rw [if_neg (c := _ = round.overflow) hfull.ne, if_neg (by omega)]

theorem toRat_magnitude (negative : Bool) {n : Nat} (hlog : Nat.log2 n ≤ 52) :
    (magnitude (n * 2 ^ (52 - Nat.log2 n)) ((Nat.log2 n : Int) - 52)).toRat negative =
      Text.signed negative n := by
  obtain hlog | hlog := hlog.eq_or_lt
  · simpa [magnitude, Fraction.scale, hlog, Fraction.toRat] using Rat.mkRat_one _
  · have habs : ((Nat.log2 n : Int) - 52).natAbs = 52 - Nat.log2 n := by omega
    have hsigned : Text.signed negative (n * 2 ^ (52 - Nat.log2 n)) =
        Text.signed negative n * ((2 ^ (52 - Nat.log2 n) : Nat) : Int) := by
      cases negative <;> simp [Text.signed]
    unfold magnitude Fraction.scale
    rw [if_pos (by omega), habs]
    show mkRat (Text.signed negative (n * 2 ^ (52 - Nat.log2 n))) (1 * 2 ^ (52 - Nat.log2 n)) = _
    rw [hsigned, Rat.mkRat_mul_right (Nat.two_pow_pos _).ne']
    exact Rat.mkRat_one _

/-- Rounding leaves a whole number of at most 53 bits as it is. -/
theorem toRat?_ofRat_intCast {n : Int} (hbits : n.natAbs < 2 ^ 53) :
    (ofRat n).toRat? = some (n : Rat) := by
  have hnum : (n : Rat).num.natAbs = n.natAbs := by rw [Rat.num_intCast]
  obtain rfl | hn := eq_or_ne n 0
  · exact congrArg some (Rat.zero_mkRat _)
  · have hne : n.natAbs ≠ 0 := Int.natAbs_ne_zero.2 hn
    have hsign : decide ((n : Rat) < 0) = decide (n < 0) :=
      decide_eq_decide.2 Int.cast_lt_zero
    have hlog : Nat.log2 n.natAbs ≤ 52 := by
      have := (Nat.log2_lt hne).2 hbits
      omega
    rw [ofRat, hnum, Rat.den_intCast, hsign, round_whole hne hbits, toRat?, toRat_magnitude _ hlog,
      Text.signed_natAbs]

end Binary64

end Schemata
