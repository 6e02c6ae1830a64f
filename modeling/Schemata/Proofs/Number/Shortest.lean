import Mathlib.Tactic.Common
import Schemata.Number.Binary64

/-!
# The shortest digits of a number

`Binary64.shortest` looks for digits that mean the number again. So the digits of a number other than
zero are not all zeros, and zero itself is the digit zero in front of the point
(`shortest_ne_zero_or`): what is written for a number never starts with a zero that could be left out.
-/

namespace Schemata.Binary64

theorem dropZeros_ne_zero (fuel : Nat) {c : Nat} (hc : c ≠ 0) (p : Int) :
    (dropZeros fuel c p).1 ≠ 0 := by
  induction fuel generalizing c p with
  | zero => exact hc
  | succ fuel ih =>
    rw [dropZeros]
    split
    · exact ih (by omega) _
    · exact hc

theorem ofDecimal_of_onGrid? {x : Binary64} {negative : Bool} {q : Fraction} {p : Int} {c : Nat}
    (h : onGrid? x negative q p = some c) : ofDecimal negative c p = x := by
  have hcase : ∀ near far : Nat, (if ofDecimal negative near p = x then some near
      else if ofDecimal negative far p = x then some far else none) = some c →
      ofDecimal negative c p = x := by
    intro near far h
    split at h
    · next hnear => rwa [← Option.some.inj h]
    · split at h
      · next hfar => rwa [← Option.some.inj h]
      · exact absurd h (by simp)
  exact hcase _ _ h

/-- The shortest digits of a number other than zero are not zero. -/
theorem shortest_ne_zero {m : Nat} (hm : m ≠ 0) (negative : Bool) (e : Int) :
    (shortest negative m e).1 ≠ 0 := by
  have hnum : (magnitude m e).num ≠ 0 := by
    unfold magnitude Fraction.scale
    split
    · exact hm
    · exact Nat.mul_ne_zero hm (Nat.pos_iff_ne_zero.1 (Nat.pow_pos (by decide)))
  rw [shortest, if_neg hm]
  apply dropZeros_ne_zero
  cases hfound : (List.range 17).findSome? _ with
  | none => exact hnum
  | some found =>
    obtain ⟨n, -, hn⟩ := List.exists_of_findSome?_eq_some hfound
    obtain ⟨c, hc, rfl⟩ := Option.map_eq_some_iff.1 hn
    -- The digit zero means the number zero, which is not the number written.
    show c ≠ 0
    rintro rfl
    have hzero := ofDecimal_of_onGrid? hc
    rw [ofDecimal, if_pos (.inl rfl)] at hzero
    cases hzero
    exact hm rfl

theorem shortest_ne_zero_or (negative : Bool) (m : Nat) (e : Int) :
    (shortest negative m e).1 ≠ 0 ∨ (shortest negative m e).2 = 0 := by
  by_cases hm : m = 0
  · exact .inr (by rw [shortest, if_pos hm])
  · exact .inl (shortest_ne_zero hm negative e)

end Schemata.Binary64
