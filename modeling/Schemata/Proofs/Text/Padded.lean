import Mathlib.Tactic.IntervalCases
import Schemata.Text.Numeral

/-!
# Numbers of one width

Texts of one length are ordered by their first difference. `digits` writes a number with a fixed
count of digits, and then the order of texts is the order of numbers (`digits_append_lt`), whatever
stands behind them. `padded` writes these digits when the number has no more of them, and `natText`
when it has just as many.
-/

namespace Schemata.Text

/-! ## The order of texts -/

/-- The first of two different beginnings of one length decides. -/
theorem append_lt_append {α : Type} [LT α] {a b x y : List α} (hlen : a.length = b.length)
    (h : a < b) : a ++ x < b ++ y := by
  induction a generalizing b with
  | nil =>
    cases b with
    | nil => exact absurd h (List.not_lt_nil [])
    | cons d b => simp at hlen
  | cons c a ih =>
    cases b with
    | nil => simp at hlen
    | cons d b =>
      rw [List.cons_append, List.cons_append, List.cons_lt_cons_iff]
      obtain hcd | ⟨rfl, hab⟩ := List.cons_lt_cons_iff.1 h
      · exact .inl hcd
      · exact .inr ⟨rfl, ih (Nat.succ.inj hlen) hab⟩

/-! ## Digits -/

/-- The last digits of a number, a fixed count of them. -/
def digits : Nat → Nat → List Char
  | 0, _ => []
  | w + 1, n => digits w (n / 10) ++ [(n % 10).digitChar]

theorem length_digits (w n : Nat) : (digits w n).length = w := by
  induction w generalizing n with
  | zero => rfl
  | succ w ih => rw [digits, List.length_append, ih, List.length_singleton]

theorem digitChar_lt {a b : Nat} (h : a < b) (hb : b < 10) : a.digitChar < b.digitChar := by
  interval_cases b <;> interval_cases a <;> decide

theorem digits_lt {w n m : Nat} (h : n < m) (hm : m < 10 ^ w) : digits w n < digits w m := by
  induction w generalizing n m with
  | zero => omega
  | succ w ih =>
    rw [digits, digits]
    obtain hlt | heq : n / 10 < m / 10 ∨ n / 10 = m / 10 := by omega
    · have hm' : m / 10 < 10 ^ w := by
        rw [Nat.pow_succ] at hm
        omega
      exact append_lt_append (by rw [length_digits, length_digits]) (ih hlt hm')
    · rw [heq]
      apply List.append_left_lt
      rw [List.cons_lt_cons_iff]
      exact .inl (digitChar_lt (by omega) (by omega))

/-- Digits of one width are ordered as their numbers, and after equal ones the rest decides. -/
theorem digits_append_lt {w n m : Nat} {x y : List Char} (hm : m < 10 ^ w)
    (h : n < m ∨ n = m ∧ x < y) : digits w n ++ x < digits w m ++ y := by
  obtain hlt | ⟨rfl, hxy⟩ := h
  · exact append_lt_append (by rw [length_digits, length_digits]) (digits_lt hlt hm)
  · exact List.append_left_lt hxy

/-! ## Numbers that fit -/

theorem toDigits_eq_digits {w n : Nat} (hle : 10 ^ w ≤ n) (hlt : n < 10 ^ (w + 1)) :
    Nat.toDigits 10 n = digits (w + 1) n := by
  induction w generalizing n with
  | zero =>
    rw [Nat.toDigits_of_lt_base (by omega), digits, digits, Nat.mod_eq_of_lt (by omega)]
    rfl
  | succ w ih =>
    rw [Nat.pow_succ] at hle hlt
    have hten : 10 ≤ n := by
      have hpos := Nat.pow_pos (n := w) (show 0 < 10 by decide)
      omega
    rw [Nat.toDigits_of_base_le (by decide) hten, digits, ih (by omega) (by omega)]

/-- A number with as many digits as a width is written with them. -/
theorem toList_natText {w n : Nat} (hle : 10 ^ w ≤ n) (hlt : n < 10 ^ (w + 1)) :
    (natText n).toList = digits (w + 1) n := by
  rw [natText, String.toList_ofList, toDigits_eq_digits hle hlt]

/-- A number with no more digits than a width is filled up with zeros. -/
theorem toList_padded {w n : Nat} (h : n < 10 ^ (w + 1)) :
    (padded (w + 1) n).toList = digits (w + 1) n := by
  rw [padded, String.toList_ofList]
  induction w generalizing n with
  | zero =>
    rw [Nat.toDigits_of_lt_base (by omega), digits, digits, Nat.mod_eq_of_lt (by omega)]
    rfl
  | succ w ih =>
    by_cases hten : n < 10
    · have hzero := ih (n := 0) (Nat.pow_pos (by decide))
      rw [Nat.toDigits_of_lt_base (by decide)] at hzero
      rw [Nat.toDigits_of_lt_base hten, digits, Nat.div_eq_of_lt hten, Nat.mod_eq_of_lt hten,
        ← hzero]
      exact congrArg (· ++ [n.digitChar]) List.replicate_succ'
    · rw [Nat.pow_succ] at h
      rw [Nat.toDigits_of_base_le (by decide) (by omega), digits, ← ih (n := n / 10) (by omega)]
      simp

theorem isDigit_of_mem_natText {n : Nat} {c : Char} (h : c ∈ (natText n).toList) :
    c.isDigit = true := by
  rw [natText, String.toList_ofList] at h
  exact Nat.isDigit_of_mem_toDigits (by decide) (by decide) h

theorem isDigit_of_mem_padded {w n : Nat} {c : Char} (h : c ∈ (padded w n).toList) :
    c.isDigit = true := by
  rw [padded, String.toList_ofList] at h
  rcases List.mem_append.1 h with h | h
  · rw [List.eq_of_mem_replicate h]
    decide
  · exact Nat.isDigit_of_mem_toDigits (by decide) (by decide) h

end Schemata.Text
