import Schemata.Text.Letter

/-!
# Case in ASCII

The lower case of a character can depend on its neighbours, but an ASCII character has one lower case
everywhere, and what stands on the two sides of a space does not matter to each other.
-/

namespace Schemata.Text

theorem lowerAt_of_isAscii {c : Char} (hc : isAscii c = true) (inWord : Bool) (rest : List Char) :
    lowerAt inWord c rest = [lowerChar c] := by
  rw [lowerAt, lowerChar, if_pos hc, if_pos hc]

theorem lowerFrom_of_isAscii {s : List Char} (hs : ∀ c ∈ s, isAscii c = true) (inWord : Bool) :
    lowerFrom inWord s = s.map lowerChar := by
  induction s generalizing inWord with
  | nil => rfl
  | cons c r ih =>
    rw [lowerFrom, lowerAt_of_isAscii (hs c (by simp)), ih fun d hd => hs d (by simp [hd])]
    rfl

theorem lower_of_isAscii {s : List Char} (hs : ∀ c ∈ s, isAscii c = true) :
    lower s = s.map lowerChar := lowerFrom_of_isAscii hs false

/-- A character that is no letter is the same in lower case, and no word goes on behind it. -/
theorem lower_cons {c : Char} (hc : isAscii c = true) (hcased : isCased c = false) (r : List Char) :
    lower (c :: r) = lowerChar c :: lower r := by
  have hword : (if isCaseIgnorable c then false else isCased c) = false := by
    rw [hcased, ite_self]
  rw [lower, lowerFrom, lowerAt_of_isAscii hc, hword]
  rfl

/-- What a sigma becomes does not depend on what stands behind a space. -/
theorem lowerAt_append_space (inWord : Bool) (c : Char) (s r : List Char) :
    lowerAt inWord c (s ++ ' ' :: r) = lowerAt inWord c s := by
  have hnext : ((s ++ ' ' :: r).dropWhile isCaseIgnorable).head?.any isCased =
      (s.dropWhile isCaseIgnorable).head?.any isCased := by
    induction s with
    | nil => rfl
    | cons d s ih =>
      rw [List.cons_append, List.dropWhile_cons, List.dropWhile_cons]
      split
      · exact ih
      · rfl
  rw [lowerAt, lowerAt, hnext]

theorem lowerFrom_append_space (inWord : Bool) (s r : List Char) :
    lowerFrom inWord (s ++ ' ' :: r) = lowerFrom inWord s ++ ' ' :: lower r := by
  induction s generalizing inWord with
  | nil => rfl
  | cons c s ih =>
    rw [List.cons_append, lowerFrom, lowerFrom, lowerAt_append_space, ih, List.append_assoc]

theorem lower_append_space (s r : List Char) : lower (s ++ ' ' :: r) = lower s ++ ' ' :: lower r :=
  lowerFrom_append_space false s r

end Schemata.Text
