import Schemata.Proofs.Json.Grammar

/-!
# Quoted texts read back

A reader of strings takes off exactly the text of a string and the closing quote, whatever comes behind
it (`readString_text`). Each character has a text by itself, so the proof goes character by character
(`IsCharText.readString`).
-/

namespace Schemata.Json

/-- A code unit that is a character is no half of a pair. -/
theorem isSurrogate_toNat (c : Char) :
    isHighSurrogate c.toNat = false ∧ isLowSurrogate c.toNat = false := by
  have hvalid : c.toNat < 0xD800 ∨ 0xDFFF < c.toNat ∧ c.toNat < 0x110000 := c.valid
  simp only [isHighSurrogate, isLowSurrogate, Bool.and_eq_false_imp, decide_eq_true_eq,
    decide_eq_false_iff_not]
  omega

theorem readString_unit {c h₁ h₂ h₃ h₄ : Char} (h : hex4? h₁ h₂ h₃ h₄ = some c.toNat)
    {t : List Char} (ht : t ≠ []) : readString ('\\' :: 'u' :: h₁ :: h₂ :: h₃ :: h₄ :: t) =
      readString.cons c (readString t) := by
  obtain ⟨d, u, rfl⟩ := List.exists_cons_of_ne_nil ht
  obtain ⟨hhigh, hlow⟩ := isSurrogate_toNat c
  have hescape : unicodeEscape (h₁ :: h₂ :: h₃ :: h₄ :: d :: u) = .ok (c, false) := by
    simp [unicodeEscape, h, hhigh, hlow, unitChar, Char.ofNat_toNat]
  rw [readString, hescape]
  rfl

/-- A character that stands for itself. -/
theorem readString_self {c : Char} (hquote : c ≠ '"') (hslash : c ≠ '\\') (hc : ¬c.toNat < 32)
    (t : List Char) : readString (c :: t) = readString.cons c (readString t) := by
  rw [readString, if_neg hc]
  · exact hquote
  · exact fun h _ => hslash h
  · exact fun _ h _ => hslash h
  · exact fun _ _ h _ => hslash h

theorem readString_pair {h₁ h₂ h₃ h₄ l₁ l₂ l₃ l₄ : Char} {high low : Nat}
    (hhigh : hex4? h₁ h₂ h₃ h₄ = some high) (hlow : hex4? l₁ l₂ l₃ l₄ = some low)
    (hishigh : isHighSurrogate high = true) (hislow : isLowSurrogate low = true) {t : List Char}
    (ht : t ≠ []) : readString ('\\' :: 'u' :: h₁ :: h₂ :: h₃ :: h₄ :: '\\' :: 'u' :: l₁ :: l₂ ::
      l₃ :: l₄ :: t) = readString.cons
        (Char.ofNat (0x10000 + 1024 * (high - 0xD800) + (low - 0xDC00))) (readString t) := by
  obtain ⟨d, u, rfl⟩ := List.exists_cons_of_ne_nil ht
  have hescape : unicodeEscape (h₁ :: h₂ :: h₃ :: h₄ :: '\\' :: 'u' :: l₁ :: l₂ :: l₃ :: l₄ :: d ::
      u) = .ok (Char.ofNat (0x10000 + 1024 * (high - 0xD800) + (low - 0xDC00)), true) := by
    simp [unicodeEscape, hhigh, hlow, hishigh, hislow]
  rw [readString, hescape]
  rfl

theorem readString_short {c d : Char} (h : shortEscape? d = some c) (t : List Char) :
    readString ('\\' :: d :: t) = readString.cons c (readString t) := by
  have hd : d ≠ 'u' := by
    rintro rfl
    cases h
  rw [readString, h]
  exact hd

/-- What is written for a character is read as the character. -/
theorem IsCharText.readString {c : Char} {s : List Char} (h : IsCharText c s) {t : List Char}
    (ht : t ≠ []) : readString (s ++ t) = readString.cons c (readString t) := by
  cases h with
  | self hquote hslash hcontrol => exact readString_self hquote hslash hcontrol t
  | short h => exact readString_short h t
  | unit h => exact readString_unit h ht
  | pair hhigh hlow hishigh hislow => exact readString_pair hhigh hlow hishigh hislow ht

/-- A string is read back from its text, and what comes behind it is left. -/
theorem readString_text {s t : List Char} (h : IsStringText s t) (r : List Char) :
    readString (t ++ '"' :: r) = .ok (s, r) := by
  induction h with
  | nil => rfl
  | cons hc _ ih =>
    rw [List.append_assoc, hc.readString (by simp), ih]
    rfl

end Schemata.Json
