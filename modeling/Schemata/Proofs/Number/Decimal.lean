import Mathlib.Data.List.Basic
import Mathlib.Tactic.Common
import Schemata.Number.Decimal

/-!
# Numerals read back

What `intText` and `Decimal.chars` write is read as the number it was written for. Digits are
written in ASCII, so the reader's digits of other scripts do not matter here: on ASCII digits
`digitsValue` is `Nat.ofDigitChars`.
-/

namespace Schemata.Text

theorem isAscii_of_isDigit {c : Char} (h : c.isDigit = true) : isAscii c = true := by
  have h' : 48 ≤ c.toNat ∧ c.toNat ≤ 57 := by
    simp only [Char.isDigit, Bool.and_eq_true, decide_eq_true_eq, UInt32.le_iff_toNat_le] at h
    exact h
  exact decide_eq_true (by omega)

theorem digitValue?_of_isDigit {c : Char} (h : c.isDigit = true) :
    digitValue? c = some (c.toNat - 48) := by
  rw [digitValue?, if_pos (isAscii_of_isDigit h), if_pos h]

theorem isDigit_of_charIsDigit {c : Char} (h : c.isDigit = true) : isDigit c = true := by
  rw [isDigit, digitValue?_of_isDigit h]
  rfl

theorem foldl_digits_eq_ofDigitChars {s : List Char} (h : ∀ c ∈ s, c.isDigit = true) (n : Nat) :
    s.foldl (fun n c => 10 * n + (digitValue? c).getD 0) n = Nat.ofDigitChars 10 s n := by
  induction s generalizing n with
  | nil => simp
  | cons c r ih =>
    rw [List.foldl_cons, Nat.ofDigitChars_cons, digitValue?_of_isDigit (h c (by simp)),
      ih fun d hd => h d (by simp [hd])]
    rfl

theorem digitsValue_eq_ofDigitChars {s : List Char} (h : ∀ c ∈ s, c.isDigit = true) :
    digitsValue s = Nat.ofDigitChars 10 s 0 := foldl_digits_eq_ofDigitChars h 0

theorem isDigit_of_mem_toDigits {n : Nat} {c : Char} (h : c ∈ Nat.toDigits 10 n) :
    c.isDigit = true := Nat.isDigit_of_mem_toDigits (by decide) (by decide) h

theorem digitsValue_toDigits (n : Nat) : digitsValue (Nat.toDigits 10 n) = n := by
  rw [digitsValue_eq_ofDigitChars fun c hc => isDigit_of_mem_toDigits hc,
    Nat.ofDigitChars_ten_toDigits]

theorem isNumeral_toDigits (n : Nat) : isNumeral (Nat.toDigits 10 n) = true := by
  simp only [isNumeral, Bool.and_eq_true, Bool.not_eq_true', List.isEmpty_eq_false_iff,
    List.all_eq_true]
  exact ⟨Nat.toDigits_ne_nil, fun c hc => isDigit_of_charIsDigit (isDigit_of_mem_toDigits hc)⟩

/-- A digit is no sign, no point and no letter. -/
theorem ne_of_isDigit {c d : Char} (hc : c.isDigit = true) (hd : d.isDigit = false) : c ≠ d := by
  rintro rfl
  simp [hc] at hd

theorem takeSign_of_head {s : List Char} (h₁ : s.head? ≠ some '-') (h₂ : s.head? ≠ some '+') :
    takeSign s = (false, s) := by
  rw [takeSign]
  · rintro r rfl
    exact h₁ rfl
  · rintro r rfl
    exact h₂ rfl

theorem head?_toDigits_ne (n : Nat) {d : Char} (hd : d.isDigit = false) :
    (Nat.toDigits 10 n).head? ≠ some d := fun h =>
  ne_of_isDigit (isDigit_of_mem_toDigits (List.mem_of_head? h)) hd rfl

theorem takeSign_toDigits (n : Nat) :
    takeSign (Nat.toDigits 10 n) = (false, Nat.toDigits 10 n) :=
  takeSign_of_head (head?_toDigits_ne n (by decide)) (head?_toDigits_ne n (by decide))

/-- The sign and the digits of a whole number as it is written. -/
theorem takeSign_intText (n : Int) :
    takeSign (intText n).toList = (decide (n < 0), Nat.toDigits 10 n.natAbs) := by
  rw [intText]
  split_ifs with h
  · simp [natText, h, takeSign]
  · simp [natText, h, takeSign_toDigits]

theorem signed_natAbs (n : Int) : signed (decide (n < 0)) n.natAbs = n := by
  rw [signed]
  by_cases h : n < 0
  · simp only [h, decide_true, if_true]
    omega
  · simp only [h, decide_false, Bool.false_eq_true, if_false]
    omega

theorem mem_intText {n : Int} {c : Char} (h : c ∈ (intText n).toList) :
    c = '-' ∨ c.isDigit = true := by
  rw [intText] at h
  split_ifs at h
  · simp only [String.toList_append, natText, String.toList_ofList, List.mem_append] at h
    rcases h with h | h
    · exact .inl (by simpa using h)
    · exact .inr (isDigit_of_mem_toDigits h)
  · simp only [natText, String.toList_ofList] at h
    exact .inr (isDigit_of_mem_toDigits h)

end Schemata.Text

namespace Schemata.Decimal

open Text

/-- The decimals whose exponents are within the bounds of the format. -/
def IsBounded : Decimal → Prop
  | .finite negative c e => bounded? negative c e = some (.finite negative c e)
  | _ => False

theorem IsBounded.finite {d : Decimal} (h : d.IsBounded) :
    ∃ negative c e, d = .finite negative c e := by
  cases d with
  | finite negative c e => exact ⟨negative, c, e, rfl⟩
  | infinite _ => exact h.elim
  | nan => exact h.elim

/-! ## Reading the parts -/

theorem takeWhile_isDigit_append {s r : List Char} (hs : ∀ c ∈ s, c.isDigit = true)
    (hr : ∀ c ∈ r.head?, isDigit c = false) :
    (s ++ r).takeWhile isDigit = s ∧ (s ++ r).dropWhile isDigit = r := by
  have hs' : ∀ c ∈ s, isDigit c = true := fun c hc => isDigit_of_charIsDigit (hs c hc)
  rw [List.takeWhile_append_of_pos hs', List.dropWhile_append_of_pos hs']
  cases r with
  | nil => simp
  | cons c t => simp [hr c rfl]

theorem takeMantissa_point {whole fraction r : List Char}
    (hw : ∀ c ∈ whole, c.isDigit = true) (hf : ∀ c ∈ fraction, c.isDigit = true)
    (hr : ∀ c ∈ r.head?, isDigit c = false) :
    takeMantissa (whole ++ '.' :: (fraction ++ r)) = (whole, fraction, r) := by
  obtain ⟨h₁, h₂⟩ := takeWhile_isDigit_append hw (r := '.' :: (fraction ++ r))
    (by rintro c ⟨⟩; decide)
  obtain ⟨h₃, h₄⟩ := takeWhile_isDigit_append hf hr
  simp only [takeMantissa, h₁, h₂, h₃, h₄]

theorem takeMantissa_whole {whole r : List Char} (hw : ∀ c ∈ whole, c.isDigit = true)
    (hr : ∀ c ∈ r.head?, isDigit c = false) (hp : r.head? ≠ some '.') :
    takeMantissa (whole ++ r) = (whole, [], r) := by
  obtain ⟨h₁, h₂⟩ := takeWhile_isDigit_append hw hr
  rw [takeMantissa, h₁, h₂]
  split
  · next r => exact absurd rfl hp
  · rfl

/-- The exponent behind a mantissa, as it is written. -/
def exponentChars (a : Int) : List Char :=
  'E' :: (if a < 0 then '-' else '+') :: Nat.toDigits 10 a.natAbs

theorem exponent?_exponentChars (a : Int) : exponent? (exponentChars a) = some a := by
  have hsign : takeSign ((if a < 0 then '-' else '+') :: Nat.toDigits 10 a.natAbs) =
      (decide (a < 0), Nat.toDigits 10 a.natAbs) := by
    split_ifs with h <;> simp [takeSign, h]
  rw [exponentChars, exponent?, if_pos (.inr rfl), hsign]
  simp only [isNumeral_toDigits, if_true, digitsValue_toDigits, signed_natAbs]

/-! ## Reading a decimal -/

/-- A mantissa with `places` digits behind its point, as `plain` writes it. -/
theorem takeMantissa_plain {digits : List Char} (hd : ∀ c ∈ digits, c.isDigit = true)
    (hne : digits ≠ []) (places : Nat) :
    ∃ whole fraction, takeMantissa (plain digits places) = (whole, fraction, []) ∧
      fraction.length = places ∧
      (whole ++ fraction = List.replicate (places + 1 - digits.length) '0' ++ digits ∨
        whole ++ fraction = digits) ∧ whole ≠ [] := by
  rw [plain]
  split_ifs with h
  · refine ⟨digits, [], ?_, h.symm, .inr (List.append_nil _), hne⟩
    simpa using takeMantissa_whole hd (r := []) (by simp) (by simp)
  · set filled := List.replicate (places + 1 - digits.length) '0' ++ digits with hfilled
    have hmem : ∀ c ∈ filled, c.isDigit = true := by
      intro c hc
      rcases List.mem_append.1 hc with hc | hc
      · rw [List.eq_of_mem_replicate hc]
        decide
      · exact hd c hc
    have hlen : places + 1 ≤ filled.length := by
      rw [hfilled, List.length_append, List.length_replicate]
      omega
    refine ⟨filled.take (filled.length - places), filled.drop (filled.length - places), ?_, ?_,
      .inl (List.take_append_drop _ _), ?_⟩
    · simpa using takeMantissa_point (fun c hc => hmem c (List.mem_of_mem_take hc))
        (fun c hc => hmem c (List.mem_of_mem_drop hc)) (r := []) (by simp)
    · rw [List.length_drop]
      omega
    · intro h₀
      have := congrArg List.length h₀
      rw [List.length_take, List.length_nil] at this
      omega

theorem digitsValue_replicate_append {s : List Char} (hs : ∀ c ∈ s, c.isDigit = true) (k : Nat) :
    digitsValue (List.replicate k '0' ++ s) = digitsValue s := by
  have h : ∀ c ∈ List.replicate k '0' ++ s, c.isDigit = true := by
    intro c hc
    rcases List.mem_append.1 hc with hc | hc
    · rw [List.eq_of_mem_replicate hc]
      decide
    · exact hs c hc
  rw [digitsValue_eq_ofDigitChars h, digitsValue_eq_ofDigitChars hs, Nat.ofDigitChars_append]
  simp

theorem scientific_eq {digits : List Char} (hd : digits ≠ []) (a : Int) :
    ∃ d fraction, digits = d :: fraction ∧ scientific digits a =
      (if fraction = [] then [d] else d :: '.' :: fraction) ++ exponentChars a := by
  match digits, hd with
  | [d], _ => exact ⟨d, [], rfl, rfl⟩
  | d :: e :: r, _ => exact ⟨d, e :: r, rfl, rfl⟩

/-- The digits and the exponent of the text of a number without its sign. -/
theorem parts?_body {digits : List Char} (hd : ∀ c ∈ digits, c.isDigit = true) (hne : digits ≠ [])
    (e : Int) {body : List Char}
    (hbody : (body = plain digits e.natAbs ∧ e ≤ 0) ∨
      body = scientific digits (e + digits.length - 1)) :
    ∃ whole fraction rest, takeMantissa body = (whole, fraction, rest) ∧ whole ≠ [] ∧
      digitsValue (whole ++ fraction) = digitsValue digits ∧
      (exponent? rest).map (· - (fraction.length : Int)) = some e := by
  rcases hbody with ⟨rfl, he⟩ | rfl
  · obtain ⟨whole, fraction, hm, hlen, hall, hwhole⟩ := takeMantissa_plain hd hne e.natAbs
    refine ⟨whole, fraction, [], hm, hwhole, ?_, ?_⟩
    · rcases hall with h | h
      · rw [h, digitsValue_replicate_append hd]
      · rw [h]
    · simp only [exponent?, Option.map_some, hlen]
      congr 1
      omega
  · obtain ⟨d, fraction, rfl, hs⟩ := scientific_eq hne (e + digits.length - 1)
    have hrest : ∀ c ∈ (exponentChars (e + (d :: fraction).length - 1)).head?, isDigit c = false := by
      rintro c ⟨⟩
      decide
    refine ⟨[d], fraction, exponentChars (e + (d :: fraction).length - 1), ?_, by simp, rfl, ?_⟩
    · rw [hs]
      by_cases hf : fraction = []
      · rw [if_pos hf, hf]
        exact takeMantissa_whole (by simpa using hd d (by simp)) hrest (by simp [exponentChars])
      · rw [if_neg hf]
        exact takeMantissa_point (show ∀ c ∈ [d], c.isDigit = true by simpa using hd d (by simp))
          (fun c hc => hd c (by simp [hc])) hrest
    · rw [exponent?_exponentChars, Option.map_some]
      simp only [List.length_cons]
      congr 1
      omega

/-- The text of a finite decimal gives back its sign, its digits and its exponent. -/
theorem parts?_chars (negative : Bool) (c : Nat) (e : Int) :
    parts? (finite negative c e).chars = some (negative, c, e) := by
  set digits := Nat.toDigits 10 c with hdigits
  have hd : ∀ x ∈ digits, x.isDigit = true := fun x hx => isDigit_of_mem_toDigits hx
  obtain ⟨body, hbody, hchars⟩ : ∃ body, ((body = plain digits e.natAbs ∧ e ≤ 0) ∨
      body = scientific digits (e + digits.length - 1)) ∧
      (finite negative c e).chars = if negative then '-' :: body else body := by
    refine ⟨_, ?_, rfl⟩
    split_ifs with h
    · exact .inl ⟨rfl, h.1⟩
    · exact .inr rfl
  obtain ⟨whole, fraction, rest, hm, hwhole, hvalue, hexp⟩ :=
    parts?_body hd Nat.toDigits_ne_nil e hbody
  have head : ∀ x, isDigit x = false → body.head? ≠ some x := fun x hx hh => by
    obtain ⟨r, hr⟩ : ∃ r, body = x :: r := by
      cases body with
      | nil => simp at hh
      | cons y r => exact ⟨r, by simpa using hh⟩
    have : (takeMantissa body).1 = [] := by
      rw [takeMantissa, hr]
      split <;> simp [hx]
    rw [hm] at this
    exact hwhole this
  have hsign : takeSign (finite negative c e).chars = (negative, body) := by
    rw [hchars]
    cases negative with
    | true => rfl
    | false =>
      exact takeSign_of_head (head '-' (by decide)) (head '+' (by decide))
  obtain ⟨a, ha, hae⟩ := Option.map_eq_some_iff.1 hexp
  rw [parts?, hsign]
  simp only [hm, List.isEmpty_eq_false_iff.2 hwhole, Bool.false_and, Bool.false_eq_true, if_false,
    ha, Option.map_some, hvalue, hae, hdigits, digitsValue_toDigits]

theorem ofText?_chars {d : Decimal} (h : d.IsBounded) : ofText? d.chars = some d := by
  cases d with
  | finite negative c e =>
    rw [ofText?, parts?_chars]
    exact h
  | infinite negative => exact h.elim
  | nan => exact h.elim

end Schemata.Decimal
