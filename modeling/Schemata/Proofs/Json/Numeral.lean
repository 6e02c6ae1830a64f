import Schemata.Json.Reader
import Schemata.Proofs.Number.Decimal

/-!
# Numbers read back

A number is written as a `Numeral`: a sign, digits without a zero in front, digits behind a point, and
an exponent. The reader takes off exactly such a numeral when no further character of a number comes
behind it (`readNumber?_chars`), and a numeral with a fraction or an exponent means for it the binary
number that the same text means by itself (`ofText?_chars`). Whole numbers are written as numerals
(`intText_eq_chars`).
-/

namespace Schemata.Json

open Text

/-- The parts of a number as it is written. -/
structure Numeral where
  negative : Bool
  whole : List Char
  fraction : Option (List Char) := none
  /-- Whether the exponent is negative, and its digits. -/
  exponent : Option (Bool × List Char) := none

/-- One or more digits. -/
def IsDigits (s : List Char) : Prop := s ≠ [] ∧ ∀ c ∈ s, c.isDigit = true

/-- A text behind a minus, or by itself. -/
def signedChars (negative : Bool) (s : List Char) : List Char := if negative then '-' :: s else s

/-- What comes behind a number does not go on with it. -/
def EndsNumber (r : List Char) : Prop :=
  ∀ c ∈ r.head?, c.isDigit = false ∧ c ≠ '.' ∧ c ≠ 'e' ∧ c ≠ 'E'

namespace Numeral

def fractionChars (n : Numeral) : List Char := n.fraction.elim [] ('.' :: ·)

def exponentChars (n : Numeral) : List Char :=
  n.exponent.elim [] fun e => 'e' :: signedChars e.1 e.2

/-- A numeral without its sign. -/
def body (n : Numeral) : List Char := n.whole ++ (n.fractionChars ++ n.exponentChars)

def chars (n : Numeral) : List Char := signedChars n.negative n.body

structure IsGood (n : Numeral) : Prop where
  whole : IsDigits n.whole
  /-- A zero in front stands alone. -/
  zero : n.whole = ['0'] ∨ n.whole.head? ≠ some '0'
  fraction : ∀ ds ∈ n.fraction, IsDigits ds
  exponent : ∀ e ∈ n.exponent, IsDigits e.2

/-- The exponent that is written, or else zero. -/
def exponentValue (n : Numeral) : Int := n.exponent.elim 0 fun e => signed e.1 (digitsValue e.2)

/-- The binary number that a numeral means. -/
def binary (n : Numeral) : Binary64 :=
  .ofDecimal n.negative (digitsValue (n.whole ++ n.fraction.getD []))
    (n.exponentValue - (n.fraction.getD []).length)

/-- The value that a numeral means: a whole number, unless it has a fraction or an exponent. -/
def value (n : Numeral) : Json :=
  if n.fraction.isNone ∧ n.exponent.isNone then .int (signed n.negative (digitsValue n.whole))
  else .float n.binary

end Numeral

/-! ## Digits and signs -/

theorem isDigit_of_mem_zeros {k : Nat} {c : Char} (h : c ∈ List.replicate k '0') :
    c.isDigit = true := by
  rw [List.eq_of_mem_replicate h]
  decide

theorem IsDigits.take {s : List Char} (hs : IsDigits s) {k : Nat} (hk : k ≠ 0) :
    IsDigits (s.take k) := by
  refine ⟨fun hnil => ?_, fun c hc => hs.2 c (List.mem_of_mem_take hc)⟩
  obtain rfl | hnil := List.take_eq_nil_iff.1 hnil
  · exact hk rfl
  · exact hs.1 hnil

theorem IsDigits.drop {s : List Char} (hs : IsDigits s) {k : Nat} (hk : k < s.length) :
    IsDigits (s.drop k) := by
  refine ⟨fun hnil => ?_, fun c hc => hs.2 c (List.mem_of_mem_drop hc)⟩
  have := List.drop_eq_nil_iff.1 hnil
  omega

theorem IsDigits.exists_cons {s : List Char} (hs : IsDigits s) (r : List Char) :
    ∃ c t, s ++ r = c :: t ∧ c.isDigit = true := by
  obtain ⟨c, t, rfl⟩ := List.exists_cons_of_ne_nil hs.1
  exact ⟨c, t ++ r, rfl, hs.2 c List.mem_cons_self⟩

theorem signedChars_append (negative : Bool) (s r : List Char) :
    signedChars negative s ++ r = signedChars negative (s ++ r) := by
  cases negative <;> rfl

/-- The sign in front of a digit is taken off, if there is one. -/
theorem takeSign_signedChars {s : List Char} (hs : ∃ c t, s = c :: t ∧ c.isDigit = true)
    (negative : Bool) : takeSign (signedChars negative s) = (negative, s) := by
  obtain ⟨c, t, rfl, hc⟩ := hs
  cases negative with
  | true => rfl
  | false =>
    apply takeSign_of_head
    · exact fun h => ne_of_isDigit hc (by decide) (Option.some.inj h)
    · exact fun h => ne_of_isDigit hc (by decide) (Option.some.inj h)

/-! ## Scanning the parts -/

theorem takeWhile_digits {s r : List Char} (hs : ∀ c ∈ s, c.isDigit = true)
    (hr : ∀ c ∈ r.head?, c.isDigit = false) :
    (s ++ r).takeWhile Char.isDigit = s ∧ (s ++ r).dropWhile Char.isDigit = r := by
  rw [List.takeWhile_append_of_pos hs, List.dropWhile_append_of_pos hs]
  cases r with
  | nil => simp
  | cons c t => simp [hr c rfl]

theorem takeWhole?_append {s r : List Char} (hs : IsDigits s)
    (hzero : s = ['0'] ∨ s.head? ≠ some '0') (hr : ∀ c ∈ r.head?, c.isDigit = false) :
    takeWhole? (s ++ r) = some (s, r) := by
  obtain ⟨hne, hdigits⟩ := hs
  obtain ⟨c, t, rfl⟩ := List.exists_cons_of_ne_nil hne
  obtain h | h := hzero
  · rw [h]
    rfl
  · have hc : c ≠ '0' := fun hc => h (by rw [hc]; rfl)
    obtain ⟨htake, hdrop⟩ := takeWhile_digits (fun d hd => hdigits d (List.mem_cons_of_mem c hd)) hr
    rw [List.cons_append, takeWhole?, if_pos (hdigits c List.mem_cons_self), htake, hdrop]
    exact hc

theorem takeFraction_append {ds r : List Char} (hds : IsDigits ds)
    (hr : ∀ c ∈ r.head?, c.isDigit = false) : takeFraction ('.' :: (ds ++ r)) = (some ds, r) := by
  obtain ⟨hne, hdigits⟩ := hds
  obtain ⟨c, t, rfl⟩ := List.exists_cons_of_ne_nil hne
  obtain ⟨htake, hdrop⟩ := takeWhile_digits (fun d hd => hdigits d (List.mem_cons_of_mem c hd)) hr
  rw [List.cons_append, takeFraction, if_pos (hdigits c List.mem_cons_self), htake, hdrop]

theorem takeFraction_none {r : List Char} (hr : r.head? ≠ some '.') :
    takeFraction r = (none, r) := by
  rw [takeFraction]
  rintro c t rfl
  exact hr rfl

theorem takeExponent_append {ds r : List Char} (hds : IsDigits ds)
    (hr : ∀ c ∈ r.head?, c.isDigit = false) (negative : Bool) :
    takeExponent ('e' :: (signedChars negative ds ++ r)) =
      (some (signed negative (digitsValue ds)), r) := by
  obtain ⟨htake, hdrop⟩ := takeWhile_digits hds.2 hr
  have hhead : ((ds ++ r).head?.map Char.isDigit).getD false = true := by
    obtain ⟨c, t, ht, hc⟩ := hds.exists_cons r
    rw [ht]
    exact hc
  rw [takeExponent, if_pos (.inl rfl), signedChars_append,
    takeSign_signedChars (hds.exists_cons r)]
  simp only [hhead, if_true, htake, hdrop]

theorem takeExponent_none {r : List Char} (he : r.head? ≠ some 'e') (hE : r.head? ≠ some 'E') :
    takeExponent r = (none, r) := by
  cases r with
  | nil => rfl
  | cons c t =>
    have hc : ¬(c = 'e' ∨ c = 'E') := by
      rintro (rfl | rfl)
      · exact he rfl
      · exact hE rfl
    rw [takeExponent, if_neg hc]

/-! ## Reading a numeral -/

namespace Numeral

variable {n : Numeral}

/-- The parts behind the digits start with no digit. -/
theorem head_tail {r : List Char} (hr : EndsNumber r) :
    (∀ c ∈ (n.exponentChars ++ r).head?, c.isDigit = false ∧ c ≠ '.') ∧
      ∀ c ∈ (n.fractionChars ++ (n.exponentChars ++ r)).head?, c.isDigit = false := by
  have hexp : ∀ c ∈ (n.exponentChars ++ r).head?, c.isDigit = false ∧ c ≠ '.' := by
    unfold exponentChars
    cases n.exponent with
    | none => exact fun c hc => ⟨(hr c hc).1, (hr c hc).2.1⟩
    | some e =>
      rintro c ⟨⟩
      decide
  refine ⟨hexp, ?_⟩
  unfold fractionChars
  cases n.fraction with
  | none => exact fun c hc => (hexp c hc).1
  | some ds =>
    rintro c ⟨⟩
    decide

theorem takeFraction_chars (h : n.IsGood) {r : List Char} (hr : EndsNumber r) :
    takeFraction (n.fractionChars ++ (n.exponentChars ++ r)) =
      (n.fraction, n.exponentChars ++ r) := by
  have hexp := (head_tail (n := n) hr).1
  unfold fractionChars
  cases hf : n.fraction with
  | none => exact takeFraction_none fun hdot => (hexp '.' hdot).2 rfl
  | some ds => exact takeFraction_append (h.fraction ds hf) fun c hc => (hexp c hc).1

theorem takeExponent_chars (h : n.IsGood) {r : List Char} (hr : EndsNumber r) :
    takeExponent (n.exponentChars ++ r) =
      (n.exponent.map fun e => signed e.1 (digitsValue e.2), r) := by
  unfold exponentChars
  cases he : n.exponent with
  | none => exact takeExponent_none (fun hc => (hr _ hc).2.2.1 rfl) fun hc => (hr _ hc).2.2.2 rfl
  | some e => exact takeExponent_append (h.exponent e he) (fun c hc => (hr c hc).1) e.1

theorem body_append (n : Numeral) (r : List Char) :
    n.body ++ r = n.whole ++ (n.fractionChars ++ (n.exponentChars ++ r)) := by
  rw [body, List.append_assoc, List.append_assoc]

/-- A numeral without its sign starts with a digit. -/
theorem exists_body_cons (h : n.IsGood) (r : List Char) :
    ∃ c t, n.body ++ r = c :: t ∧ c.isDigit = true := by
  rw [body_append]
  exact h.whole.exists_cons _

/-- A numeral is read as its value, and what comes behind it is left. -/
theorem readNumber?_chars (h : n.IsGood) {r : List Char} (hr : EndsNumber r) :
    readNumber? (n.chars ++ r) = some (n.value, r) := by
  have hwhole : takeWhole? (n.body ++ r) =
      some (n.whole, n.fractionChars ++ (n.exponentChars ++ r)) := by
    rw [body_append]
    exact takeWhole?_append h.whole h.zero (head_tail hr).2
  have hvalue : (n.exponent.map fun e => signed e.1 (digitsValue e.2)).getD 0 =
      n.exponentValue := by
    unfold exponentValue
    cases n.exponent <;> rfl
  have hsign : ∀ t, n.body ++ r ≠ '-' :: t := by
    intro t ht
    obtain ⟨c, u, hu, hc⟩ := exists_body_cons h r
    cases hu.symm.trans ht
    exact absurd hc (by decide)
  rw [chars, signedChars_append]
  unfold readNumber? value binary signedChars
  cases n.negative with
  | true =>
    simp only [if_true, hwhole, Option.map_some, takeFraction_chars h hr, takeExponent_chars h hr,
      Option.isNone_map, hvalue]
    split <;> rfl
  | false =>
    simp only [Bool.false_eq_true, if_false, hwhole, Option.map_some, takeFraction_chars h hr,
      takeExponent_chars h hr, Option.isNone_map, hvalue]
    -- The split looks for a minus in front, which `hsign` rules out.
    split <;> rfl

/-- A numeral starts with its sign or with a digit, and is no word. -/
theorem exists_chars_cons (h : n.IsGood) (r : List Char) : ∃ c t, n.chars ++ r = c :: t ∧
    (c = '-' ∨ c.isDigit = true) ∧ readWord? (n.chars ++ r) = none := by
  obtain ⟨c, t, ht, hc⟩ := exists_body_cons h r
  have hword : ∀ d, d.isDigit = false → d ≠ c := fun d hd => (ne_of_isDigit hc hd).symm
  rw [chars, signedChars_append, ht]
  cases n.negative with
  | true =>
    refine ⟨'-', c :: t, rfl, .inl rfl, ?_⟩
    simp (disch := decide) [signedChars, readWord?, wordValues, hword]
  | false =>
    refine ⟨c, t, rfl, .inr hc, ?_⟩
    simp (disch := decide) [signedChars, readWord?, wordValues, hword]

/-- A numeral is taken, unless it is a whole number that is too long. -/
theorem readValue_chars (h : n.IsGood) {r : List Char} (hr : EndsNumber r) (limit : Option Nat)
    (fuel : Nat) : readValue limit (fuel + 1) (n.chars ++ r) =
      (scalarFlaw? limit n.value).elim (.ok (n.value, r)) .error := by
  obtain ⟨c, t, ht, hc, hword⟩ := exists_chars_cons h r
  have hne : ∀ d, d ≠ '-' → d.isDigit = false → ∀ u, n.chars ++ r ≠ d :: u := by
    intro d hminus hd u hu
    cases ht.symm.trans hu
    obtain hc | hc := hc
    · exact hminus hc
    · exact absurd hc (by simp [hd])
  rw [readValue, hword, readNumber?_chars h hr]
  · rfl
  · exact hne '"' (by decide) (by decide)
  · exact hne '\x7b' (by decide) (by decide)
  · exact hne '[' (by decide) (by decide)

theorem exponent?_exponentChars (h : n.IsGood) :
    Decimal.exponent? n.exponentChars = some n.exponentValue := by
  unfold exponentChars exponentValue
  cases he : n.exponent with
  | none => rfl
  | some e =>
    have hds := h.exponent e he
    have hnumeral : isNumeral e.2 = true := by
      simp only [isNumeral, Bool.and_eq_true, Bool.not_eq_true', List.isEmpty_eq_false_iff,
        List.all_eq_true]
      exact ⟨hds.1, fun c hc => isDigit_of_charIsDigit (hds.2 c hc)⟩
    have hhead := hds.exists_cons []
    rw [List.append_nil] at hhead
    rw [Option.elim_some, Option.elim_some, Decimal.exponent?, if_pos (.inl rfl),
      takeSign_signedChars hhead]
    simp only [hnumeral, if_true]

/-- The text of a numeral means the binary number of its parts. -/
theorem ofText?_chars (h : n.IsGood) : Binary64.ofText? n.chars = some n.binary := by
  have hexp : ∀ c ∈ n.exponentChars.head?, isDigit c = false := by
    unfold exponentChars
    cases n.exponent with
    | none => simp
    | some e =>
      rintro c ⟨⟩
      decide
  have hdot : n.exponentChars.head? ≠ some '.' := by
    unfold exponentChars
    cases n.exponent <;> simp
  have hmantissa : Decimal.takeMantissa n.body =
      (n.whole, n.fraction.getD [], n.exponentChars) := by
    unfold body fractionChars
    cases hf : n.fraction with
    | none => exact Decimal.takeMantissa_whole h.whole.2 hexp hdot
    | some ds => exact Decimal.takeMantissa_point h.whole.2 (h.fraction ds hf).2 hexp
  have hsign : takeSign n.chars = (n.negative, n.body) := by
    have hhead := exists_body_cons h []
    rw [List.append_nil] at hhead
    exact takeSign_signedChars hhead n.negative
  have hempty : n.whole.isEmpty = false := List.isEmpty_eq_false_iff.2 h.whole.1
  rw [Binary64.ofText?, Decimal.parts?, hsign]
  simp only [hmantissa, hempty, Bool.false_and, Bool.false_eq_true, if_false,
    exponent?_exponentChars h, Option.map_some]
  rfl

end Numeral

/-! ## Whole numbers -/

theorem isDigits_toDigits (n : Nat) : IsDigits (Nat.toDigits 10 n) :=
  ⟨Nat.toDigits_ne_nil, fun _ hc => isDigit_of_mem_toDigits hc⟩

/-- Only zero is written with a zero in front. -/
theorem head?_toDigits_ne_zero {n : Nat} (hn : n ≠ 0) : (Nat.toDigits 10 n).head? ≠ some '0' := by
  induction n using Nat.strongRecOn with
  | ind n ih =>
    rw [Nat.toDigits_eq_if (by decide)]
    split
    · next hlt =>
      have hdigit : ∀ k < 10, k ≠ 0 → k.digitChar ≠ '0' := by decide
      intro h
      exact hdigit n hlt hn (Option.some.inj h)
    · rw [List.head?_append_of_ne_nil _ Nat.toDigits_ne_nil]
      exact ih (n / 10) (by omega) (by omega)

/-- A whole number is written as a numeral without a fraction and an exponent. -/
theorem intText_eq_chars (n : Int) : (intText n).toList =
    ({ negative := decide (n < 0), whole := Nat.toDigits 10 n.natAbs } : Numeral).chars := by
  have hbody : (⟨decide (n < 0), Nat.toDigits 10 n.natAbs, none, none⟩ : Numeral).body =
      Nat.toDigits 10 n.natAbs := by simp [Numeral.body, Numeral.fractionChars, Numeral.exponentChars]
  rw [Numeral.chars, hbody, signedChars, intText]
  by_cases hn : n < 0 <;> simp [hn, natText]

theorem zero_or_head?_toDigits (n : Nat) :
    Nat.toDigits 10 n = ['0'] ∨ (Nat.toDigits 10 n).head? ≠ some '0' := by
  by_cases hn : n = 0
  · exact .inl (by rw [hn, Nat.toDigits_zero])
  · exact .inr (head?_toDigits_ne_zero hn)

theorem exists_intText_eq (i : Int) :
    ∃ n : Numeral, n.IsGood ∧ n.value = .int i ∧ (intText i).toList = n.chars := by
  refine ⟨_, ⟨isDigits_toDigits _, zero_or_head?_toDigits _, by simp, by simp⟩, ?_,
    intText_eq_chars i⟩
  simp only [Numeral.value, Option.isNone_none, and_self, if_true, digitsValue_toDigits,
    signed_natAbs]

end Schemata.Json
