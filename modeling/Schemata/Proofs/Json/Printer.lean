import Mathlib.Tactic.SplitIfs
import Schemata.Json.Printer
import Schemata.Proofs.Json.Grammar
import Schemata.Proofs.Number.Shortest

/-!
# What is printed is a text

`Json.write` gives a text of a value in any style and at any depth (`isText_write`), and a finite number
is printed as a numeral with a fraction or an exponent (`exists_floatChars_eq`).
-/

namespace Schemata.Json

open Text

/-! ## Binary numbers -/

variable (negative : Bool)

/-- Plain notation is a numeral with a fraction. -/
theorem exists_plain_eq (c : Nat) {places : Nat} (hplaces : places ≠ 0) :
    ∃ whole fraction, Decimal.plain (Nat.toDigits 10 c) places = whole ++ '.' :: fraction ∧
      (⟨negative, whole, some fraction, none⟩ : Numeral).IsGood := by
  set digits := Nat.toDigits 10 c with hdigits
  set filled := List.replicate (places + 1 - digits.length) '0' ++ digits with hfilled
  have hlength : filled.length = (places + 1 - digits.length) + digits.length := by
    rw [hfilled, List.length_append, List.length_replicate]
  have hgood : IsDigits filled := by
    refine ⟨fun hnil => ?_, fun d hd => ?_⟩
    · rw [hnil, List.length_nil] at hlength
      omega
    · obtain hd | hd := List.mem_append.1 hd
      · exact isDigit_of_mem_zeros hd
      · exact (isDigits_toDigits c).2 d hd
  have hzero : filled.take (filled.length - places) = ['0'] ∨
      (filled.take (filled.length - places)).head? ≠ some '0' := by
    by_cases hlt : places < digits.length
    · -- No zeros are filled in, and the first digit is the first one of the number.
      have hsame : filled = digits := by
        rw [hfilled, show places + 1 - digits.length = 0 by omega]
        rfl
      have hc : c ≠ 0 := by
        rintro rfl
        rw [hdigits, Nat.toDigits_zero, List.length_singleton] at hlt
        omega
      rw [hsame, List.head?_take, if_neg (by omega)]
      exact .inr (head?_toDigits_ne_zero hc)
    · rw [show filled.length - places = 1 by omega, hfilled,
        show places + 1 - digits.length = (places - digits.length) + 1 by omega]
      exact .inl rfl
  refine ⟨filled.take (filled.length - places), filled.drop (filled.length - places), ?_,
    hgood.take (by omega), hzero, ?_, by simp⟩
  · rw [Decimal.plain, if_neg hplaces]
  · rintro ds ⟨⟩
    exact hgood.drop (by omega)

theorem exists_positional_eq {c : Nat} {p : Int} (h : c ≠ 0 ∨ p = 0) :
    ∃ whole fraction,
      Binary64.positional (Nat.toDigits 10 c) p = whole ++ '.' :: fraction ∧
        (⟨negative, whole, some fraction, none⟩ : Numeral).IsGood := by
  unfold Binary64.positional
  split
  · next hp =>
    obtain ⟨hne, hdigits⟩ := isDigits_toDigits c
    refine ⟨Nat.toDigits 10 c ++ List.replicate p.toNat '0', ['0'], ?_, ⟨?_, ?_⟩, ?_, ?_, by simp⟩
    · simp
    · simp [hne]
    · intro d hd
      obtain hd | hd := List.mem_append.1 hd
      · exact hdigits d hd
      · exact isDigit_of_mem_zeros hd
    · by_cases hc : c = 0
      · rw [hc, h.resolve_left (not_not.2 hc), Nat.toDigits_zero]
        exact .inl rfl
      · rw [List.head?_append_of_ne_nil _ hne]
        exact .inr (head?_toDigits_ne_zero hc)
    · rintro ds ⟨⟩
      exact ⟨by simp, by simp⟩
  · exact exists_plain_eq negative c (by omega)

theorem padded_one (n : Nat) : (padded 1 n).toList = Nat.toDigits 10 n := by
  have := Nat.length_toDigits_pos (b := 10) (n := n)
  rw [padded, String.toList_ofList, show 1 - (Nat.toDigits 10 n).length = 0 by omega]
  rfl

/-- Scientific notation is a numeral with an exponent. -/
theorem exists_scientific_eq {c : Nat} (hc : c ≠ 0) (a : Int) :
    ∃ n : Numeral, n.IsGood ∧ n.exponent.isSome ∧ n.negative = negative ∧
      Binary64.mantissa (Nat.toDigits 10 c) ++
        ((if a < 0 then ['e', '-'] else ['e']) ++ Nat.toDigits 10 a.natAbs) = n.body := by
  obtain ⟨hne, hdigits⟩ := isDigits_toDigits c
  have hhead := head?_toDigits_ne_zero hc
  have hexponent : ∀ x ∈ some (decide (a < 0), Nat.toDigits 10 a.natAbs), IsDigits x.2 := by
    rintro x ⟨⟩
    exact isDigits_toDigits _
  have hmark : (if a < 0 then ['e', '-'] else ['e']) ++ Nat.toDigits 10 a.natAbs =
      'e' :: signedChars (decide (a < 0)) (Nat.toDigits 10 a.natAbs) := by
    by_cases ha : a < 0 <;> simp [ha, signedChars]
  rw [hmark]
  rcases hd : Nat.toDigits 10 c with _ | ⟨d, _ | ⟨f, r⟩⟩
  · exact absurd hd hne
  · rw [hd] at hdigits hhead
    refine ⟨⟨negative, [d], none, some (decide (a < 0), Nat.toDigits 10 a.natAbs)⟩,
      ⟨⟨by simp, hdigits⟩, .inr hhead, by simp, hexponent⟩, rfl, rfl, rfl⟩
  · rw [hd] at hdigits hhead
    have hwhole : ∀ x ∈ [d], x.isDigit = true := by
      intro x hx
      exact hdigits x (by rw [List.mem_singleton.1 hx]; exact List.mem_cons_self)
    refine ⟨⟨negative, [d], some (f :: r), some (decide (a < 0), Nat.toDigits 10 a.natAbs)⟩,
      ⟨⟨by simp, hwhole⟩, .inr hhead, ?_, hexponent⟩, rfl, rfl, rfl⟩
    rintro ds ⟨⟩
    exact ⟨by simp, fun x hx => hdigits x (List.mem_cons_of_mem d hx)⟩

variable {negative} in
theorem floatChars_eq_chars {m : Nat} {e : Int} (body : String) {n : Numeral}
    (hwrite : (Binary64.finite negative m e).write layout =
      if negative then "-" ++ body else body)
    (hnegative : n.negative = negative) (hbody : body.toList = n.body) :
    floatChars (.finite negative m e) = n.chars := by
  rw [floatChars, hwrite, Numeral.chars, hnegative, ← hbody]
  cases negative <;> simp [signedChars]

/-- A finite number is written as a numeral with a fraction or an exponent. -/
theorem exists_floatChars_eq (m : Nat) (e : Int) : ∃ n : Numeral, n.IsGood ∧
    ¬(n.fraction.isNone ∧ n.exponent.isNone) ∧ floatChars (.finite negative m e) = n.chars := by
  have hdigits := Binary64.shortest_ne_zero_or negative m e
  obtain ⟨c, p, hshortest⟩ : ∃ c p, Binary64.shortest negative m e = (c, p) := ⟨_, _, rfl⟩
  rw [hshortest] at hdigits
  set a : Int := p + (Nat.toDigits 10 c).length - 1 with ha
  by_cases hc : c = 0 ∨ (layout.lowest ≤ a ∧ a ≤ layout.highest)
  · obtain ⟨whole, fraction, hplain, hgood⟩ := exists_positional_eq negative hdigits
    refine ⟨_, hgood, by simp,
      floatChars_eq_chars (.ofList (Binary64.positional (Nat.toDigits 10 c) p)) ?_ rfl ?_⟩
    · unfold Binary64.write
      simp only [hshortest, ← ha]
      exact congrArg (fun body => if negative then "-" ++ body else body) (if_pos hc)
    · rw [hplain, String.toList_ofList]
      simp [Numeral.body, Numeral.fractionChars, Numeral.exponentChars]
  · obtain ⟨n, hgood, hsome, hnegative, hbody⟩ := exists_scientific_eq negative (not_or.1 hc).1 a
    refine ⟨n, hgood, by simp [Option.isSome_iff_ne_none.1 hsome],
      floatChars_eq_chars (.ofList (Binary64.mantissa (Nat.toDigits 10 c)) ++
        (if a < 0 then "e-" else layout.positive) ++ padded layout.width a.natAbs)
        ?_ hnegative ?_⟩
    · unfold Binary64.write
      simp only [hshortest, ← ha]
      exact congrArg (fun body => if negative then "-" ++ body else body) (if_neg hc)
    · have hmark : (if a < 0 then "e-" else layout.positive).toList =
          if a < 0 then ['e', '-'] else ['e'] := by split <;> rfl
      rw [← hbody, String.toList_append, String.toList_append, String.toList_ofList, hmark,
        show layout.width = 1 from rfl, padded_one, List.append_assoc]

/-! ## Strings -/

/-- The characters that are written by four hexadecimal digits are read back from them. -/
theorem hex4?_hexPadded : ∀ n < 32,
    hexPadded 4 n = ['0', '0', (n / 16).digitChar, (n % 16).digitChar] ∧
      hex4? '0' '0' (n / 16).digitChar (n % 16).digitChar = some n := by decide +kernel

theorem isCharText_escapeChar (c : Char) : IsCharText c (escapeChar c) := by
  unfold escapeChar
  split_ifs with hself hfeed hreturn htab hback hform hcontrol
  · obtain rfl | rfl := hself <;> exact .short rfl
  · exact hfeed ▸ .short rfl
  · exact hreturn ▸ .short rfl
  · exact htab ▸ .short rfl
  · exact hback ▸ .short rfl
  · exact hform ▸ .short rfl
  · obtain ⟨hdigits, hvalue⟩ := hex4?_hexPadded c.toNat hcontrol
    rw [hdigits]
    exact .unit hvalue
  · rw [not_or] at hself
    exact .self hself.1 hself.2 hcontrol

theorem isStringText_flatMap (s : List Char) : IsStringText s (s.flatMap escapeChar) := by
  induction s with
  | nil => exact .nil
  | cons c s ih => exact .cons (isCharText_escapeChar c) ih

/-! ## Values -/

theorem isBlanks_newline (style : Style) (depth : Nat) : IsBlanks (style.newline depth) := by
  intro d hd
  cases style with
  | compact => exact absurd hd List.not_mem_nil
  | indented spaces =>
    obtain rfl | hd := List.mem_cons.1 hd
    · rfl
    · rw [List.eq_of_mem_replicate hd]
      rfl

theorem isBlanks_nil : IsBlanks [] := by simp [IsBlanks]

theorem isMember_quote (style : Style) {floatText : Binary64 → List Char} (key : String) {v : Json}
    {t : List Char} (hv : IsText floatText v t) :
    IsMember floatText key v (quote key ++ (style.colon ++ t)) := by
  have hkey := isStringText_flatMap key.toList
  rw [quote, List.cons_append, List.append_assoc, List.singleton_append]
  cases style with
  | compact => exact .mk hkey isBlanks_nil isBlanks_nil hv
  | indented spaces =>
    have hspace : IsBlanks [' '] := by simp [IsBlanks, isSpace]
    exact .mk hkey isBlanks_nil hspace hv

mutual

/-- What is written for a value is a text of it. -/
theorem isText_write (style : Style) : (depth : Nat) → (v : Json) →
    IsText floatChars v (write style depth v)
  | depth, null => by rw [write]; exact .null
  | depth, bool b => by rw [write]; exact .bool b
  | depth, int n => by rw [write]; exact .int n
  | depth, float x => by rw [write]; exact .float x
  | depth, str s => by
    rw [write]
    exact .str (isStringText_flatMap s.toList)
  | depth, arr [] => by
    rw [write]
    exact .arr_nil isBlanks_nil
  | depth, arr (v :: vs) => by
    rw [write]
    have h := IsText.arr_cons (isBlanks_newline style (depth + 1)) (isText_write style (depth + 1) v)
      (areItems_write style (depth + 1) vs (isBlanks_newline style depth))
    simpa only [List.append_assoc] using h
  | depth, obj [] => by
    rw [write]
    exact .obj_nil isBlanks_nil
  | depth, obj ((k, v) :: ms) => by
    rw [write]
    have h := IsText.obj_cons (isBlanks_newline style (depth + 1))
      (isMember_quote style k (isText_write style (depth + 1) v))
      (areMembers_write style (depth + 1) ms (isBlanks_newline style depth))
    simpa only [List.append_assoc] using h

/-- The items behind a first one, with blanks behind them. -/
theorem areItems_write (style : Style) (depth : Nat) : (vs : List Json) → {b : List Char} →
    IsBlanks b → AreItems floatChars vs (writeItems style depth vs ++ b)
  | [], _, hb => by
    rw [writeItems]
    exact .nil hb
  | v :: vs, b, hb => by
    rw [writeItems]
    have h := AreItems.cons isBlanks_nil (isBlanks_newline style depth)
      (isText_write style depth v) (areItems_write style depth vs hb)
    simpa only [List.append_assoc, List.cons_append, List.nil_append] using h

theorem areMembers_write (style : Style) (depth : Nat) : (ms : List (String × Json)) →
    {b : List Char} → IsBlanks b → AreMembers floatChars ms (writeMembers style depth ms ++ b)
  | [], _, hb => by
    rw [writeMembers]
    exact .nil hb
  | (k, v) :: ms, b, hb => by
    rw [writeMembers]
    have h := AreMembers.cons isBlanks_nil (isBlanks_newline style depth)
      (isMember_quote style k (isText_write style depth v))
      (areMembers_write style depth ms hb)
    simpa only [List.append_assoc, List.cons_append, List.nil_append] using h

end

end Schemata.Json
