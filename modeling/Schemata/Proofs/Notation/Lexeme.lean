import Mathlib.Data.List.Basic
import Schemata.Column.Literal
import Schemata.Notation.Line
import Schemata.Proofs.Notation.Scan

/-!
# Names and texts read back

What `quoteName`, `quoteText` and `quoteLabel` write is one word to every scanner and is read back as
it was. A name is fit to be written if it is not empty and has no double quote, no backslash and no
line boundary (`IsName`); a text may be anything. A label without quotes loses the line feed at its
end, which `isPlainName` does not notice (`keptLabel`).
-/

namespace Schemata.Notation

open Text

/-! ## Blanks at the ends -/

/-- A text without blanks at its ends. -/
def Trimmed (s : List Char) : Prop :=
  (∀ c ∈ s.head?, isBlank c = false) ∧ ∀ c ∈ s.getLast?, isBlank c = false

theorem dropWhile_eq_self {p : Char → Bool} {s : List Char} (h : ∀ c ∈ s.head?, p c = false) :
    s.dropWhile p = s := by
  cases s with
  | nil => rfl
  | cons c r => rw [List.dropWhile_cons, h c rfl, if_neg (by simp)]

theorem dropTrailingBlanks_eq_self {s : List Char} (h : ∀ c ∈ s.getLast?, isBlank c = false) :
    dropTrailingBlanks s = s := by
  rw [dropTrailingBlanks, dropWhile_eq_self (by rwa [List.head?_reverse]), List.reverse_reverse]

theorem Trimmed.strip_eq {s : List Char} (h : Trimmed s) : strip s = s := by
  rw [strip, skipBlanks, dropWhile_eq_self h.1, dropTrailingBlanks_eq_self h.2]

theorem Trimmed.append {s t : List Char} (hs : Trimmed s) (hne : s ≠ [])
    (ht : ∀ c ∈ t.getLast?, isBlank c = false) : Trimmed (s ++ t) := by
  obtain ⟨c, r, rfl⟩ := List.exists_cons_of_ne_nil hne
  refine ⟨by simpa using hs.1, ?_⟩
  rcases List.eq_nil_or_concat' t with rfl | ⟨u, d, rfl⟩
  · simpa using hs.2
  · rw [List.getLast?_append]
    rw [List.getLast?_concat] at ht ⊢
    exact ht

/-- A text between two marks that are no blanks. -/
theorem trimmed_enclose {a b : Char} (ha : isBlank a = false) (hb : isBlank b = false)
    (s : List Char) : Trimmed (enclose a b s) := by
  constructor
  · intro c hc
    obtain rfl : a = c := by simpa [enclose] using hc
    exact ha
  · intro c hc
    obtain rfl : b = c := by
      simpa [enclose, List.getLast?_cons, List.getLast?_append] using hc
    exact hb

/-! ## Plain names -/

/-- The characters of a plain name. -/
def isPlainChar (c : Char) : Bool := c.isAlphanum || c == '_'

/-- The marks that mean something between the names of a line. -/
def marks : List Char := ['/', '(', ')', '[', ']', ',', '.', ':', '\x7b', '\x7d']

theorem ascii_check {p : Char → Bool} (h : ∀ n < 128, p (Char.ofNat n) = true) {c : Char}
    (hc : c.toNat < 128) : p c = true := by
  have := h c.toNat hc
  rwa [Char.ofNat_toNat] at this

theorem toNat_lt_of_isPlainChar {c : Char} (h : isPlainChar c = true) : c.toNat < 128 := by
  change (((decide (65 ≤ c.val ∧ c.val ≤ 90) || decide (97 ≤ c.val) && decide (c.val ≤ 122)) ||
    decide (48 ≤ c.val) && decide (c.val ≤ 57)) || c == '_') = true at h
  simp only [Bool.or_eq_true, Bool.and_eq_true, decide_eq_true_eq, beq_iff_eq,
    UInt32.le_iff_toNat_le] at h
  change ((65 ≤ c.toNat ∧ c.toNat ≤ 90 ∨ 97 ≤ c.toNat ∧ c.toNat ≤ 122) ∨
    48 ≤ c.toNat ∧ c.toNat ≤ 57) ∨ c = '_' at h
  rcases h with ((h | h) | h) | rfl
  · omega
  · omega
  · omega
  · decide

/-- A character of a plain name is none of the characters that end one. -/
theorem isPlainChar_spec {c : Char} (h : isPlainChar c = true) :
    isNameChar c = true ∧ isWordChar c = true ∧ isBlank c = false ∧ isLineBreak c = false ∧
      isQuote c = false ∧ c ∉ marks := by
  have check : (!isPlainChar c || (isNameChar c && isWordChar c && !isBlank c && !isLineBreak c &&
      !isQuote c && decide (c ∉ marks))) = true :=
    ascii_check (p := fun c => !isPlainChar c || (isNameChar c && isWordChar c && !isBlank c &&
      !isLineBreak c && !isQuote c && decide (c ∉ marks))) (by decide +kernel)
      (toNat_lt_of_isPlainChar h)
  simpa [h, and_assoc] using check

theorem isPlainChar_of_isNameStart {c : Char} (h : isNameStart c = true) : isPlainChar c = true := by
  simp only [isNameStart, isPlainChar, Char.isAlphanum, Bool.or_eq_true] at h ⊢
  tauto

/-- A plain name: letters, digits and low lines of ASCII, the first no digit. -/
def isWord : List Char → Bool
  | c :: r => isNameStart c && r.all isPlainChar
  | [] => false

theorem isPlainChar_of_isWord {s : List Char} (h : isWord s = true) {c : Char} (hc : c ∈ s) :
    isPlainChar c = true := by
  cases s with
  | nil => simp at hc
  | cons d r =>
    simp only [isWord, Bool.and_eq_true, List.all_eq_true] at h
    rcases List.mem_cons.1 hc with rfl | hc
    · exact isPlainChar_of_isNameStart h.1
    · exact h.2 c hc

theorem isPlainName_eq {s : List Char} (h : s.getLast? ≠ some '\n') : isPlainName s = isWord s := by
  rw [isPlainName, if_neg h]
  rfl

/-- A name that can be written. -/
structure IsName (n : String) : Prop where
  ne_nil : n.toList ≠ []
  safe : ∀ c ∈ n.toList, c ≠ '"' ∧ c ≠ '\\' ∧ isLineBreak c = false

/-- A name is written as it is if it is plain, and in double quotes otherwise. -/
theorem quoteName_cases {n : String} (h : IsName n) :
    ((quoteName n).toList = n.toList ∧ isWord n.toList = true) ∨
      (quoteName n).toList = enclose '"' '"' n.toList := by
  have hlast : n.toList.getLast? ≠ some '\n' := fun hn => by
    have := (h.safe '\n' (List.mem_of_getLast? hn)).2.2
    simp [isLineBreak] at this
  rw [quoteName, isPlainName_eq hlast]
  by_cases hw : isWord n.toList = true
  · exact .inl ⟨by rw [if_pos hw], hw⟩
  · exact .inr (by rw [if_neg hw, String.toList_ofList])

section Name
variable {n : String} (h : IsName n)
include h

theorem verbatim_quoteName : Verbatim (quoteName n).toList := by
  rcases quoteName_cases h with ⟨hn, hw⟩ | hn
  · rw [hn]
    refine .of_forall fun c hc => ?_
    obtain ⟨-, -, -, -, hq, hm⟩ := isPlainChar_spec (isPlainChar_of_isWord hw hc)
    exact ⟨hq, by rintro rfl; simp [marks] at hm⟩
  · rw [hn]
    exact .enclose rfl (isSealed_of_forall fun c hc => ⟨(h.safe c hc).1, (h.safe c hc).2.1⟩)

theorem trimmed_quoteName : Trimmed (quoteName n).toList := by
  rcases quoteName_cases h with ⟨hn, hw⟩ | hn
  · rw [hn]
    have blank : ∀ c ∈ n.toList, isBlank c = false := fun c hc =>
      (isPlainChar_spec (isPlainChar_of_isWord hw hc)).2.2.1
    exact ⟨fun c hc => blank c (List.mem_of_head? hc), fun c hc => blank c (List.mem_of_getLast? hc)⟩
  · rw [hn]
    exact trimmed_enclose (by decide) (by decide) _

theorem quoteName_ne_nil : (quoteName n).toList ≠ [] := by
  rcases quoteName_cases h with ⟨hn, -⟩ | hn
  · rw [hn]
    exact h.ne_nil
  · simp [hn, enclose]

theorem isSetting_quoteName : IsSetting (quoteName n).toList := by
  refine ⟨?_, (trimmed_quoteName h).strip_eq, quoteName_ne_nil h⟩
  rcases quoteName_cases h with ⟨hn, hw⟩ | hn
  · rw [hn]
    refine .of_forall fun c hc => ?_
    obtain ⟨-, -, -, -, hq, hm⟩ := isPlainChar_spec (isPlainChar_of_isWord hw hc)
    refine ⟨hq, fun hc' => hm ?_⟩
    simp only [marks, List.mem_cons, List.not_mem_nil, or_false] at hc' ⊢
    tauto
  · rw [hn]
    exact .enclose rfl (isSealed_of_forall fun c hc => ⟨(h.safe c hc).1, (h.safe c hc).2.1⟩)

theorem quoteName_no_break : ∀ c ∈ (quoteName n).toList, isLineBreak c = false := by
  rcases quoteName_cases h with ⟨hn, -⟩ | hn
  · rw [hn]
    exact fun c hc => (h.safe c hc).2.2
  · rw [hn]
    intro c hc
    simp only [enclose, List.mem_cons, List.mem_append, List.not_mem_nil, or_false] at hc
    rcases hc with rfl | hc | rfl
    · decide
    · exact (h.safe c hc).2.2
    · decide

/-- A name is read up to its end if no character of a name comes behind it. -/
theorem takeName?_quoteName {r : List Char} (hr : ∀ c ∈ r.head?, isNameChar c = false) :
    takeName? ((quoteName n).toList ++ r) = some (n.toList, r) := by
  rcases quoteName_cases h with ⟨hn, hw⟩ | hn
  · rw [hn]
    cases hs : n.toList with
    | nil => exact absurd hs h.ne_nil
    | cons c t =>
      rw [hs] at hw
      have hc : isNameStart c = true := by
        simp only [isWord, Bool.and_eq_true] at hw
        exact hw.1
      have ht : ∀ d ∈ t, isNameChar d = true := fun d hd =>
        (isPlainChar_spec (isPlainChar_of_isWord hw (List.mem_cons_of_mem c hd))).1
      have hq : ¬(c = '"' ∨ c = '\x60') := by
        rintro (rfl | rfl) <;> simp [isNameStart] at hc
      rw [List.cons_append, takeName?, if_neg hq, if_pos hc, List.takeWhile_append_of_pos ht,
        List.dropWhile_append_of_pos ht, dropWhile_eq_self hr]
      have : r.takeWhile isNameChar = [] := by
        cases r with
        | nil => rfl
        | cons d u => rw [List.takeWhile_cons, hr d rfl, if_neg (by simp)]
      rw [this, List.append_nil]
  · have hquote : ∀ c ∈ n.toList, decide (c ≠ '"') = true := fun c hc => by
      simpa using (h.safe c hc).1
    have stop : takeUntil? '"' (n.toList ++ '"' :: r) = some (n.toList, r) := by
      rw [takeUntil?, List.dropWhile_append_of_pos hquote, List.takeWhile_append_of_pos hquote]
      simp
    rw [hn, enclose, List.cons_append, List.append_assoc, List.singleton_append, takeName?,
      if_pos (.inl rfl), stop]
    simpa using h.ne_nil

theorem unquoteName_quoteName : unquoteName (quoteName n).toList = n.toList := by
  rw [unquoteName, (trimmed_quoteName h).strip_eq]
  rcases quoteName_cases h with ⟨hn, hw⟩ | hn
  · rw [hn]
    cases hs : n.toList with
    | nil => rfl
    | cons c t =>
      rw [hs] at hw
      have hq := (isPlainChar_spec (isPlainChar_of_isWord hw (List.mem_cons_self))).2.2.2.2.1
      apply if_neg
      rintro ⟨rfl | rfl, -⟩ <;> simp [isQuote] at hq
  · simp [hn, enclose]

end Name

/-! ## Texts -/

theorem toList_quoteText (s : String) :
    (quoteText s).toList = enclose '\'' '\'' (escape '\'' s.toList) := String.toList_ofList

theorem head?_escape_ne (q : Char) (s : List Char) (hq : q ≠ '\\') :
    (escape q s).head? ≠ some q := by
  cases s with
  | nil => simp [escape]
  | cons c r =>
    rw [escape]
    split_ifs with h₁ h₂ h₃ <;> simp_all [eq_comm]

/-- A text between marks `q` of one character is read between them, unless the marks are three. -/
theorem unquoteText_enclose {q : Char} (hq : q = '\'' ∨ q = '"') {s : List Char}
    (hs : s.head? ≠ some q) : unquoteText (enclose q q s) = unescape s := by
  have hblank : isBlank q = false := by rcases hq with rfl | rfl <;> decide
  have triple : between? "'''".toList (enclose q q s) = none := by
    rw [between?, if_neg]
    rintro ⟨hlen, hprefix, -⟩
    cases s with
    | nil => simp [enclose] at hlen
    | cons c r =>
      obtain ⟨rfl, rfl, -⟩ : '\'' = q ∧ '\'' = c ∧ _ := by
        simpa [enclose] using List.isPrefixOf_iff_prefix.1 hprefix
      exact hs rfl
  have single (p : Char) : between? [p] (enclose q q s) = if p = q then some s else none := by
    by_cases hp : p = q
    · subst hp
      simp [between?, enclose]
    · have : ¬[p].isPrefixOf (enclose q q s) = true := by simpa [enclose] using hp
      simp [between?, this, hp]
  rw [unquoteText, (trimmed_enclose hblank hblank s).strip_eq, triple, single, single]
  rcases hq with rfl | rfl <;> simp

theorem unquoteText_quoteText (s : String) : unquoteText (quoteText s).toList = s.toList := by
  rw [toList_quoteText, unquoteText_enclose (.inl rfl) (head?_escape_ne _ _ (by decide)),
    unescape_escape (by decide) (by decide) (by decide)]

theorem verbatim_quoteText (s : String) : Verbatim (quoteText s).toList := by
  rw [toList_quoteText]
  exact .enclose rfl (isSealed_escape _ _)

theorem whole_quoteText (s : String) : Whole (quoteText s).toList := by
  rw [toList_quoteText]
  exact .enclose rfl (isSealed_escape _ _)

theorem trimmed_quoteText (s : String) : Trimmed (quoteText s).toList := by
  rw [toList_quoteText]
  exact trimmed_enclose (by decide) (by decide) _

/-- A text whose only line boundary is the line feed. -/
def FeedsOnly (s : String) : Prop := ∀ c ∈ s.toList, isLineBreak c = true → c = '\n'

theorem mem_escape {q c : Char} {s : List Char} (h : c ∈ escape q s) :
    c = '\\' ∨ c = q ∨ c = 'n' ∨ (c ∈ s ∧ c ≠ '\n') := by
  induction s with
  | nil => simp [escape] at h
  | cons d r ih =>
    rw [escape] at h
    split_ifs at h with h₁ h₂ h₃
    all_goals
      simp only [List.mem_cons] at h ⊢
      grind

theorem escape_no_break {q : Char} (hq : isLineBreak q = false) {s : String} (hs : FeedsOnly s) :
    ∀ c ∈ enclose q q (escape q s.toList), isLineBreak c = false := by
  intro c hc
  simp only [enclose, List.mem_cons, List.mem_append, List.not_mem_nil, or_false] at hc
  rcases hc with rfl | hc | rfl
  · exact hq
  · rcases mem_escape hc with rfl | rfl | rfl | ⟨hc, hne⟩
    · decide
    · exact hq
    · decide
    · exact Bool.eq_false_iff.2 fun hb => hne (hs c hc hb)
  · exact hq

theorem quoteText_no_break {s : String} (hs : FeedsOnly s) :
    ∀ c ∈ (quoteText s).toList, isLineBreak c = false := by
  rw [toList_quoteText]
  exact escape_no_break (by decide) hs

/-! ## Labels -/

/-- A label as it comes back: a plain one without the line feed at its end. -/
def keptLabel (v : String) : String :=
  if isPlainName v.toList then String.ofList (Literal.dropFinalNewline v.toList) else v

theorem isPlainName_eq_isWord (s : List Char) :
    isPlainName s = isWord (Literal.dropFinalNewline s) := rfl

/-- A plain label is a plain name, with a line feed behind it or not. -/
theorem eq_or_eq_of_dropFinalNewline (s : List Char) :
    s = Literal.dropFinalNewline s ∨ s = Literal.dropFinalNewline s ++ ['\n'] := by
  rw [Literal.dropFinalNewline]
  split_ifs with h
  · exact .inr (List.dropLast_append_getLast? _ h).symm
  · exact .inl rfl

theorem keptLabel_eq_iff (v : String) :
    keptLabel v = v ↔ ¬(isPlainName v.toList = true ∧ v.toList.getLast? = some '\n') := by
  rw [keptLabel, Literal.dropFinalNewline]
  split_ifs with h₁ h₂
  · simp only [h₁, h₂, and_self, not_true_eq_false, iff_false]
    intro h
    have hlen : v.toList.dropLast.length = v.toList.length := by
      simpa using congrArg (fun s => s.toList.length) h
    have hne : v.toList ≠ [] := by rintro h₀; simp [h₀] at h₂
    have := List.length_pos_of_ne_nil hne
    simp at hlen
    omega
  · simp [h₁, h₂, String.ofList_toList]
  · simp [h₁]

theorem verbatim_quoteLabel (v : String) : Verbatim (quoteLabel v).toList := by
  rw [quoteLabel, isPlainName_eq_isWord]
  split_ifs with hw
  · have part : Verbatim (Literal.dropFinalNewline v.toList) := .of_forall fun c hc => by
      obtain ⟨-, -, -, -, hq, hm⟩ := isPlainChar_spec (isPlainChar_of_isWord hw hc)
      exact ⟨hq, by rintro rfl; simp [marks] at hm⟩
    rcases eq_or_eq_of_dropFinalNewline v.toList with hv | hv
    · rw [hv]
      exact part
    · rw [hv]
      exact part.append (.of_forall (by decide))
  · rw [String.toList_ofList]
    exact .enclose rfl (isSealed_escape _ _)

theorem enumLabel_of_no_settings {s : List Char}
    (h : ¬('[' ∈ s.dropLast ∧ s.getLast? = some ']')) :
    enumLabel s =
      if s.head? = some '\'' ∨ s.head? = some '"' then unquoteText s else unquoteName s := by
  simp only [enumLabel, if_neg h]

theorem enumLabel_of_isWord {w : List Char} (hw : isWord w = true) : enumLabel w = w := by
  have spec : ∀ c ∈ w, _ := fun c hc => isPlainChar_spec (isPlainChar_of_isWord hw hc)
  have hquotes : ∀ q, isQuote q = true → w.head? ≠ some q := fun q hq hh => by
    simp [(spec q (List.mem_of_head? hh)).2.2.2.2.1] at hq
  have htrim : Trimmed w := ⟨fun c hc => (spec c (List.mem_of_head? hc)).2.2.1,
    fun c hc => (spec c (List.mem_of_getLast? hc)).2.2.1⟩
  have hopen : '[' ∉ w.dropLast := fun hm =>
    (spec '[' (List.dropLast_subset w hm)).2.2.2.2.2 (by decide)
  rw [enumLabel_of_no_settings fun hm => hopen hm.1, if_neg, unquoteName, htrim.strip_eq]
  · cases hc : w with
    | nil => rfl
    | cons c r =>
      apply if_neg
      rintro ⟨rfl | rfl, -⟩
      · exact hquotes '"' rfl (by simp [hc])
      · exact hquotes '\x60' rfl (by simp [hc])
  · rintro (hh | hh)
    · exact hquotes '\'' rfl hh
    · exact hquotes '"' rfl hh

theorem enumLabel_quoted (s : List Char) : enumLabel (enclose '"' '"' (escape '"' s)) = s := by
  have hlast : (enclose '"' '"' (escape '"' s)).getLast? = some '"' := by
    simp [enclose, List.getLast?_cons]
  rw [enumLabel_of_no_settings (by simp [hlast]), if_pos (.inr rfl),
    unquoteText_enclose (.inr rfl) (head?_escape_ne _ _ (by decide)),
    unescape_escape (by decide) (by decide) (by decide)]

/-- The line that a label makes: `w` is read as the label that is kept, and at most an empty line
follows it. -/
theorem lines_quoteLabel {v : String} (hv : FeedsOnly v) :
    ∃ w blank, (∀ r, lines ((quoteLabel v).toList ++ '\n' :: r) = w :: (blank ++ lines r)) ∧
      (blank = [] ∨ blank = [[]]) ∧ Trimmed w ∧ w ≠ [] ∧ w ≠ ['\x7d'] ∧
      String.ofList (enumLabel w) = keptLabel v := by
  rw [quoteLabel, keptLabel, isPlainName_eq_isWord]
  split_ifs with hw
  · set w := Literal.dropFinalNewline v.toList with hwdef
    have spec : ∀ c ∈ w, _ := fun c hc => isPlainChar_spec (isPlainChar_of_isWord hw hc)
    have hne : w ≠ [] := by rintro h₀; simp [h₀, isWord] at hw
    have hbreak : ∀ c ∈ w, isLineBreak c = false := fun c hc => (spec c hc).2.2.2.1
    have htrim : Trimmed w := ⟨fun c hc => (spec c (List.mem_of_head? hc)).2.2.1,
      fun c hc => (spec c (List.mem_of_getLast? hc)).2.2.1⟩
    have hbrace : w ≠ ['\x7d'] := fun h₀ =>
      (spec '\x7d' (by simp [h₀])).2.2.2.2.2 (by decide)
    have hlabel := enumLabel_of_isWord hw
    rcases eq_or_eq_of_dropFinalNewline v.toList with hv' | hv'
    · refine ⟨w, [], fun r => ?_, .inl rfl, htrim, hne, hbrace, by rw [hlabel]⟩
      rw [hv', ← hwdef, lines_append_newline hbreak]
      rfl
    · refine ⟨w, [[]], fun r => ?_, .inr rfl, htrim, hne, hbrace, by rw [hlabel]⟩
      rw [hv', ← hwdef, List.append_assoc, List.singleton_append, lines_append_newline hbreak,
        lines_newline]
      rfl
  · refine ⟨enclose '"' '"' (escape '"' v.toList), [], fun r => ?_, .inl rfl,
      trimmed_enclose (by decide) (by decide) _, by simp [enclose], by simp [enclose], ?_⟩
    · rw [String.toList_ofList, lines_append_newline (escape_no_break (by decide) hv)]
      rfl
    · rw [enumLabel_quoted, String.ofList_toList]

end Schemata.Notation
