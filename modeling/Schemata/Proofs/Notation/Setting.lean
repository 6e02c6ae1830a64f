import Schemata.Notation.Writer
import Schemata.Proofs.Text.Letter
import Schemata.Proofs.Notation.Lexeme

/-!
# Settings that read back

What stands in a list of settings is a `Phrase`: commas, brackets and comment marks occur in it
only inside quotes, and it neither is empty nor has blanks at its ends. A list of phrases in
brackets is read back as the phrases, behind the name of a field as well as before an opening brace.
A list of keys with texts is read back whatever the texts are, those with line boundaries too
(`settings_read_back`).
-/

namespace Schemata.Notation

open Text

/-- A part of a line that no reader cuts into. -/
structure Phrase (s : List Char) : Prop where
  whole : Whole s
  verbatim : Verbatim s
  trimmed : Trimmed s
  ne_nil : s ≠ []
  no_break : ∀ c ∈ s, isLineBreak c = false

/-- Whether no reader cuts into a text because of one of its characters. -/
def isLoose (c : Char) : Bool :=
  !isQuote c && !isLineBreak c && decide (c ∉ ['(', ')', '[', ']', ',', '/'])

namespace Phrase

theorem isSetting {s : List Char} (h : Phrase s) : IsSetting s :=
  ⟨h.whole, h.trimmed.strip_eq, h.ne_nil⟩

theorem of_isLoose {s : List Char} (h : ∀ c ∈ s, isLoose c = true) (ht : Trimmed s) (hne : s ≠ []) :
    Phrase s := by
  have spec : ∀ c ∈ s, isQuote c = false ∧ isLineBreak c = false ∧
      c ∉ ['(', ')', '[', ']', ',', '/'] := fun c hc => by
    have := h c hc
    simp only [isLoose, Bool.and_eq_true, Bool.not_eq_true', decide_eq_true_eq] at this
    exact ⟨this.1.1, this.1.2, this.2⟩
  refine ⟨.of_forall fun c hc => ?_, .of_forall fun c hc => ?_, ht, hne, fun c hc => (spec c hc).2.1⟩
  · obtain ⟨hq, -, hm⟩ := spec c hc
    refine ⟨hq, fun hmem => hm ?_⟩
    simp only [List.mem_cons, List.not_mem_nil, or_false] at hmem ⊢
    tauto
  · obtain ⟨hq, -, hm⟩ := spec c hc
    exact ⟨hq, fun hslash => hm (by simp [hslash])⟩

/-- A text in quotes is a phrase. -/
theorem enclose {q : Char} (hq : isQuote q = true) {s : List Char} (h : isSealed q s = true)
    (hs : ∀ c ∈ s, isLineBreak c = false) : Phrase (Text.enclose q q s) := by
  have hmark : isBlank q = false ∧ isLineBreak q = false := by
    simp only [isQuote, Bool.or_eq_true, beq_iff_eq] at hq
    rcases hq with (rfl | rfl) | rfl <;> decide
  refine ⟨.enclose hq h, .enclose hq h, trimmed_enclose hmark.1 hmark.1 _, by simp [Text.enclose], ?_⟩
  intro c hc
  simp only [Text.enclose, List.mem_cons, List.mem_append, List.not_mem_nil, or_false] at hc
  rcases hc with rfl | hc | rfl
  · exact hmark.2
  · exact hs c hc
  · exact hmark.2

theorem quoteName {n : String} (h : IsName n) : Phrase (quoteName n).toList :=
  ⟨(isSetting_quoteName h).whole, verbatim_quoteName h, trimmed_quoteName h, quoteName_ne_nil h,
    quoteName_no_break h⟩

theorem quoteText {s : String} (h : FeedsOnly s) : Phrase (quoteText s).toList where
  whole := whole_quoteText s
  verbatim := verbatim_quoteText s
  trimmed := trimmed_quoteText s
  ne_nil := by simp [toList_quoteText, Text.enclose]
  no_break := quoteText_no_break h

end Phrase

/-! ## A key and a value -/

/-- A character of a key: a small letter of ASCII, a digit or the low line. -/
def isKeyChar (c : Char) : Bool := isPlainChar c && !c.isUpper

/-- A key of a setting: a word of ASCII in lower case. -/
def IsKey (k : String) : Prop := k.toList ≠ [] ∧ ∀ c ∈ k.toList, isKeyChar c = true

instance (k : String) : Decidable (IsKey k) := inferInstanceAs (Decidable (_ ∧ _))

theorem isKeyChar_spec {c : Char} (h : isKeyChar c = true) :
    isLoose c = true ∧ isBlank c = false ∧ c ≠ ':' ∧ lowerChar c = c := by
  have hplain : isPlainChar c = true := (Bool.and_eq_true_iff.1 h).1
  have check : (!isKeyChar c || (isLoose c && !isBlank c && c != ':' && lowerChar c == c)) = true :=
    ascii_check (p := fun c => !isKeyChar c || (isLoose c && !isBlank c && c != ':' &&
      lowerChar c == c)) (by decide +kernel) (toNat_lt_of_isPlainChar hplain)
  simpa [h, and_assoc] using check

/-- A text without blanks is one word. -/
theorem squeeze_eq_self {s : List Char} (hs : ∀ c ∈ s, isBlank c = false) (hne : s ≠ []) :
    squeeze s = s := by
  have hwords : words s = [s] := by
    rw [words, List.splitOnP_eq_singleton hs]
    simp [hne]
  rw [squeeze, hwords, List.intercalate_singleton]

theorem toList_pair (k v : String) : (k ++ ": " ++ v).toList = k.toList ++ ':' :: ' ' :: v.toList := by
  simp

theorem strip_space_cons {s : List Char} (h : Trimmed s) : strip (' ' :: s) = s := by
  have : skipBlanks (' ' :: s) = skipBlanks s := rfl
  rw [strip, this, ← strip, h.strip_eq]

theorem splitSetting_pair {key value : List Char} (hkey : ':' ∉ key)
    (hlow : squeeze (lower key) = key) (hv : Trimmed value) :
    splitSetting (key ++ ':' :: ' ' :: value) = (String.ofList key, some value) := by
  have hp : ∀ c ∈ key, decide (c ≠ ':') = true := fun c hc =>
    decide_eq_true fun h => hkey (h ▸ hc)
  rw [splitSetting, List.takeWhile_append_of_pos hp, List.dropWhile_append_of_pos hp]
  simp only [ne_eq, not_true_eq_false, decide_false, List.takeWhile_cons, List.dropWhile_cons,
    Bool.false_eq_true, if_false, List.append_nil, hlow, strip_space_cons hv]

namespace IsKey

variable {k : String} (h : IsKey k)

include h

theorem phrase : Phrase k.toList := by
  have hblank : ∀ c ∈ k.toList, isBlank c = false := fun c hc => (isKeyChar_spec (h.2 c hc)).2.1
  refine .of_isLoose (fun c hc => (isKeyChar_spec (h.2 c hc)).1) ⟨?_, ?_⟩ h.1
  · exact fun c hc => hblank c (List.mem_of_head? hc)
  · exact fun c hc => hblank c (List.mem_of_getLast? hc)

variable {v : String}

theorem whole_pair (hv : Whole v.toList) : Whole (k ++ ": " ++ v).toList := by
  have hcolon : Whole [':', ' '] := .of_forall (by decide)
  rw [toList_pair]
  exact h.phrase.whole.append (hcolon.append hv)

theorem trimmed_pair (hv : Trimmed v.toList) (hne : v.toList ≠ []) :
    Trimmed (k ++ ": " ++ v).toList := by
  rw [toList_pair]
  refine h.phrase.trimmed.append h.1 ?_
  obtain ⟨c, r, hcons⟩ := List.exists_cons_of_ne_nil hne
  simpa [hcons, List.getLast?_cons] using hv.2

/-- A key and its value as a setting. -/
theorem phrase_pair (hv : Phrase v.toList) : Phrase (k ++ ": " ++ v).toList where
  whole := h.whole_pair hv.whole
  verbatim := by
    have hcolon : Verbatim [':', ' '] := .of_forall (by decide)
    rw [toList_pair]
    exact h.phrase.verbatim.append (hcolon.append hv.verbatim)
  trimmed := h.trimmed_pair hv.trimmed hv.ne_nil
  ne_nil := by simp
  no_break := by
    intro c hc
    simp only [toList_pair, List.mem_append, List.mem_cons] at hc
    rcases hc with hc | rfl | rfl | hc
    · exact h.phrase.no_break c hc
    · decide
    · decide
    · exact hv.no_break c hc

theorem splitSetting_eq (hv : Trimmed v.toList) :
    splitSetting (k ++ ": " ++ v).toList = (k, some v.toList) := by
  have hspec : ∀ c ∈ k.toList, _ := fun c hc => isKeyChar_spec (h.2 c hc)
  have hcolon : ':' ∉ k.toList := fun hc => (hspec ':' hc).2.2.1 rfl
  have hascii : ∀ c ∈ k.toList, isAscii c = true := fun c hc =>
    decide_eq_true (toNat_lt_of_isPlainChar (Bool.and_eq_true_iff.1 (h.2 c hc)).1)
  have hlower : lower k.toList = k.toList := by
    rw [lower_of_isAscii hascii, List.map_congr_left fun c hc => (hspec c hc).2.2.2, List.map_id']
  have hword : squeeze (lower k.toList) = k.toList := by
    rw [hlower, squeeze_eq_self (fun c hc => (hspec c hc).2.1) h.1]
  rw [toList_pair, splitSetting_pair hcolon hword hv, String.ofList_toList]

end IsKey

/-! ## Settings in brackets -/

variable {settings : List String}

theorem toList_bracketed (settings : List String) :
    (bracketed settings).toList = if settings = [] then [] else
      ' ' :: '[' :: ([',', ' '].intercalate (settings.map String.toList) ++ [']']) := by
  rw [bracketed]
  by_cases h : settings = []
  · simp [h]
  · simp [h, String.toList_intercalate]

theorem takeSettings?_bracketed (settings : List String) :
    takeSettings? (bracketed settings).toList =
      some ([',', ' '].intercalate (settings.map String.toList)) := by
  rw [toList_bracketed]
  split_ifs with h
  · simp [h, takeSettings?]
  · have hskip : ∀ r, skipBlanks (' ' :: '[' :: r) = '[' :: r := fun r => rfl
    simp [takeSettings?, hskip]

theorem settingsBeforeBrace?_bracketed (settings : List String) :
    settingsBeforeBrace? ((bracketed settings).toList ++ [' ', '\x7b']) =
      some ([',', ' '].intercalate (settings.map String.toList)) := by
  rw [toList_bracketed]
  split_ifs with h
  · rw [h]
    rfl
  · set inside := [',', ' '].intercalate (settings.map String.toList)
    have hskip : skipBlanks (' ' :: '[' :: (inside ++ [']']) ++ [' ', '\x7b']) =
        '[' :: (inside ++ [']', ' ', '\x7b']) := by
      simp [skipBlanks, show isBlank ' ' = true by decide,
        show isBlank '[' = false by decide]
    have hbrace : beforeBrace? (inside ++ [']', ' ', '\x7b']) = some (inside ++ [']']) := by
      have hlast : (inside ++ [']', ' ', '\x7b']).dropLast = (inside ++ [']']) ++ [' '] := by
        rw [show inside ++ [']', ' ', '\x7b'] = ((inside ++ [']']) ++ [' ']) ++ ['\x7b'] by simp,
          List.dropLast_concat]
      rw [beforeBrace?, if_pos (by simp), hlast]
      simp [dropTrailingBlanks, show isBlank ' ' = true by decide,
        show isBlank ']' = false by decide]
    rw [settingsBeforeBrace?, hskip]
    simp [hbrace]

theorem splitSettings_phrases (h : ∀ s ∈ settings, Phrase s.toList) :
    splitSettings ([',', ' '].intercalate (settings.map String.toList)) =
      settings.map String.toList := by
  apply splitSettings_intercalate
  intro i hi
  obtain ⟨s, hs, rfl⟩ := List.mem_map.1 hi
  exact (h s hs).isSetting

theorem verbatim_intercalate {items : List (List Char)} (h : ∀ i ∈ items, Verbatim i) :
    Verbatim ([',', ' '].intercalate items) := by
  induction items with
  | nil => exact .nil
  | cons i rest ih =>
    cases rest with
    | nil => simpa using h i (by simp)
    | cons j rest =>
      rw [List.intercalate_cons_cons]
      exact ((h i (by simp)).append (.of_forall (by decide))).append
        (ih fun k hk => h k (by simp [hk]))

theorem mem_intercalate {items : List (List Char)} {c : Char}
    (h : c ∈ [',', ' '].intercalate items) : c = ',' ∨ c = ' ' ∨ ∃ i ∈ items, c ∈ i := by
  induction items with
  | nil => simp at h
  | cons i rest ih =>
    cases rest with
    | nil => exact .inr (.inr ⟨i, by simp, by simpa using h⟩)
    | cons j rest =>
      rw [List.intercalate_cons_cons] at h
      simp only [List.mem_append, List.mem_cons, List.not_mem_nil, or_false] at h
      rcases h with (h | h | h) | h
      · exact .inr (.inr ⟨i, by simp, h⟩)
      · exact .inl h
      · exact .inr (.inl h)
      · rcases ih h with h | h | ⟨k, hk, h⟩
        · exact .inl h
        · exact .inr (.inl h)
        · exact .inr (.inr ⟨k, by simp [hk], h⟩)

theorem verbatim_bracketed (h : ∀ s ∈ settings, Phrase s.toList) :
    Verbatim (bracketed settings).toList := by
  rw [toList_bracketed]
  split_ifs
  · exact .nil
  · refine Verbatim.append (s := [' ', '[']) (.of_forall (by decide))
      ((verbatim_intercalate fun i hi => ?_).append (.of_forall (by decide)))
    obtain ⟨s, hs, rfl⟩ := List.mem_map.1 hi
    exact (h s hs).verbatim

theorem bracketed_no_break (h : ∀ s ∈ settings, Phrase s.toList) :
    ∀ c ∈ (bracketed settings).toList, isLineBreak c = false := by
  intro c hc
  rw [toList_bracketed] at hc
  split_ifs at hc
  · simp at hc
  · simp only [List.mem_cons, List.mem_append, List.not_mem_nil, or_false] at hc
    rcases hc with rfl | rfl | hc | rfl
    · decide
    · decide
    · rcases mem_intercalate hc with rfl | rfl | ⟨i, hi, hc⟩
      · decide
      · decide
      · obtain ⟨s, hs, rfl⟩ := List.mem_map.1 hi
        exact (h s hs).no_break c hc
    · decide

theorem bracketed_getLast? (settings : List String) :
    ∀ c ∈ (bracketed settings).toList.getLast?, isBlank c = false := by
  rw [toList_bracketed]
  split_ifs
  · simp
  · simp [List.getLast?_cons, show isBlank ']' = false by decide]

theorem bracketed_head? (settings : List String) :
    ∀ c ∈ (bracketed settings).toList.head?, c = ' ' := by
  rw [toList_bracketed]
  split_ifs
  · simp
  · simp

/-! ## Keys with texts -/

/-- A key and a text as a setting. -/
def settingText (p : String × String) : String := p.1 ++ ": " ++ quoteText p.2

/-- The key of a setting, and the text behind it if there is one. -/
def readSetting (s : List Char) : String × Option String :=
  (splitSetting s).map id (Option.map fun value => String.ofList (unquoteText value))

theorem isSetting_settingText {p : String × String} (h : IsKey p.1) :
    IsSetting (settingText p).toList := by
  have hne : (quoteText p.2).toList ≠ [] := by simp [toList_quoteText, Text.enclose]
  refine ⟨h.whole_pair (whole_quoteText p.2), ?_, by simp [settingText]⟩
  exact (h.trimmed_pair (trimmed_quoteText p.2) hne).strip_eq

theorem readSetting_settingText {p : String × String} (h : IsKey p.1) :
    readSetting (settingText p).toList = (p.1, some p.2) := by
  rw [readSetting, settingText, h.splitSetting_eq (trimmed_quoteText p.2), Prod.map_apply,
    Option.map_some, unquoteText_quoteText, String.ofList_toList]
  rfl

/-- A list of keys with texts is split into its settings again, whatever the texts are, and each of
them is read as its key and its text. -/
theorem settings_read_back {pairs : List (String × String)} (h : ∀ p ∈ pairs, IsKey p.1) :
    splitSettings (", ".intercalate (pairs.map settingText)).toList =
        (pairs.map settingText).map String.toList ∧
      (splitSettings (", ".intercalate (pairs.map settingText)).toList).map readSetting =
        pairs.map fun p => (p.1, some p.2) := by
  have hsplit : splitSettings (", ".intercalate (pairs.map settingText)).toList =
      (pairs.map settingText).map String.toList := by
    rw [String.toList_intercalate]
    refine splitSettings_intercalate fun i hi => ?_
    obtain ⟨s, hs, rfl⟩ := List.mem_map.1 hi
    obtain ⟨p, hp, rfl⟩ := List.mem_map.1 hs
    exact isSetting_settingText (h p hp)
  refine ⟨hsplit, ?_⟩
  rw [hsplit, List.map_map, List.map_map]
  exact List.map_congr_left fun p hp => readSetting_settingText (h p hp)

/-- Texts with the marks of a list in them, one that ends in a backslash, and an empty one. -/
def marked : List (String × String) :=
  [("note", "a, 'b': [c\"\n// d"), ("x_1", "(\\"), ("note", ""), ("name", "'''")]

theorem settings_read_back_marked : (∀ p ∈ marked, IsKey p.1) ∧
    (splitSettings (", ".intercalate (marked.map settingText)).toList).map readSetting =
      [("note", some "a, 'b': [c\"\n// d"), ("x_1", some "(\\"), ("note", some ""),
        ("name", some "'''")] := by
  have hkeys : ∀ p ∈ marked, IsKey p.1 := by decide +kernel
  exact ⟨hkeys, (settings_read_back hkeys).2⟩

end Schemata.Notation
