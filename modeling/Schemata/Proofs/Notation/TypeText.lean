import Schemata.Proofs.Notation.Writable

/-!
# The type of a field in its line

A type stands in the line of its field as the name of its enumeration or as its spelling, the
latter in double quotes when it is unsigned. `takeType?_typeText` says that the name or the spelling
is taken from the line, and the settings behind it.
-/

namespace Schemata.Notation

open Text

/-- A part of a line in which no comment starts and no line ends. -/
structure Flat (s : List Char) : Prop where
  verbatim : Verbatim s
  no_break : ∀ c ∈ s, isLineBreak c = false

namespace Flat

theorem nil : Flat [] := ⟨.nil, by simp⟩

theorem append {s t : List Char} (hs : Flat s) (ht : Flat t) : Flat (s ++ t) :=
  ⟨hs.verbatim.append ht.verbatim,
    fun c hc => (List.mem_append.1 hc).elim (hs.no_break c) (ht.no_break c)⟩

theorem of_forall {s : List Char}
    (h : ∀ c ∈ s, (isQuote c = false ∧ c ≠ '/') ∧ isLineBreak c = false) : Flat s :=
  ⟨.of_forall fun c hc => (h c hc).1, fun c hc => (h c hc).2⟩

theorem quoteName {n : String} (h : IsName n) : Flat (quoteName n).toList :=
  ⟨verbatim_quoteName h, quoteName_no_break h⟩

theorem bracketed {settings : List String} (h : ∀ s ∈ settings, Phrase s.toList) :
    Flat (bracketed settings).toList := ⟨verbatim_bracketed h, bracketed_no_break h⟩

theorem intercalate {items : List (List Char)} (h : ∀ i ∈ items, Flat i) :
    Flat ([',', ' '].intercalate items) := by
  refine ⟨verbatim_intercalate fun i hi => (h i hi).verbatim, fun c hc => ?_⟩
  rcases mem_intercalate hc with rfl | rfl | ⟨i, hi, hc⟩
  · decide
  · decide
  · exact (h i hi).no_break c hc

end Flat

theorem Phrase.flat {s : List Char} (h : Phrase s) : Flat s := ⟨h.verbatim, h.no_break⟩

/-! ## Doubled quotes -/

theorem mem_double {q c : Char} {s : List Char} (h : c ∈ double q s) : c ∈ s := by
  induction s with
  | nil => simp at h
  | cons d r ih =>
    rw [double] at h
    split_ifs at h with hd
    · simp only [List.mem_cons] at h ⊢
      rcases h with rfl | rfl | h
      · exact .inl hd.symm
      · exact .inl hd.symm
      · exact .inr (ih h)
    · simp only [List.mem_cons] at h ⊢
      exact h.imp_right ih

theorem blankFrom_double {s : List Char} (hs : '\\' ∉ s) (r : List Char) :
    blankFrom (.quoted '\'') (double '\'' s ++ '\'' :: r) =
      double '\'' s ++ '\'' :: blankFrom .code r := by
  have plain : ∀ (c : Char) (t : List Char), c ≠ '\\' → blankFrom (.quoted '\'') (c :: t) =
      c :: blankFrom (if c = '\'' then .code else .quoted '\'') t := fun c t hc => by
    rw [blankFrom]
    exact fun _ _ h => absurd h hc
  have opening : ∀ t, blankFrom .code ('\'' :: t) = '\'' :: blankFrom (.quoted '\'') t := fun t => by
    rw [blankFrom]
    · rfl
    · exact fun _ h => absurd h (by decide)
    · exact fun _ h => absurd h (by decide)
  induction s with
  | nil => rw [double_nil, List.nil_append, plain _ _ (by decide), if_pos rfl]; rfl
  | cons c t ih =>
    have ih' := ih fun h => hs (List.mem_cons_of_mem _ h)
    have hc : c ≠ '\\' := fun h => hs (h ▸ List.mem_cons_self)
    rw [double]
    by_cases h : c = '\''
    · rw [if_pos h, List.cons_append, List.cons_append, plain _ _ (by decide), if_pos rfl, opening,
        ih']
      rfl
    · rw [if_neg h, List.cons_append, plain _ _ hc, if_neg h, ih']
      rfl

theorem Flat.quoteDoubled {s : List Char} (h : ∀ c ∈ s, c ≠ '\\' ∧ isLineBreak c = false) :
    Flat (quoteDoubled s) := by
  constructor
  · intro r
    rw [Text.quoteDoubled, enclose, List.cons_append, blankFrom]
    · show '\'' :: blankFrom (.quoted '\'') (double '\'' s ++ ['\''] ++ r) = _
      rw [List.append_assoc, List.singleton_append, blankFrom_double fun hb => (h _ hb).1 rfl]
      simp
    · exact fun _ h => absurd h (by decide)
    · exact fun _ h => absurd h (by decide)
  · intro c hc
    simp only [Text.quoteDoubled, enclose, List.mem_cons, List.mem_append, List.not_mem_nil,
      or_false] at hc
    rcases hc with rfl | hc | rfl
    · decide
    · exact (h c (mem_double hc)).2
    · decide

/-! ## Taking a type from a line -/

theorem takeUntil?_append {q : Char} {s : List Char} (h : q ∉ s) (r : List Char) :
    takeUntil? q (s ++ q :: r) = some (s, r) := by
  have hp : ∀ c ∈ s, decide (c ≠ q) = true := fun c hc => decide_eq_true fun hq => h (hq ▸ hc)
  rw [takeUntil?, List.dropWhile_append_of_pos hp, List.takeWhile_append_of_pos hp]
  simp

theorem isTypeChar_of_isPlainChar {c : Char} (h : isPlainChar c = true) : isTypeChar c = true := by
  rw [isTypeChar, (isPlainChar_spec h).2.1]
  rfl

/-- A type that stands in double quotes. -/
theorem takeType?_quoted {s : List Char} (hs : '"' ∉ s) (hne : s ≠ []) (settings : List String) :
    takeType? ('"' :: (s ++ '"' :: (bracketed settings).toList)) =
      some (s, [',', ' '].intercalate (settings.map String.toList)) := by
  rw [takeType?, takeUntil?_append hs]
  simp [hne, takeSettings?_bracketed]

/-- A type that is a word with or without arguments. -/
theorem takeType?_word {w : List Char} (hw : isWord w = true) {args : List Char}
    (hargs : args = [] ∨ ∃ inside, args = '(' :: (inside ++ [')']) ∧ ')' ∉ inside)
    (settings : List String) :
    takeType? (w ++ (args ++ (bracketed settings).toList)) =
      some (w ++ args, [',', ' '].intercalate (settings.map String.toList)) := by
  have hword : ∀ c ∈ w, isTypeChar c = true := fun c hc =>
    isTypeChar_of_isPlainChar (isPlainChar_of_isWord hw hc)
  obtain ⟨c, t, rfl⟩ : ∃ c t, w = c :: t := by
    cases w with
    | nil => simp [isWord] at hw
    | cons c t => exact ⟨c, t, rfl⟩
  have hc : c ≠ '"' := by
    rintro rfl
    exact absurd (hword '"' List.mem_cons_self) (by decide)
  have hstop : ∀ d ∈ (args ++ (bracketed settings).toList).head?, isTypeChar d = false := by
    rcases hargs with rfl | ⟨inside, rfl, -⟩
    · intro d hd
      obtain rfl := bracketed_head? settings d hd
      decide
    · intro d hd
      obtain rfl : '(' = d := by simpa using hd
      decide
  have hrest : takeArguments (args ++ (bracketed settings).toList) =
      (args, (bracketed settings).toList) := by
    rcases hargs with rfl | ⟨inside, rfl, hin⟩
    · rw [List.nil_append, toList_bracketed]
      split_ifs <;> rfl
    · have := takeUntil?_append hin (bracketed settings).toList
      simp [takeArguments, this]
  have htake : ((c :: t) ++ (args ++ (bracketed settings).toList)).takeWhile isTypeChar = c :: t := by
    rw [List.takeWhile_append_of_pos hword]
    cases hr : args ++ (bracketed settings).toList with
    | nil => simp
    | cons d u => simp [hstop d (by simp [hr])]
  have hdrop : ((c :: t) ++ (args ++ (bracketed settings).toList)).dropWhile isTypeChar =
      args ++ (bracketed settings).toList := by
    rw [List.dropWhile_append_of_pos hword, dropWhile_eq_self hstop]
  have hbrackets : ∀ r, (bracketed settings).toList ≠ '[' :: ']' :: r := fun r h => by
    have := bracketed_head? settings '[' (by simp [h])
    exact absurd this (by decide)
  rw [List.cons_append] at htake hdrop ⊢
  rw [takeType?]
  · simp only [htake, hdrop, hrest, takeSettings?_bracketed]
    simp only [List.isEmpty_cons, Bool.false_eq_true, if_false, Option.map_some]
  · exact fun r h => hc (List.head_eq_of_cons_eq h)

/-! ## The type of a field -/

/-- The text that a type is read from. -/
def rawType (t : ColumnType) : List Char := t.enumName.elim t.spelling String.toList

theorem flat_intText (n : Int) : Flat (intText n).toList ∧
    ∀ c ∈ (intText n).toList, c ∉ [')', '"', '\\'] := by
  have spec : ∀ c ∈ (intText n).toList,
      ((isQuote c = false ∧ c ≠ '/') ∧ isLineBreak c = false) ∧ c ∉ [')', '"', '\\'] := by
    intro c hc
    rcases mem_intText hc with rfl | hd
    · decide
    · obtain ⟨-, -, -, hb, hq, hm⟩ :=
        isPlainChar_spec (c := c) (by simp [isPlainChar, Char.isAlphanum, hd])
      refine ⟨⟨⟨hq, ?_⟩, hb⟩, ?_⟩
      · rintro rfl
        exact hm (by decide)
      · simp only [List.mem_cons, List.not_mem_nil, or_false, not_or]
        exact ⟨ne_of_isDigit hd (by decide), ne_of_isDigit hd (by decide),
          ne_of_isDigit hd (by decide)⟩
  exact ⟨.of_forall fun c hc => (spec c hc).1, fun c hc => (spec c hc).2⟩

section Spelled

variable {t : ColumnType} (h : t.IsSpelled)

include h

/-- The parameters of a type stay inside its parentheses, and only labels have quotes. -/
theorem parameters_spec : ∀ p ∈ t.parameters, Flat p ∧ ')' ∉ p ∧
    (t.unsigned = true → ∀ c ∈ p, c ∉ ['"', '\\']) := by
  intro p hp
  rw [ColumnType.parameters] at hp
  split_ifs at hp with hs hd
  · obtain ⟨n, -, rfl⟩ := Option.map_eq_some_iff.1 (Option.mem_toList.1 hp)
    obtain ⟨hflat, hmark⟩ := flat_intText n
    refine ⟨hflat, fun hc => hmark _ hc (by simp), fun _ c hc hm => hmark c hc ?_⟩
    exact List.mem_cons_of_mem _ hm
  · obtain ⟨n, -, rfl⟩ := Option.map_eq_some_iff.1 (Option.mem_toList.1 hp)
    obtain ⟨hflat, hmark⟩ := flat_intText n
    obtain ⟨hflat', hmark'⟩ := flat_intText (t.scale.getD 0)
    have hall : ∀ c ∈ (intText n).toList ++ ',' :: (intText (t.scale.getD 0)).toList,
        c ∉ [')', '"', '\\'] := by
      intro c hc
      simp only [List.mem_append, List.mem_cons] at hc
      rcases hc with hc | rfl | hc
      · exact hmark c hc
      · decide
      · exact hmark' c hc
    refine ⟨hflat.append ((Flat.of_forall (s := [',']) (by decide)).append hflat'),
      fun hc => hall _ hc (by simp), fun _ c hc hm => hall c hc ?_⟩
    exact List.mem_cons_of_mem _ hm
  · obtain ⟨v, hv, rfl⟩ := List.mem_map.1 hp
    have hlabel := (h.label v hv).2
    refine ⟨.quoteDoubled fun c hc => (hlabel c hc).2, fun hc => ?_, fun hu => ?_⟩
    · simp only [quoteDoubled, enclose, List.mem_cons, List.mem_append, List.not_mem_nil,
        or_false] at hc
      rcases hc with hc | hc | hc
      · exact absurd hc (by decide)
      · exact (hlabel _ (mem_double hc)).1 rfl
      · exact absurd hc (by decide)
    · have hlisted := t.isListed_of_values (List.ne_nil_of_mem hv)
      have hfamily := h.unsigned hu
      exfalso
      rw [ColumnType.family] at hfamily
      cases hk : t.kind <;> simp_all [Kind.isListed, Kind.family]

theorem flat_arguments :
    Flat ([',', ' '].intercalate t.parameters) ∧ ')' ∉ [',', ' '].intercalate t.parameters := by
  refine ⟨.intercalate fun p hp => (parameters_spec h p hp).1, fun hc => ?_⟩
  rcases mem_intercalate hc with hc | hc | ⟨p, hp, hc⟩
  · exact absurd hc (by decide)
  · exact absurd hc (by decide)
  · exact (parameters_spec h p hp).2.1 hc

/-- The arguments of a spelling, with their parentheses. -/
theorem spelling_eq : ∃ args, t.spelling = t.kind.word.toList ++ (args ++ RawType.suffix t.unsigned) ∧
    (args = [] ∨ ∃ inside, args = '(' :: (inside ++ [')']) ∧ ')' ∉ inside) ∧ Flat args ∧
    (t.unsigned = true → ∀ c ∈ args, c ∉ ['"', '\\']) := by
  obtain ⟨hflat, hclose⟩ := flat_arguments h
  refine ⟨_, rfl, ?_⟩
  split_ifs with hp
  · exact ⟨.inl rfl, .nil, by simp⟩
  · refine ⟨.inr ⟨_, rfl, hclose⟩, ?_, fun hu c hc => ?_⟩
    · exact (Flat.of_forall (s := ['(']) (by decide)).append (hflat.append (.of_forall (by decide)))
    · simp only [List.mem_cons, List.mem_append, List.not_mem_nil, or_false] at hc
      rcases hc with rfl | hc | rfl
      · decide
      · rcases mem_intercalate hc with rfl | rfl | ⟨p, hp, hc⟩
        · decide
        · decide
        · exact (parameters_spec h p hp).2.2 hu c hc
      · decide

theorem toList_typeText : (typeText t).toList =
    if t.unsigned then '"' :: (t.spelling ++ ['"']) else t.spelling := by
  have hname : t.enumName? = none := by simp [ColumnType.enumName?, h.enumName]
  rw [typeText, hname, ← ColumnType.sql_eq_spelling]
  cases t.unsigned with
  | false => simp [RawType.suffix]
  | true => simp [RawType.suffix]

end Spelled

theorem kind_word_spec (k : Kind) : ∀ c ∈ k.word.toList,
    ((isQuote c = false ∧ c ≠ '/') ∧ isLineBreak c = false) ∧ isBlank c = false ∧
      c ∉ ['"', '\\', ':', '\x7b'] := by
  intro c hc
  have hplain := isPlainChar_of_isWord k.word_spec.1 hc
  obtain ⟨-, -, hblank, hb, hq, hm⟩ := isPlainChar_spec hplain
  have hne : ∀ d, isPlainChar d = false → c ≠ d := by
    rintro d hd rfl
    simp [hplain] at hd
  refine ⟨⟨⟨hq, hne _ (by decide)⟩, hb⟩, hblank, ?_⟩
  simp only [List.mem_cons, List.not_mem_nil, or_false, not_or]
  exact ⟨hne _ (by decide), hne _ (by decide), hne _ (by decide), hne _ (by decide)⟩

/-- How a type stands in a line: a phrase without a break that starts with neither a blank nor a
mark, and from which the type is taken. -/
structure TypeSpec (t : ColumnType) : Prop where
  flat : Flat (typeText t).toList
  head : ∃ c r, (typeText t).toList = c :: r ∧ isBlank c = false ∧ c ∉ [':', '\x7b']
  last : ∀ c ∈ (typeText t).toList.getLast?, isBlank c = false
  take : ∀ settings, takeType? ((typeText t).toList ++ (bracketed settings).toList) =
    some (rawType t, [',', ' '].intercalate (settings.map String.toList))

theorem typeSpec_of_isSpelled {t : ColumnType} (h : t.IsSpelled) : TypeSpec t := by
  obtain ⟨args, hspell, hargs, hflat, hmark⟩ := spelling_eq h
  have hraw : rawType t = t.spelling := by simp [rawType, h.enumName]
  have htext := toList_typeText h
  have hword := t.kind.word_spec.1
  obtain ⟨w, ws, hw⟩ : ∃ w ws, t.kind.word.toList = w :: ws := by
    cases hw : t.kind.word.toList with
    | nil => simp [hw, isWord] at hword
    | cons w ws => exact ⟨w, ws, rfl⟩
  have hfirst := kind_word_spec t.kind w (by simp [hw])
  cases hu : t.unsigned with
  | false =>
    simp only [hu, Bool.false_eq_true, if_false, RawType.suffix, List.append_nil] at htext hspell
    refine ⟨?_, ⟨w, ws ++ args, ?_, hfirst.2.1, ?_⟩, ?_, fun settings => ?_⟩
    · rw [htext, hspell]
      exact (Flat.of_forall fun c hc => (kind_word_spec t.kind c hc).1).append hflat
    · rw [htext, hspell, hw, List.cons_append]
    · have := hfirst.2.2
      simp only [List.mem_cons, List.not_mem_nil, or_false, not_or] at this ⊢
      exact ⟨this.2.2.1, this.2.2.2⟩
    · rw [htext, hspell]
      refine (RawType.trimmed_word_append t.kind ?_).2
      rcases hargs with rfl | ⟨inside, rfl, -⟩
      · simp
      · simp [List.getLast?_cons, show isBlank ')' = false by decide]
    · rw [htext, hraw, hspell, List.append_assoc, takeType?_word hword hargs]
  | true =>
    simp only [hu, if_true] at htext hspell hmark
    have hall : ∀ c ∈ t.spelling, c ∉ ['"', '\\'] ∧ isLineBreak c = false := by
      rw [hspell]
      intro c hc
      simp only [List.mem_append] at hc
      rcases hc with hc | hc | hc
      · obtain ⟨⟨-, hb⟩, -, hm⟩ := kind_word_spec t.kind c hc
        simp only [List.mem_cons, List.not_mem_nil, or_false, not_or] at hm ⊢
        exact ⟨⟨hm.1, hm.2.1⟩, hb⟩
      · exact ⟨hmark trivial c hc, hflat.no_break c hc⟩
      · revert c
        decide
    have hsealed : isSealed '"' t.spelling = true := isSealed_of_forall fun c hc => by
      have := (hall c hc).1
      simp only [List.mem_cons, List.not_mem_nil, or_false, not_or] at this
      exact this
    refine ⟨?_, ⟨'"', t.spelling ++ ['"'], htext, by decide, by decide⟩, ?_, fun settings => ?_⟩
    · rw [htext]
      exact (Phrase.enclose rfl hsealed fun c hc => (hall c hc).2).flat
    · rw [htext]
      simp [List.getLast?_cons, show isBlank '"' = false by decide]
    · rw [htext, hraw, List.cons_append, List.append_assoc, List.singleton_append,
        takeType?_quoted]
      · exact fun hc => (hall _ hc).1 (by simp)
      · simp [hspell, hw]

theorem typeSpec_ofEnum {n : String} (hn : IsName n) (values : List String) :
    TypeSpec (.ofEnum n values) := by
  have hne : n ≠ "" := fun h => hn.ne_nil (by simp [h])
  have hname : (ColumnType.ofEnum n values).enumName? = some n :=
    Option.filter_eq_some_iff.2 ⟨rfl, by simpa using hne⟩
  have htext : typeText (.ofEnum n values) = quoteName n := by rw [typeText, hname]
  have hraw : rawType (.ofEnum n values) = n.toList := rfl
  have hphrase := Phrase.quoteName hn
  obtain ⟨c, r, hr⟩ := List.exists_cons_of_ne_nil hphrase.ne_nil
  have hblank : isBlank c = false := hphrase.trimmed.1 c (by simp [hr])
  refine ⟨htext ▸ hphrase.flat, ⟨c, r, htext ▸ hr, hblank, ?_⟩, htext ▸ hphrase.trimmed.2,
    fun settings => ?_⟩
  · rcases quoteName_cases hn with ⟨hplain, hw⟩ | hq
    · have hmem : c ∈ n.toList := by simp [← hplain, hr]
      obtain ⟨-, -, -, -, -, hm⟩ := isPlainChar_spec (isPlainChar_of_isWord hw hmem)
      simp only [marks, List.mem_cons, List.not_mem_nil, or_false, not_or] at hm ⊢
      tauto
    · obtain rfl : '"' = c := List.head_eq_of_cons_eq (hq.symm.trans hr)
      decide
  · rw [htext, hraw]
    rcases quoteName_cases hn with ⟨hplain, hw⟩ | hq
    · have := takeType?_word hw (.inl rfl) settings
      rw [List.append_nil, List.nil_append] at this
      rw [hplain, this]
    · rw [hq, enclose, List.cons_append, List.append_assoc, List.singleton_append,
        takeType?_quoted (fun hc => (hn.safe _ hc).1 rfl) hn.ne_nil]

/-- Every type that can be written is taken from its line. -/
theorem typeSpec {t : ColumnType} (h : t.IsWritten) : TypeSpec t := by
  rcases h with h | ⟨n, values, hn, rfl⟩
  · exact typeSpec_of_isSpelled h
  · exact typeSpec_ofEnum hn values

end Schemata.Notation
