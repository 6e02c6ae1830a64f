import Schemata.Notation.Writer
import Schemata.Proofs.Column.Spelling
import Schemata.Proofs.Notation.Setting

/-!
# Defaults that read back

A default is written in the notation with the marks of its sort, and read back through the type of
its column: an expression as it is, anything else as what its text means there. `Default.kept` is
that reading, `defaultOf_defaultText` says that it is what comes back, and `Default.kept_eq_self_iff`
for which types it is the default that was written.
-/

namespace Schemata

open Text Notation

namespace Literal

/-! ## Texts that are left as they are -/

theorem castHead?_eq_none {s : List Char} {d : Char} (hs : s.getLast? = some d)
    (hd : isCastChar d = false) : castHead? s = none := by
  fun_induction castHead? s with
  | case1 => rfl
  | case2 => rfl
  | case3 a b r h =>
    obtain ⟨-, -, hne, hall⟩ := h
    obtain ⟨e, t, rfl⟩ := List.exists_cons_of_ne_nil hne
    have hlast : (e :: t).getLast? = some d := by simpa [List.getLast?_cons] using hs
    simp [List.all_eq_true.1 hall d (List.mem_of_getLast? hlast)] at hd
  | case4 a b r h ih => rw [ih (by simpa [List.getLast?_cons] using hs), Option.map_none]

theorem castHead?_eq_none_of_not_mem {s : List Char} (h : ':' ∉ s) : castHead? s = none := by
  fun_induction castHead? s with
  | case1 => rfl
  | case2 => rfl
  | case3 a b r h' => exact absurd (List.mem_cons.2 (.inl h'.1.symm)) h
  | case4 a b r h' ih => rw [ih fun hm => h (by simp [List.mem_cons.1 hm]), Option.map_none]

theorem stripCasts_eq_self {s : List Char} (h : castHead? s = none) : stripCasts s = s := by
  rw [stripCasts]
  split
  · rfl
  · next t ht => simp [h] at ht

theorem unwrap_eq_self {s : List Char} (h : s.head? ≠ some '(') : unwrap s = s := by
  rw [unwrap, dif_neg]
  simp [wrapsWhole, h]

theorem trimmed_quoteDoubled (s : List Char) : Trimmed (quoteDoubled s) :=
  trimmed_enclose (by decide) (by decide) _

/-- A text in quotes is read as its inside. -/
theorem ofText_quoteDoubled (t : ColumnType) (s : List Char) :
    ofText t (quoteDoubled s) = some (typed t s) := by
  have hlast : (quoteDoubled s).getLast? = some '\'' := by
    simp [quoteDoubled, enclose, List.getLast?_cons]
  have hinner : inner (quoteDoubled s) = double '\'' s := by simp [inner, quoteDoubled, enclose]
  have hquoted : isQuoted (quoteDoubled s) = true := by simp [isQuoted, quoteDoubled, enclose]
  have hcasts := stripCasts_eq_self (castHead?_eq_none hlast (by decide))
  rw [ofText, (trimmed_quoteDoubled s).strip_eq, hcasts,
    unwrap_eq_self (by simp [quoteDoubled, enclose])]
  show (if isQuoted (quoteDoubled s) = true then
    some (typed t (halve '\'' (inner (quoteDoubled s)))) else _) = _
  rw [if_pos hquoted, hinner, halve_double]

theorem isNameStart_of_isDigit {c : Char} (hc : c.isDigit = true) : isNameStart c = false := by
  have check : (!c.isDigit || !isNameStart c) = true :=
    ascii_check (p := fun c => !c.isDigit || !isNameStart c) (by decide +kernel)
      (toNat_lt_of_isPlainChar (by simp [isPlainChar, Char.isAlphanum, hc]))
  simpa [hc] using check

/-- The characters of numerals. -/
def isNumeralChar (c : Char) : Bool := c.isDigit || c == '-' || c == '+' || c == '.' || c == 'E'

theorem isNumeralChar_spec {c : Char} (h : isNumeralChar c = true) :
    isBlank c = false ∧ isQuote c = false ∧ c ∉ ['(', ')', '[', ']', ',', ':', '/', '"'] ∧
      isLineBreak c = false ∧ (isNameStart c = false → ∀ r, lower (c :: r) = c :: lower r) := by
  have hlt : c.toNat < 128 := by
    simp only [isNumeralChar, Bool.or_eq_true, beq_iff_eq] at h
    rcases h with (((h | rfl) | rfl) | rfl) | rfl
    · exact toNat_lt_of_isPlainChar (by simp [isPlainChar, Char.isAlphanum, h])
    all_goals decide
  have check : (!isNumeralChar c || (!isBlank c && !isQuote c &&
      decide (c ∉ ['(', ')', '[', ']', ',', ':', '/', '"']) && !isLineBreak c &&
      (isNameStart c || (lowerChar c == c && !isCased c)))) = true :=
    ascii_check (p := fun c => !isNumeralChar c || (!isBlank c && !isQuote c &&
      decide (c ∉ ['(', ')', '[', ']', ',', ':', '/', '"']) && !isLineBreak c &&
      (isNameStart c || (lowerChar c == c && !isCased c)))) (by decide +kernel) hlt
  simp only [h, Bool.not_true, Bool.false_or, Bool.and_eq_true, Bool.not_eq_true',
    decide_eq_true_eq, Bool.or_eq_true, beq_iff_eq] at check
  obtain ⟨⟨⟨⟨h₁, h₂⟩, h₃⟩, h₄⟩, h₅⟩ := check
  refine ⟨h₁, h₂, h₃, h₄, fun hc r => ?_⟩
  obtain ⟨hsame, hcased⟩ := h₅.resolve_left (by simp [hc])
  rw [lower_cons (decide_eq_true hlt) hcased, hsame]

theorem not_isPrefixOf_of_head {c : Char} (hc : isNameStart c = false) {w : List Char}
    (hw : (w.head?.map isNameStart) = some true) (r : List Char) :
    w.isPrefixOf (c :: r) = false := by
  cases w with
  | nil => simp at hw
  | cons d t =>
    have hd : d ≠ c := by
      rintro rfl
      simp [hc] at hw
    show (d == c && t.isPrefixOf r) = false
    rw [Bool.and_eq_false_iff, beq_eq_false_iff_ne]
    exact .inl hd

theorem ne_of_head {c : Char} (hc : isNameStart c = false) {w : List Char}
    (hw : (w.head?.map isNameStart) = some true) (r : List Char) : c :: r ≠ w := by
  rintro rfl
  simp [hc] at hw

/-- A text that starts with no letter is neither null nor a call nor any other expression. -/
theorem no_word_of_head {c : Char} (hc : isNameStart c = false) {r : List Char}
    (hlower : lower (c :: r) = c :: lower r) (htrim : Trimmed (c :: r)) :
    lower (c :: r) ≠ "null".toList ∧ "nextval(".toList.isPrefixOf (lower (c :: r)) = false ∧
      isExpression (c :: r) = false := by
  have hstamp : "current_timestamp(".toList.isPrefixOf (lower (c :: r)) = false :=
    hlower ▸ not_isPrefixOf_of_head hc (by decide) _
  have hwords : String.ofList (lower (c :: r)) ∉ expressionWords := fun hm => by
    have heads : ∀ w ∈ expressionWords, w.toList.head?.map isNameStart = some true := by decide
    have := heads _ hm
    rw [String.toList_ofList, hlower] at this
    simp [hc] at this
  refine ⟨hlower ▸ ne_of_head hc (by decide) _,
    hlower ▸ not_isPrefixOf_of_head hc (by decide) _, ?_⟩
  simp only [isExpression, htrim.strip_eq, hstamp, hwords, isCall, hc, decide_false,
    Bool.false_and, Bool.or_false]

variable {s : List Char}

/-- Nothing can be taken off a text of characters of numerals. -/
theorem trimmed_numeral (hs : ∀ c ∈ s, isNumeralChar c = true) :
    Trimmed s ∧ stripCasts s = s ∧ s.head? ≠ some '(' := by
  have spec := fun d hd => isNumeralChar_spec (hs d hd)
  have hcolon : ':' ∉ s := fun h => (spec _ h).2.2.1 (by simp)
  refine ⟨⟨fun d hd => (spec d (List.mem_of_head? hd)).1,
    fun d hd => (spec d (List.mem_of_getLast? hd)).1⟩,
    stripCasts_eq_self (castHead?_eq_none_of_not_mem hcolon), fun h => ?_⟩
  exact (spec '(' (List.mem_of_head? h)).2.2.1 (by simp)

/-- A text of characters of numerals that starts with a digit or a sign is read as a literal. -/
theorem ofText_numeral (t : ColumnType) (hs : ∀ c ∈ s, isNumeralChar c = true)
    (hhead : ∃ c r, s = c :: r ∧ isNameStart c = false) : ofText t s = some (typed t s) := by
  obtain ⟨c, r, rfl, hc⟩ := hhead
  obtain ⟨-, hquote, -, -, hlow⟩ := isNumeralChar_spec (hs c (by simp))
  obtain ⟨htrim, hcasts, hparen⟩ := trimmed_numeral hs
  have hunwrap : unwrap (c :: r) = c :: r := unwrap_eq_self hparen
  have hquoted : isQuoted (c :: r) = false := by
    simp only [isQuote, Bool.or_eq_false_iff, beq_eq_false_iff_ne] at hquote
    simp [isQuoted, hquote]
  obtain ⟨hnull, hnextval, hexpr⟩ := no_word_of_head hc (hlow hc r) htrim
  rw [ofText, htrim.strip_eq, hcasts, hunwrap]
  simp only [hquoted, hnull, hnextval, hexpr, Bool.false_eq_true, if_false]
  rw [if_neg]
  rintro ⟨-, h, -⟩
  obtain rfl : c = '\x60' := by simpa using h
  simp [isQuote] at hquote

/-- A truth value of the notation is read as a literal. -/
theorem ofText_bool (t : ColumnType) (b : Bool) :
    ofText t (if b then "true" else "false" : String).toList =
      some (typed t (if b then "true" else "false" : String).toList) := by
  have plain : ∀ s ∈ ["true".toList, "false".toList], castHead? s = none ∧ s.head? ≠ some '(' ∧
      strip s = s ∧ isQuoted s = false ∧ lower s = s ∧ s ≠ "null".toList ∧
      "nextval(".toList.isPrefixOf s = false ∧ s.head? ≠ some '\x60' ∧ isExpression s = false := by
    decide
  obtain ⟨h₁, h₂, h₃, h₄, h₅, h₆, h₇, h₈, h₉⟩ :=
    plain (if b then "true" else "false" : String).toList (by cases b <;> simp)
  rw [ofText, h₃, stripCasts_eq_self h₁, unwrap_eq_self h₂]
  simp only [h₄, h₅, h₆, h₇, h₈, h₉, Bool.false_eq_true, if_false, false_and, and_false]
  split <;> rfl

theorem isNumeralChar_intText (n : Int) : ∀ c ∈ (intText n).toList, isNumeralChar c = true := by
  intro c hc
  rcases mem_intText hc with rfl | hd
  · decide
  · simp [isNumeralChar, hd]

end Literal

/-! ## Defaults of a type -/

/-- The defaults that can be written: the backticks of an expression close at its end, a decimal is
a number, and a text breaks lines with line feeds only. -/
def Default.IsWritten : Default → Prop
  | .expr sql => isSealed '\x60' sql.toList = true ∧ ∀ c ∈ sql.toList, isLineBreak c = false
  | .decimal d => ∃ negative c e, d = .finite negative c e
  | .text s => FeedsOnly s
  | _ => True

/-- A default as a column of a type keeps it. -/
def Default.kept (t : ColumnType) : Default → Default
  | .expr sql => .expr sql
  | .text s => Literal.typed t s.toList
  | d => Literal.typed t (defaultText d).toList

/-- The defaults that a type keeps as they are. -/
def Default.Fits (t : ColumnType) : Default → Prop
  | .expr _ => True
  | .bool _ => t.kind = .boolean
  | .int _ => t.family = .integer ∧ t.kind ≠ .boolean
  | .decimal d => t.family = .fixedPoint ∧ d.IsBounded
  | .text s => Literal.typed t s.toList = .text s

theorem Default.kept_congr {t u : ColumnType} (hk : t.kind = u.kind) (d : Default) :
    d.kept t = d.kept u := by
  cases d <;> simp [Default.kept, Literal.typed, ColumnType.family, hk]

theorem typed_intText {t : ColumnType} (hf : t.family = .integer) (hk : t.kind ≠ .boolean) (n : Int) :
    Literal.typed t (intText n).toList = .int n := by
  have hlast : (intText n).toList.getLast? ≠ some '\n' := fun h => by
    have := (Literal.isNumeralChar_spec
      (Literal.isNumeralChar_intText n _ (List.mem_of_getLast? h))).2.2.2.1
    exact absurd this (by decide)
  have hdigits : Literal.dropFinalNewline (intText n).toList = (intText n).toList := if_neg hlast
  have hwhole : Literal.isWhole (intText n).toList = true := by
    rw [Literal.isWhole, takeSign_intText]
    exact isNumeral_toDigits _
  simp only [Literal.typed, if_neg hk, hdigits, hf, hwhole, true_and, if_true, takeSign_intText,
    digitsValue_toDigits, signed_natAbs]

/-! ## Decimals -/

namespace Decimal

theorem plain_chars {digits : List Char} (hd : ∀ c ∈ digits, c.isDigit = true) (hne : digits ≠ [])
    (places : Nat) :
    (∀ c ∈ plain digits places, c.isDigit = true ∨ c = '.') ∧
      ∃ c r, plain digits places = c :: r ∧ c.isDigit = true := by
  rw [plain]
  split_ifs with hp
  · obtain ⟨c, r, rfl⟩ := List.exists_cons_of_ne_nil hne
    exact ⟨fun c hc => .inl (hd c hc), c, r, rfl, hd c (by simp)⟩
  · set filled := List.replicate (places + 1 - digits.length) '0' ++ digits with hfilled
    have hall : ∀ c ∈ filled, c.isDigit = true := by
      intro c hc
      rcases List.mem_append.1 hc with hc | hc
      · obtain rfl := List.eq_of_mem_replicate hc
        decide
      · exact hd c hc
    have hlen : places < filled.length := by
      simp only [hfilled, List.length_append, List.length_replicate]
      omega
    refine ⟨fun c hc => ?_, ?_⟩
    · simp only [List.mem_append, List.mem_cons] at hc
      rcases hc with hc | rfl | hc
      · exact .inl (hall c (List.mem_of_mem_take hc))
      · exact .inr rfl
      · exact .inl (hall c (List.mem_of_mem_drop hc))
    · obtain ⟨c, r, hr⟩ : ∃ c r, filled = c :: r := by
        cases hf : filled with
        | nil => simp [hf] at hlen
        | cons c r => exact ⟨c, r, rfl⟩
      obtain ⟨k, hk⟩ : ∃ k, filled.length - places = k + 1 := ⟨filled.length - places - 1, by omega⟩
      show ∃ c r, filled.take (filled.length - places) ++ _ = c :: r ∧ c.isDigit = true
      rw [hk, hr, List.take_succ_cons]
      exact ⟨c, _, rfl, hall c (by simp [hr])⟩

theorem scientific_chars {digits : List Char} (hd : ∀ c ∈ digits, c.isDigit = true)
    (hne : digits ≠ []) (a : Int) :
    (∀ c ∈ scientific digits a, Literal.isNumeralChar c = true) ∧
      ∃ c r, scientific digits a = c :: r ∧ c.isDigit = true := by
  obtain ⟨d, fraction, rfl, h⟩ := scientific_eq hne a
  have hnum : ∀ c ∈ d :: fraction, Literal.isNumeralChar c = true := fun c hc => by
    simp [Literal.isNumeralChar, hd c hc]
  have hexp : ∀ c ∈ exponentChars a, Literal.isNumeralChar c = true := by
    intro c hc
    simp only [exponentChars, List.mem_cons] at hc
    rcases hc with rfl | rfl | hc
    · decide
    · split_ifs <;> decide
    · simp [Literal.isNumeralChar, isDigit_of_mem_toDigits hc]
  rw [h]
  split_ifs with hf
  · refine ⟨fun c hc => ?_, d, exponentChars a, rfl, hd d (by simp)⟩
    rcases List.mem_append.1 hc with hc | hc
    · exact hnum c (by simpa [hf] using hc)
    · exact hexp c hc
  · refine ⟨fun c hc => ?_, d, '.' :: (fraction ++ exponentChars a), rfl, hd d (by simp)⟩
    simp only [List.cons_append, List.mem_cons, List.mem_append] at hc
    rcases hc with rfl | rfl | hc | hc
    · exact hnum c (by simp)
    · decide
    · exact hnum c (by simp [hc])
    · exact hexp c hc

/-- The text of a number has characters of numerals and starts with no letter. -/
theorem chars_numeral {d : Decimal} (h : ∃ negative c e, d = finite negative c e) :
    (∀ c ∈ d.chars, Literal.isNumeralChar c = true) ∧
      ∃ c r, d.chars = c :: r ∧ isNameStart c = false := by
  obtain ⟨negative, n, e, rfl⟩ := h
  have hd : ∀ c ∈ Nat.toDigits 10 n, c.isDigit = true := fun c hc => isDigit_of_mem_toDigits hc
  obtain ⟨body, hbody, hall, c, r, hr, hc⟩ : ∃ body,
      (finite negative n e).chars = (if negative then '-' :: body else body) ∧
      (∀ c ∈ body, Literal.isNumeralChar c = true) ∧ ∃ c r, body = c :: r ∧ c.isDigit = true := by
    refine ⟨_, rfl, ?_⟩
    split_ifs
    · obtain ⟨h₁, h₂⟩ := plain_chars hd Nat.toDigits_ne_nil e.natAbs
      refine ⟨fun c hc => ?_, h₂⟩
      rcases h₁ c hc with hc | rfl
      · simp [Literal.isNumeralChar, hc]
      · decide
    · exact scientific_chars hd Nat.toDigits_ne_nil _
  rw [hbody]
  cases negative with
  | false => exact ⟨hall, c, r, hr, Literal.isNameStart_of_isDigit hc⟩
  | true =>
    refine ⟨fun d hd => ?_, '-', body, rfl, by decide⟩
    rcases List.mem_cons.1 hd with rfl | hd
    · decide
    · exact hall d hd

end Decimal

/-! ## Reading back -/

theorem intText_cons (n : Int) : ∃ c r, (intText n).toList = c :: r ∧ isNameStart c = false := by
  obtain ⟨c, r, hr⟩ := List.exists_cons_of_ne_nil (ColumnType.intText_ne_nil n)
  refine ⟨c, r, hr, ?_⟩
  rcases mem_intText (hr ▸ List.mem_cons_self : c ∈ (intText n).toList) with rfl | hc
  · decide
  · exact Literal.isNameStart_of_isDigit hc

theorem defaultOf_unquoted (t : ColumnType) {s : List Char} (ht : Trimmed s)
    (hs : ∀ c ∈ s.head?, isQuote c = false) : defaultOf t s = Literal.ofText t s := by
  have hne : ∀ q, isQuote q = true → s.head? ≠ some q := fun q hq h => by simp [hs q h] at hq
  simp only [defaultOf, ht.strip_eq]
  rw [if_neg fun h => hne '\x60' rfl h.1, if_neg fun h => h.elim (hne '\'' rfl) (hne '"' rfl)]

/-- A text of characters of numerals is a phrase, and read as a literal. -/
theorem defaultOf_numeral (t : ColumnType) {s : List Char}
    (hs : ∀ c ∈ s, Literal.isNumeralChar c = true)
    (hhead : ∃ c r, s = c :: r ∧ isNameStart c = false) :
    Phrase s ∧ defaultOf t s = some (Literal.typed t s) := by
  have spec := fun c hc => Literal.isNumeralChar_spec (hs c hc)
  have htrim : Trimmed s :=
    ⟨fun d hd => (spec d (List.mem_of_head? hd)).1, fun d hd => (spec d (List.mem_of_getLast? hd)).1⟩
  refine ⟨.of_isLoose (fun c hc => ?_) htrim ?_, ?_⟩
  · obtain ⟨-, hq, hm, hb, -⟩ := spec c hc
    simp only [List.mem_cons, List.not_mem_nil, or_false, not_or] at hm
    simp [isLoose, hq, hb, hm]
  · obtain ⟨c, r, rfl, -⟩ := hhead
    simp
  · rw [defaultOf_unquoted t htrim fun c hc => (spec c (List.mem_of_head? hc)).2.1,
      Literal.ofText_numeral t hs hhead]

theorem typed_decimal {t : ColumnType} (hf : t.family = .fixedPoint) {d : Decimal}
    (hd : d.IsBounded) : Literal.typed t d.text.toList = .decimal d := by
  have hk : t.kind ≠ .boolean := fun hk => by simp [ColumnType.family, hk, Kind.family] at hf
  have hlast : d.chars.getLast? ≠ some '\n' := fun h => by
    have := (Literal.isNumeralChar_spec
      ((Decimal.chars_numeral hd.finite).1 _ (List.mem_of_getLast? h))).2.2.2.1
    exact absurd this (by decide)
  have hread := Decimal.ofText?_chars hd
  have hnumber : Literal.isNumber d.chars = true := by
    obtain ⟨p, hp, -⟩ := Option.bind_eq_some_iff.1 hread
    simp [Literal.isNumber, hp]
  rw [Decimal.text, String.toList_ofList]
  simp [Literal.typed, hk, hf, Literal.dropFinalNewline, hlast, hnumber, hread]

/-- A default is a phrase when it is written, and is read back as its type keeps it. -/
theorem defaultOf_defaultText (t : ColumnType) {d : Default} (h : d.IsWritten) :
    Phrase (defaultText d).toList ∧ defaultOf t (defaultText d).toList = some (d.kept t) := by
  cases d with
  | expr sql =>
    have htext : (defaultText (.expr sql)).toList = enclose '\x60' '\x60' sql.toList := by
      simp [defaultText, enclose]
    rw [htext]
    refine ⟨.enclose rfl h.1 h.2, ?_⟩
    have htrim := trimmed_enclose (a := '\x60') (b := '\x60') (by decide) (by decide) sql.toList
    simp only [defaultOf, htrim.strip_eq]
    rw [if_pos (by simp [enclose, List.getLast?_cons])]
    simp [Literal.inner, enclose, Default.kept]
  | bool b =>
    have hshape : ∀ s ∈ ["true".toList, "false".toList], (∀ c ∈ s, isLoose c = true) ∧
        (∀ c ∈ s, isBlank c = false) ∧ s ≠ [] := by decide
    obtain ⟨hloose, hblank, hne⟩ := hshape (defaultText (.bool b)).toList
      (by cases b <;> simp [defaultText])
    have htrim : Trimmed (defaultText (.bool b)).toList :=
      ⟨fun c hc => hblank c (List.mem_of_head? hc), fun c hc => hblank c (List.mem_of_getLast? hc)⟩
    refine ⟨.of_isLoose hloose htrim hne, ?_⟩
    rw [defaultOf_unquoted t htrim]
    · exact Literal.ofText_bool t b
    · cases b <;> decide
  | int n => exact defaultOf_numeral t (Literal.isNumeralChar_intText n) (intText_cons n)
  | decimal d =>
    obtain ⟨hall, hhead⟩ := Decimal.chars_numeral h
    have htext : (defaultText (.decimal d)).toList = d.chars := String.toList_ofList
    have hkept : Default.kept t (.decimal d) = Literal.typed t d.chars :=
      congrArg (Literal.typed t) htext
    rw [hkept, htext]
    exact defaultOf_numeral t hall hhead
  | text s =>
    refine ⟨.quoteText h, ?_⟩
    have hhead : (quoteText s).toList.head? = some '\'' := by simp [toList_quoteText, enclose]
    simp only [defaultText, defaultOf, (trimmed_quoteText s).strip_eq, hhead,
      unquoteText_quoteText, Literal.ofText_quoteDoubled, Default.kept]
    simp

theorem Decimal.isBounded_of_ofText? {s : List Char} {d : Decimal} (h : Decimal.ofText? s = some d) :
    d.IsBounded := by
  obtain ⟨⟨negative, c, e⟩, -, hbound⟩ := Option.bind_eq_some_iff.1 h
  have hsame : d = .finite negative c e := by
    simp only [Decimal.bounded?] at hbound
    split_ifs at hbound
    simpa using hbound.symm
  subst hsame
  exact hbound

/-- What a literal can mean for a type. -/
theorem typed_cases (t : ColumnType) (s : List Char) :
    (t.kind = .boolean ∧ ∃ b, Literal.typed t s = .bool b) ∨
      (t.kind ≠ .boolean ∧ t.family = .integer ∧ ∃ n, Literal.typed t s = .int n) ∨
      (t.family = .fixedPoint ∧ ∃ d, d.IsBounded ∧ Literal.typed t s = .decimal d) ∨
      Literal.typed t s = .text (String.ofList s) := by
  simp only [Literal.typed]
  by_cases hk : t.kind = .boolean
  · rw [if_pos hk]
    split_ifs
    · exact .inl ⟨hk, true, rfl⟩
    · exact .inl ⟨hk, false, rfl⟩
    · exact .inr (.inr (.inr rfl))
  · rw [if_neg hk]
    split_ifs with hi hd
    · exact .inr (.inl ⟨hk, hi.1, _, rfl⟩)
    · cases hread : Decimal.ofText? (Literal.dropFinalNewline s) with
      | none => exact .inr (.inr (.inr rfl))
      | some d => exact .inr (.inr (.inl ⟨hd.1, d, Decimal.isBounded_of_ofText? hread, rfl⟩))
    · exact .inr (.inr (.inr rfl))

/-- A default is kept as it is exactly by the types it fits. -/
theorem Default.kept_eq_self_iff (t : ColumnType) (d : Default) : d.kept t = d ↔ d.Fits t := by
  have hcases := typed_cases t (defaultText d).toList
  cases d with
  | expr sql => exact ⟨fun _ => trivial, fun _ => rfl⟩
  | text s => exact Iff.rfl
  | bool b =>
    have hkept : Default.kept t (.bool b) = Literal.typed t (defaultText (.bool b)).toList := rfl
    rw [hkept]
    constructor
    · intro h
      rcases hcases with ⟨hk, -⟩ | ⟨-, -, n, hn⟩ | ⟨-, d, -, hd⟩ | ht
      · exact hk
      · simp [hn] at h
      · simp [hd] at h
      · simp [ht] at h
    · intro hk
      have hkind : t.kind = .boolean := hk
      cases b <;> simp [Literal.typed, hkind, defaultText, Literal.trueWords, Literal.falseWords] <;>
        decide
  | int n =>
    have hkept : Default.kept t (.int n) = Literal.typed t (intText n).toList := rfl
    have htext : defaultText (.int n) = intText n := rfl
    rw [hkept]
    rw [htext] at hcases
    refine ⟨fun h => ?_, fun h => typed_intText h.1 h.2 n⟩
    rcases hcases with ⟨-, b, hb⟩ | ⟨hk, hf, -⟩ | ⟨-, d, -, hd⟩ | ht
    · simp [hb] at h
    · exact ⟨hf, hk⟩
    · simp [hd] at h
    · simp [ht] at h
  | decimal d =>
    have hkept : Default.kept t (.decimal d) = Literal.typed t d.text.toList := rfl
    have htext : defaultText (.decimal d) = d.text := rfl
    rw [hkept]
    rw [htext] at hcases
    refine ⟨fun h => ?_, fun h => typed_decimal h.1 h.2⟩
    rcases hcases with ⟨-, b, hb⟩ | ⟨-, -, n, hn⟩ | ⟨hf, d', hd', heq⟩ | ht
    · simp [hb] at h
    · simp [hn] at h
    · obtain rfl : d' = d := by simpa [heq] using h
      exact ⟨hf, hd'⟩
    · simp [ht] at h

end Schemata
