import Schemata.Proofs.Column.Default

/-!
# Literals that are read as themselves

A literal that has been read is a text, and the text may be read once more. What decides its meaning is
its core (`Literal.core`), and the core of a core is the core (`core_core`). So a text that was read
without quotes is read as itself from then on (`isBare_of_ofText`). A text that came out of quotes may
look like a null, an expression or a quoted text by then; it is read as itself exactly if it is bare
(`ofText_eq_text_iff`), because quotes that are taken off make a text shorter.
-/

namespace Schemata

open Text Notation

theorem Notation.trimmed_strip (s : List Char) : Trimmed (strip s) := by
  have hdropped : ∀ (l : List Char), ∀ c ∈ (l.dropWhile isBlank).head?, isBlank c = false := by
    intro l c hc
    have hhead := List.head?_dropWhile_not isBlank l
    rw [Option.mem_def.1 hc] at hhead
    exact hhead
  constructor
  · intro c hc
    obtain ⟨blanks, hsplit⟩ : strip s <+: skipBlanks s :=
      List.reverse_suffix.1 (by simpa [strip, dropTrailingBlanks] using List.dropWhile_suffix isBlank)
    refine hdropped s c ?_
    show c ∈ (skipBlanks s).head?
    rw [← hsplit, List.head?_append, Option.mem_def.1 hc]
    rfl
  · intro c hc
    rw [strip, dropTrailingBlanks, List.getLast?_reverse] at hc
    exact hdropped _ c hc

namespace Literal

/-! ## Cores -/

/-- The text that decides what a default means: without the blanks at its ends, the casts behind it and
the parentheses around it. -/
def core (s : List Char) : List Char := unwrap (stripCasts (strip s))

theorem stripCasts_spec {s : List Char} (h : Trimmed s) :
    Trimmed (stripCasts s) ∧ castHead? (stripCasts s) = none := by
  induction s using stripCasts.induct with
  | case1 s hnone =>
    rw [stripCasts_eq_self hnone]
    exact ⟨h, hnone⟩
  | case2 s t hsome ih =>
    have hnext : stripCasts s = stripCasts (strip t) := by
      rw [stripCasts]
      split
      · next hnone => simp [hsome] at hnone
      · next u hu =>
        obtain rfl : t = u := Option.some.inj (hsome.symm.trans hu)
        rfl
    rw [hnext]
    exact ih (trimmed_strip t)

/-- What is left of a trimmed text without a cast is a shorter text of this sort, or the text itself,
and nothing more can be taken off. -/
theorem unwrap_spec {s : List Char} (htrim : Trimmed s) (hcast : castHead? s = none) :
    Trimmed (unwrap s) ∧ castHead? (unwrap s) = none ∧ unwrap (unwrap s) = unwrap s ∧
      (unwrap s).length ≤ s.length := by
  have hlength : ∀ s, (stripCasts (strip (inner s))).length ≤ s.length := by
    intro s
    have h₁ := length_stripCasts_le (strip (inner s))
    have h₂ := length_strip_le (inner s)
    have h₃ : (inner s).length ≤ s.length := by
      simp only [inner, List.length_dropLast, List.length_drop]
      omega
    omega
  have hstay : ∀ s, Trimmed s → castHead? s = none → unwrap s = s →
      Trimmed (unwrap s) ∧ castHead? (unwrap s) = none ∧ unwrap (unwrap s) = unwrap s ∧
        (unwrap s).length ≤ s.length := by
    intro s htrim hcast hself
    rw [hself]
    exact ⟨htrim, hcast, hself, Nat.le_refl _⟩
  induction s using unwrap.induct with
  | case1 s hwraps t htwice u hsame ih =>
    refine hstay s htrim hcast ?_
    rw [unwrap, dif_pos hwraps]
    dsimp only
    rw [if_pos htwice, if_pos hsame]
  | case2 s hwraps t htwice u hsame ih =>
    have hnext : unwrap s = unwrap t := by
      rw [unwrap, dif_pos hwraps]
      dsimp only
      rw [if_pos htwice, if_neg hsame]
    obtain ⟨htrim', hcast'⟩ := stripCasts_spec (trimmed_strip (inner s))
    obtain ⟨h₁, h₂, h₃, h₄⟩ := ih htrim' hcast'
    rw [hnext]
    exact ⟨h₁, h₂, h₃, Nat.le_trans h₄ (hlength s)⟩
  | case3 s hwraps t honce hplain =>
    have hnext : unwrap s = t := by
      rw [unwrap, dif_pos hwraps]
      dsimp only
      rw [if_neg honce, if_pos hplain]
    obtain ⟨htrim', hcast'⟩ := stripCasts_spec (trimmed_strip (inner s))
    rw [hnext]
    refine ⟨htrim', hcast', ?_, hlength s⟩
    rw [unwrap, dif_neg honce]
  | case4 s hwraps t honce hplain =>
    refine hstay s htrim hcast ?_
    rw [unwrap, dif_pos hwraps]
    dsimp only
    rw [if_neg honce, if_neg hplain]
  | case5 s hwraps => exact hstay s htrim hcast (by rw [unwrap, dif_neg hwraps])

/-- The core of a core is the core. -/
theorem core_core (s : List Char) : core (core s) = core s := by
  obtain ⟨htrim, hcast⟩ := stripCasts_spec (trimmed_strip s)
  obtain ⟨htrim', hcast', hself, -⟩ := unwrap_spec htrim hcast
  show unwrap (stripCasts (strip (core s))) = core s
  rw [core, htrim'.strip_eq, stripCasts_eq_self hcast', hself]

theorem length_core_le (s : List Char) : (core s).length ≤ s.length := by
  obtain ⟨htrim, hcast⟩ := stripCasts_spec (trimmed_strip s)
  calc (core s).length ≤ (stripCasts (strip s)).length := (unwrap_spec htrim hcast).2.2.2
    _ ≤ (strip s).length := length_stripCasts_le _
    _ ≤ s.length := length_strip_le s

/-! ## What a core is read as -/

/-- Whether a text is null, the next value of a sequence, in backticks or an expression. -/
def isSpecial (s : List Char) : Bool :=
  lower s == "null".toList || "nextval(".toList.isPrefixOf (lower s) ||
    decide (2 ≤ s.length ∧ s.head? = some '\x60' ∧ s.getLast? = some '\x60') || isExpression s

/-- A text that is read as itself: it is its own core, and neither in quotes nor anything special. -/
structure IsBare (s : List Char) : Prop where
  core_eq : core s = s
  unquoted : isQuoted s = false
  plain : isSpecial s = false

instance (s : List Char) : Decidable (IsBare s) :=
  decidable_of_iff (core s = s ∧ isQuoted s = false ∧ isSpecial s = false)
    ⟨fun ⟨h₁, h₂, h₃⟩ => ⟨h₁, h₂, h₃⟩, fun ⟨h₁, h₂, h₃⟩ => ⟨h₁, h₂, h₃⟩⟩

variable (t : ColumnType) {s : List Char}

/-- What a text is read as depends on its core alone. -/
theorem ofText_congr {u : List Char} (h : core s = core u) : ofText t s = ofText t u := by
  unfold ofText
  dsimp only
  rw [← core, ← core, h]

theorem ofText_of_isQuoted (h : isQuoted (core s) = true) :
    ∃ q, ofText t s = some (typed t (halve q (inner (core s)))) := by
  unfold ofText
  dsimp only
  rw [← core]
  generalize core s = c at h ⊢
  cases c with
  | nil => simp [isQuoted] at h
  | cons q r => exact ⟨q, if_pos h⟩

theorem ofText_of_plain (h : isQuoted (core s) = false) (hplain : isSpecial (core s) = false) :
    ofText t s = some (typed t (core s)) := by
  unfold ofText
  dsimp only
  rw [← core]
  generalize core s = c at h hplain ⊢
  cases c with
  | nil => rfl
  | cons q r =>
    simp only [isSpecial, Bool.or_eq_false_iff, beq_eq_false_iff_ne, decide_eq_false_iff_not] at hplain
    obtain ⟨⟨⟨hnull, hnext⟩, hticks⟩, hexpression⟩ := hplain
    dsimp only
    rw [h, hnext, hexpression, if_neg hnull, if_neg hticks]
    rfl

/-- A special text is read as no default or as an expression. -/
theorem ofText_of_isSpecial (h : isQuoted (core s) = false) (hspecial : isSpecial (core s) = true) :
    ofText t s = none ∨ ∃ sql, ofText t s = some (.expr sql) := by
  unfold ofText
  dsimp only
  rw [← core]
  generalize core s = c at h hspecial ⊢
  cases c with
  | nil => exact absurd hspecial (by decide)
  | cons q r =>
    simp only [isSpecial, Bool.or_eq_true, beq_iff_eq, decide_eq_true_eq] at hspecial
    dsimp only
    rw [h, if_neg Bool.false_ne_true]
    split_ifs with hnull hnext hticks hexpression
    · exact .inl rfl
    · exact .inl rfl
    · exact .inr ⟨_, rfl⟩
    · exact .inr ⟨_, rfl⟩
    · exact absurd hspecial
        (not_or.2 ⟨not_or.2 ⟨not_or.2 ⟨hnull, hnext⟩, hticks⟩, hexpression⟩)

/-! ## Reading a literal once more -/

variable {t}

theorem eq_of_typed_eq_text {u : String} (h : typed t s = .text u) : u = String.ofList s := by
  obtain ⟨-, b, hb⟩ | ⟨-, -, n, hn⟩ | ⟨-, d, -, hd⟩ | htext := typed_cases t s
  · rw [hb] at h
    cases h
  · rw [hn] at h
    cases h
  · rw [hd] at h
    cases h
  · rw [htext] at h
    exact (Default.text.inj h).symm

theorem length_halve_le (q : Char) (s : List Char) : (halve q s).length ≤ s.length := by
  fun_induction halve q s with
  | case1 => exact Nat.le_refl _
  | case2 => exact Nat.le_refl _
  | case3 r ih =>
    simp only [List.length_cons]
    omega
  | case4 c d r h ih =>
    simp only [List.length_cons] at ih ⊢
    omega

/-- A text that is no other value of its type is read as itself exactly if it is bare. -/
theorem ofText_eq_text_iff {text : String} (htyped : typed t text.toList = .text text) :
    ofText t text.toList = some (.text text) ↔ IsBare text.toList := by
  constructor
  · intro h
    cases hquoted : isQuoted (core text.toList) with
    | true =>
      obtain ⟨q, hq⟩ := ofText_of_isQuoted t hquoted
      rw [hq] at h
      have hsame := eq_of_typed_eq_text (Option.some.inj h)
      -- the text would have to be longer than what is in its quotes
      have hne : core text.toList ≠ [] := by
        intro hnil
        simp [hnil, isQuoted] at hquoted
      have hlength : text.toList.length = (halve q (inner (core text.toList))).length := by
        conv_lhs => rw [hsame, String.toList_ofList]
      have h₁ := length_halve_le q (inner (core text.toList))
      have h₂ := length_core_le text.toList
      have h₃ : (inner (core text.toList)).length < (core text.toList).length := by
        have hpos := List.length_pos_of_ne_nil hne
        simp only [inner, List.length_dropLast, List.length_drop]
        omega
      omega
    | false =>
      cases hspecial : isSpecial (core text.toList) with
      | true =>
        obtain hnone | ⟨sql, hsql⟩ := ofText_of_isSpecial t hquoted hspecial
        · rw [hnone] at h
          cases h
        · rw [hsql] at h
          cases h
      | false =>
        rw [ofText_of_plain t hquoted hspecial] at h
        have hsame := eq_of_typed_eq_text (Option.some.inj h)
        have hcore : core text.toList = text.toList := by
          conv_rhs => rw [hsame, String.toList_ofList]
        rw [hcore] at hquoted hspecial
        exact ⟨hcore, hquoted, hspecial⟩
  · intro h
    rw [ofText_of_plain t (by rw [h.core_eq, h.unquoted]) (by rw [h.core_eq, h.plain]), h.core_eq,
      htyped]

/-- A text that was read without quotes is the core of what was read. -/
theorem core_of_ofText {text : String} (h : ofText t s = some (.text text))
    (hquoted : isQuoted (core s) = false) :
    text.toList = core s ∧ isSpecial (core s) = false := by
  cases hspecial : isSpecial (core s) with
  | true =>
    obtain hnone | ⟨sql, hsql⟩ := ofText_of_isSpecial t hquoted hspecial
    · rw [hnone] at h
      cases h
    · rw [hsql] at h
      cases h
  | false =>
    rw [ofText_of_plain t hquoted hspecial] at h
    rw [eq_of_typed_eq_text (Option.some.inj h), String.toList_ofList]
    exact ⟨rfl, rfl⟩

/-- A text that was read without quotes is bare. -/
theorem isBare_of_ofText {text : String} (h : ofText t s = some (.text text))
    (hquoted : isQuoted (core s) = false) : IsBare text.toList := by
  obtain ⟨htext, hspecial⟩ := core_of_ofText h hquoted
  rw [htext]
  exact ⟨core_core s, hquoted, hspecial⟩

/-! ## Room for reading once more -/

variable {l : Limits}

theorem one_le_unwrapCalls (s : List Char) : 1 ≤ unwrapCalls s := by
  rw [unwrapCalls]
  split
  · dsimp only
    split <;> omega
  · exact Nat.le_refl 1

/-- Calls that were made once are not made again. -/
theorem unwrapCalls_unwrap_le (s : List Char) : unwrapCalls (unwrap s) ≤ unwrapCalls s := by
  induction s using unwrap.induct with
  | case1 s hwraps t htwice u hsame ih =>
    have hself : unwrap s = s := by
      rw [unwrap, dif_pos hwraps]
      dsimp only
      rw [if_pos htwice, if_pos hsame]
    exact Nat.le_of_eq (congrArg _ hself)
  | case2 s hwraps t htwice u hsame ih =>
    have hnext : unwrap s = unwrap t := by
      rw [unwrap, dif_pos hwraps]
      dsimp only
      rw [if_pos htwice, if_neg hsame]
    have hcalls : unwrapCalls s = unwrapCalls t + 1 := by
      rw [unwrapCalls, dif_pos hwraps]
      dsimp only
      rw [if_pos htwice]
    rw [hnext, hcalls]
    exact Nat.le_succ_of_le ih
  | case3 s hwraps t honce hplain =>
    have hnext : unwrap s = t := by
      rw [unwrap, dif_pos hwraps]
      dsimp only
      rw [if_neg honce, if_pos hplain]
    have hcalls : unwrapCalls t = 1 := by rw [unwrapCalls, dif_neg honce]
    rw [hnext, hcalls]
    exact one_le_unwrapCalls s
  | case4 s hwraps t honce hplain =>
    have hself : unwrap s = s := by
      rw [unwrap, dif_pos hwraps]
      dsimp only
      rw [if_neg honce, if_neg hplain]
    exact Nat.le_of_eq (congrArg _ hself)
  | case5 s hwraps => exact Nat.le_of_eq (congrArg _ (by rw [unwrap, dif_neg hwraps]))

/-- A core is reached with no more calls than the text it is the core of. -/
theorem unwrapCalls_core_le (s : List Char) :
    unwrapCalls (stripCasts (strip (core s))) ≤ unwrapCalls (stripCasts (strip s)) := by
  obtain ⟨htrim, hcast⟩ := stripCasts_spec (trimmed_strip s)
  obtain ⟨htrim', hcast', -⟩ := unwrap_spec htrim hcast
  rw [show strip (core s) = core s from htrim'.strip_eq,
    show stripCasts (core s) = core s from stripCasts_eq_self hcast']
  exact unwrapCalls_unwrap_le _

/-- Nothing keeps a text from being read that is no other value of its type. -/
theorem typedFault?_eq_none {text : String} (h : typed t s = .text text) :
    typedFault? l t s = none := by
  unfold typedFault?
  dsimp only
  rw [if_neg]
  rintro ⟨hkind, hfamily, hwhole⟩
  unfold typed at h
  dsimp only at h
  rw [if_neg hkind, if_pos ⟨hfamily, hwhole⟩] at h
  cases h

theorem textFault?_eq_none (hcalls : l.callFault? (unwrapCalls (stripCasts (strip s))) = none)
    (h : ∀ u, ofText (.plain .text) s = some (.text u) → typedFault? l t u.toList = none) :
    textFault? l t s = none := by
  rw [textFault?, hcalls, Option.none_or]
  split
  · next u hu => exact h u hu
  · rfl

theorem callFault?_of_textFault? (h : textFault? l t s = none) :
    l.callFault? (unwrapCalls (stripCasts (strip s))) = none := (Option.or_eq_none_iff.1 h).1

/-- Nothing keeps a bare text from being read once more, if it was reached in a text that was read. -/
theorem textFault?_of_isBare {text : String} (hbare : IsBare text.toList)
    (htyped : typed t text.toList = .text text)
    (hcalls : l.callFault? (unwrapCalls (stripCasts (strip text.toList))) = none) :
    textFault? l t text.toList = none := by
  refine textFault?_eq_none hcalls fun u hu => ?_
  have hplain : typed (.plain .text) text.toList = .text text :=
    congrArg Default.text String.ofList_toList
  have hself := (ofText_eq_text_iff hplain).2 hbare
  rw [hself] at hu
  cases hu
  exact typedFault?_eq_none htyped

theorem textFault?_decimal {d : Decimal} (hfamily : t.family = .fixedPoint)
    (hcalls : l.callFault? 1 = none) (hd : d.IsBounded) : textFault? l t d.text.toList = none := by
  obtain ⟨htrim, hcasts, hparen⟩ := trimmed_numeral (Decimal.chars_numeral hd.finite).1
  have hone : unwrapCalls (stripCasts (strip d.text.toList)) = 1 := by
    rw [Decimal.text, String.toList_ofList, htrim.strip_eq, hcasts, unwrapCalls, dif_neg]
    simp [wrapsWhole, hparen]
  refine textFault?_eq_none (hone.symm ▸ hcalls) fun u _ => ?_
  rw [typedFault?, if_neg]
  simp [hfamily]

end Literal

end Schemata
