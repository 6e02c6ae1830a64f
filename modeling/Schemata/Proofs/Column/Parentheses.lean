import Mathlib.Data.List.Infix
import Schemata.Proofs.Column.Bare
import Schemata.Proofs.Column.Cast

/-!
# Parentheses around a quoted text

Parentheses around a default are taken off from the outside, each pair only if it closes at the end of
the text, and they are counted without regard to quotes. So the text in the quotes takes part in the
count: what it does to the parentheses that are open in front of it (`Closes`) is what it does without
its quotes (`closes_quoteDoubled`). A text whose parentheses match comes out of any number of pairs
(`unwrap_wrapped`). Any other text keeps them all: the innermost pair does not seem to close at the end,
and no pair is taken off unless the one in it is (`unwrap_wrapped_of_not_balanced`). So a quoted text in
parentheses is read as the text exactly if the text is balanced (`ofRaw_parenthesised_iff`).
-/

namespace Schemata

open Text Notation

namespace Literal

/-- A text inside a number of pairs of parentheses. -/
def wrapped : (pairs : Nat) → List Char → List Char
  | 0, s => s
  | k + 1, s => enclose '(' ')' (wrapped k s)

/-- Behind `depth` open parentheses, a text never closes more of them than are open, and at its end
all are closed. -/
structure Closes (depth : Nat) (s : List Char) : Prop where
  opened : ∀ p, p <+: s → p.count ')' ≤ depth + p.count '('
  closed : s.count ')' = depth + s.count '('

/-- A text whose parentheses match. -/
abbrev Balanced (s : List Char) : Prop := Closes 0 s

instance (depth : Nat) (s : List Char) : Decidable (Closes depth s) :=
  decidable_of_iff ((∀ p ∈ s.inits, p.count ')' ≤ depth + p.count '(') ∧
      s.count ')' = depth + s.count '(')
    ⟨fun ⟨h₁, h₂⟩ => ⟨fun p hp => h₁ p ((List.mem_inits p s).2 hp), h₂⟩,
      fun ⟨h₁, h₂⟩ => ⟨fun p hp => h₁ p ((List.mem_inits p s).1 hp), h₂⟩⟩

/-! ## The count, character by character -/

section Count

variable {depth : Nat} {s : List Char}

theorem closes_nil : Closes depth [] ↔ depth = 0 := by
  constructor
  · exact fun h => by simpa using h.closed.symm
  · rintro rfl
    exact ⟨fun p hp => by simp [List.prefix_nil.1 hp], rfl⟩

/-- A character moves the depth, unless it closes what is not open. -/
theorem closes_cons_iff {c : Char} {depth' : Nat}
    (h : depth + [c].count '(' = depth' + [c].count ')') :
    Closes depth (c :: s) ↔ Closes depth' s := by
  have hcount : ∀ (d : Char) (p : List Char), (c :: p).count d = [c].count d + p.count d := by
    intro d p
    rw [← List.count_append, List.singleton_append]
  constructor
  · rintro ⟨hopened, hclosed⟩
    rw [hcount _ s, hcount _ s] at hclosed
    refine ⟨fun p hp => ?_, by omega⟩
    have hle := hopened (c :: p) (List.cons_prefix_cons.2 ⟨rfl, hp⟩)
    rw [hcount _ p, hcount _ p] at hle
    omega
  · rintro ⟨hopened, hclosed⟩
    refine ⟨fun p hp => ?_, ?_⟩
    · obtain rfl | ⟨q, rfl, hq⟩ := List.prefix_cons_iff.1 hp
      · exact Nat.zero_le _
      · have hle := hopened q hq
        rw [hcount _ q, hcount _ q]
        omega
    · rw [hcount _ s, hcount _ s]
      omega

theorem closes_open : Closes depth ('(' :: s) ↔ Closes (depth + 1) s := closes_cons_iff (by simp)

theorem closes_close : Closes (depth + 1) (')' :: s) ↔ Closes depth s := closes_cons_iff (by simp)

theorem closes_other {c : Char} (hopen : c ≠ '(') (hclose : c ≠ ')') :
    Closes depth (c :: s) ↔ Closes depth s := closes_cons_iff (by simp [hopen, hclose])

theorem not_closes_zero : ¬Closes 0 (')' :: s) := by
  intro h
  have hle := h.opened [')'] (List.cons_prefix_cons.2 ⟨rfl, List.nil_prefix⟩)
  simp at hle

/-- The quotes around a text and those in it do not count. -/
theorem closes_quoteDoubled : Closes depth (quoteDoubled s) ↔ Closes depth s := by
  rw [quoteDoubled, enclose, closes_other (by decide) (by decide)]
  induction s generalizing depth with
  | nil => rw [double_nil, List.nil_append, closes_other (by decide) (by decide)]
  | cons c s ih =>
    rw [double]
    split
    · next hc =>
      subst hc
      rw [List.cons_append, List.cons_append, closes_other (by decide) (by decide),
        closes_other (by decide) (by decide), closes_other (by decide) (by decide), ih]
    · rw [List.cons_append]
      by_cases hopen : c = '('
      · subst hopen
        rw [closes_open, closes_open, ih]
      · by_cases hclose : c = ')'
        · subst hclose
          cases depth with
          | zero => exact iff_of_false not_closes_zero not_closes_zero
          | succ depth => rw [closes_close, closes_close, ih]
        · rw [closes_other hopen hclose, closes_other hopen hclose, ih]

/-- A parenthesis at the end closes the only one that a text leaves open. -/
theorem closesAtEnd_append : closesAtEnd (depth + 1) (s ++ [')']) = true ↔ Closes depth s := by
  induction s generalizing depth with
  | nil =>
    rw [closes_nil]
    cases depth <;> simp [closesAtEnd]
  | cons c s ih =>
    rw [List.cons_append, closesAtEnd]
    by_cases hopen : c = '('
    · subst hopen
      rw [if_pos rfl, ih, closes_open]
    · rw [if_neg hopen]
      by_cases hclose : c = ')'
      · subst hclose
        rw [if_pos rfl]
        cases depth with
        | zero => simp [not_closes_zero]
        | succ depth => rw [if_neg (by omega), Nat.add_sub_cancel, ih, closes_close]
      · rw [if_neg hclose, ih, closes_other hopen hclose]

/-- Parentheses around a balanced text leave it balanced. -/
theorem Closes.enclose (h : Balanced s) : Balanced (enclose '(' ')' s) := by
  refine closes_open.2 ⟨fun p hp => ?_, ?_⟩
  · obtain rfl | hp := List.prefix_concat_iff.1 hp
    · simp [h.closed, Nat.add_comm]
    · exact Nat.le_trans (h.opened p hp) (by omega)
  · simp [h.closed, Nat.add_comm]

theorem Closes.wrapped (h : Balanced s) (k : Nat) : Balanced (wrapped k s) := by
  induction k with
  | zero => exact h
  | succ k ih => exact ih.enclose

end Count

/-! ## Taking the parentheses off -/

theorem inner_enclose (a b : Char) (s : List Char) : inner (enclose a b s) = s := by
  simp [inner, enclose]

theorem wrapsWhole_wrapped (k : Nat) (s : List Char) :
    wrapsWhole (wrapped (k + 1) s) = true ↔ Balanced (wrapped k s) := by
  show _ ↔ Closes 0 (wrapped k s)
  rw [← closesAtEnd_append]
  simp [wrapped, wrapsWhole, enclose, closesAtEnd, List.getLast?_cons]

/-- In parentheses a quoted text has no blanks at its ends and no cast behind it. -/
theorem stripCasts_wrapped (k : Nat) (v : List Char) :
    stripCasts (strip (wrapped k (quoteDoubled v))) = wrapped k (quoteDoubled v) := by
  have hends : ∃ a b s, wrapped k (quoteDoubled v) = enclose a b s ∧ isBlank a = false ∧
      isBlank b = false ∧ isCastChar b = false := by
    cases k with
    | zero => exact ⟨'\'', '\'', _, rfl, by decide, by decide, by decide⟩
    | succ k => exact ⟨'(', ')', _, rfl, by decide, by decide, by decide⟩
  obtain ⟨a, b, s, hs, ha, hb, hcast⟩ := hends
  have hlast : (enclose a b s).getLast? = some b := by simp [enclose, List.getLast?_cons]
  rw [hs, (trimmed_enclose ha hb s).strip_eq, stripCasts_eq_self (castHead?_eq_none hlast hcast)]

/-- A text that begins with a parenthesis is neither quoted nor a number nor a word. -/
theorem plain_enclose (s : List Char) : isQuoted (enclose '(' ')' s) = false ∧
    isNumber (enclose '(' ')' s) = false ∧ isSpecial (enclose '(' ')' s) = false := by
  have htrim : Trimmed (enclose '(' ')' s) := trimmed_enclose (by decide) (by decide) s
  obtain ⟨hnull, hnextval, hexpression⟩ :=
    no_word_of_head (by decide) (lower_cons (by decide) (by decide) _) htrim
  have hdigit : isDigit '(' = false := by decide
  refine ⟨by simp [isQuoted, enclose], ?_, ?_⟩
  · simp [isNumber, Decimal.parts?, takeSign, Decimal.takeMantissa, enclose, hdigit]
  · simp only [isSpecial, Bool.or_eq_false_iff, beq_eq_false_iff_ne, decide_eq_false_iff_not]
    exact ⟨⟨⟨hnull, hnextval⟩, fun h => by simp [enclose] at h⟩, hexpression⟩

section Unwrap

variable {v : List Char}

/-- A balanced text in quotes comes out of all parentheses around it. -/
theorem unwrap_wrapped (h : Balanced v) (k : Nat) :
    unwrap (wrapped k (quoteDoubled v)) = quoteDoubled v := by
  have hquoted : Balanced (quoteDoubled v) := closes_quoteDoubled.2 h
  induction k with
  | zero => exact unwrap_eq_self (by simp [wrapped, quoteDoubled, enclose])
  | succ k ih =>
    rw [unwrap, dif_pos ((wrapsWhole_wrapped k _).2 (hquoted.wrapped k)), wrapped, inner_enclose,
      stripCasts_wrapped]
    dsimp only
    cases k with
    | zero =>
      have hbare : wrapsWhole (quoteDoubled v) = false := by
        simp [wrapsWhole, quoteDoubled, enclose]
      have hquotes : isQuoted (quoteDoubled v) = true := by simp [isQuoted, quoteDoubled, enclose]
      rw [wrapped, if_neg (by simp [hbare]), if_pos (by simp [hquotes])]
    | succ k =>
      rw [if_pos ((wrapsWhole_wrapped k _).2 (hquoted.wrapped k)), ih, if_neg]
      simp [wrapped, quoteDoubled, enclose]

/-- A text in quotes that is not balanced keeps all parentheses around it. -/
theorem unwrap_wrapped_of_not_balanced (h : ¬Balanced v) (k : Nat) :
    unwrap (wrapped k (quoteDoubled v)) = wrapped k (quoteDoubled v) := by
  induction k with
  | zero => exact unwrap_eq_self (by simp [wrapped, quoteDoubled, enclose])
  | succ k ih =>
    cases hwhole : wrapsWhole (wrapped (k + 1) (quoteDoubled v)) with
    | false => rw [unwrap, dif_neg (by simp [hwhole])]
    | true =>
      rw [unwrap, dif_pos hwhole, wrapped, inner_enclose, stripCasts_wrapped]
      dsimp only
      rw [ih, if_pos rfl]
      cases k with
      | zero => exact absurd ((wrapsWhole_wrapped 0 _).1 hwhole) (mt closes_quoteDoubled.1 h)
      | succ k =>
        obtain ⟨hquotes, hnumber, hspecial⟩ := plain_enclose (wrapped k (quoteDoubled v))
        simp only [isSpecial, Bool.or_eq_false_iff] at hspecial
        rw [wrapped, hquotes, hnumber, hspecial.2, hspecial.1.1.1]
        simp

end Unwrap

/-- What a quoted text in parentheses means for a type: the text, if it is balanced, and else all that
is written. -/
theorem ofText_wrapped (t : ColumnType) (v : List Char) (k : Nat) :
    ofText t (wrapped (k + 1) (quoteDoubled v)) =
      some (typed t (if Balanced v then v else wrapped (k + 1) (quoteDoubled v))) := by
  have hcore : ∀ k, core (wrapped k (quoteDoubled v)) = unwrap (wrapped k (quoteDoubled v)) :=
    fun k => by rw [core, stripCasts_wrapped]
  split
  · next h =>
    rw [ofText_congr t (show core _ = core (quoteDoubled v) from ?_), ofText_quoteDoubled]
    rw [hcore, unwrap_wrapped h]
    exact ((hcore 0).trans (unwrap_wrapped h 0)).symm
  · next h =>
    obtain ⟨hquotes, -, hspecial⟩ := plain_enclose (wrapped k (quoteDoubled v))
    have hself := (hcore (k + 1)).trans (unwrap_wrapped_of_not_balanced h (k + 1))
    rw [ofText_of_plain t (by rw [hself]; exact hquotes) (by rw [hself]; exact hspecial), hself]

theorem length_wrapped (k : Nat) (s : List Char) : (wrapped k s).length = s.length + 2 * k := by
  induction k with
  | zero => rfl
  | succ k ih =>
    simp only [wrapped, enclose, List.length_cons, List.length_append, List.length_nil, ih]
    omega

theorem length_lt_quoteDoubled (v : List Char) : v.length < (quoteDoubled v).length := by
  have hhalved := length_halve_le '\'' (double '\'' v)
  rw [halve_double] at hhalved
  simp only [quoteDoubled, enclose, List.length_cons, List.length_append, List.length_nil]
  omega

end Literal

/-- A text in single quotes, its own quotes doubled, in a number of pairs of parentheses. -/
def parenthesised (pairs : Nat) (v : String) : String :=
  String.ofList (Literal.wrapped pairs (quoteDoubled v.toList))

/-- A default of a column that holds text, given in quotes and parentheses, is the text in the quotes
exactly if the parentheses in it match; else it is all that is given. -/
theorem Default.ofRaw_parenthesised_iff {t : ColumnType} (ht : t.family = .string) (v : String)
    {n : Nat} (hn : 0 < n) :
    (ofRaw t (some (.text (parenthesised n v))) = some (.text v) ↔ Literal.Balanced v.toList) ∧
      (¬Literal.Balanced v.toList → ofRaw t (some (.text (parenthesised n v))) =
        some (.text (parenthesised n v))) := by
  obtain ⟨k, rfl⟩ : ∃ k, n = k + 1 := ⟨n - 1, by omega⟩
  have hread : ofRaw t (some (.text (parenthesised (k + 1) v))) =
      some (.text (if Literal.Balanced v.toList then v else parenthesised (k + 1) v)) := by
    have hraw : ofRaw t (some (.text (parenthesised (k + 1) v))) =
        Literal.ofText t (parenthesised (k + 1) v).toList := rfl
    rw [hraw, parenthesised, String.toList_ofList, Literal.ofText_wrapped, Literal.typed_of_string ht]
    split <;> simp
  rw [hread]
  refine ⟨⟨fun h => ?_, fun h => by rw [if_pos h]⟩, fun h => by rw [if_neg h]⟩
  by_contra hunbalanced
  rw [if_neg hunbalanced] at h
  have hlength := congrArg (fun s : String => s.toList.length) (Default.text.inj (Option.some.inj h))
  have hlt := Literal.length_lt_quoteDoubled v.toList
  simp only [parenthesised, String.toList_ofList, Literal.length_wrapped] at hlength
  omega

/-- A text with a quote and matching parentheses in it comes out of three pairs of parentheses. -/
theorem Default.ofRaw_parenthesised_call :
    (ColumnType.plain .text).family = .string ∧ 0 < 3 ∧
      ofRaw (.plain .text) (some (.text "((('it''s f(x, (y))')))")) = some (.text "it's f(x, (y))") := by
  have hbalanced : Literal.Balanced "it's f(x, (y))".toList := by decide
  exact ⟨rfl, by decide,
    (ofRaw_parenthesised_iff (t := .plain .text) rfl "it's f(x, (y))" (n := 3) (by decide)).1.2
      hbalanced⟩

end Schemata
