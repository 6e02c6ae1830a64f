import Mathlib.Data.List.Basic
import Schemata.Column.RawType
import Schemata.Column.Rendered
import Schemata.Proofs.Number.Decimal
import Schemata.Proofs.Notation.Lexeme
import Schemata.Proofs.Text.Letter

/-!
# Types in the words of the notation

A type that does not come from an enumeration is written in words that mean the same in every
dialect: a word, arguments in parentheses, and `unsigned`. `IsSpelled` says which types can be
written so, and `ofRaw_spelling` that such a type is read back, without a finding, whatever the
dialect of the schema. Lengths must not be negative, a decimal has both its numbers of digits or
none, and a label must not hold what ends the arguments or is dropped on the way: a closing
parenthesis, a backslash, a line boundary, a blank at an end.
-/

namespace Schemata

open Text Notation

/-! ## Words -/

theorem words_append_space {w : List Char} (hw : ∀ c ∈ w, isBlank c = false) (hne : w ≠ [])
    (r : List Char) : words (w ++ ' ' :: r) = w :: words r := by
  rw [words, List.splitOnP_append_cons_of_forall_mem hw ' ' (by decide), List.filter_cons_of_pos]
  · rfl
  · simpa using hne

theorem words_space_cons (r : List Char) : words (' ' :: r) = words r := by
  have := List.splitOnP_append_cons_of_forall_mem (show ∀ c ∈ [], isBlank c = false by simp) ' '
    (by decide) r
  rw [List.nil_append] at this
  rw [words, this, List.filter_cons_of_neg (by simp)]
  rfl

/-- The word of a kind in the notation. -/
def Kind.word (k : Kind) : String := ((Construct.dbml k).map (·.word)).getD ""

theorem Kind.mem_all (k : Kind) : k ∈ Kind.all := by cases k <;> decide

theorem Dialect.mem_all (d : Dialect) : d ∈ Dialect.all := by cases d <;> decide

theorem Construct.dbml_eq (k : Kind) : Construct.dbml k = some ⟨k.word, []⟩ := by cases k <;> rfl

/-- The words of the notation are plain names in lower case and no modifiers. -/
theorem Kind.word_spec (k : Kind) :
    isWord k.word.toList = true ∧ lower k.word.toList = k.word.toList ∧
      k.word ∉ RawType.modifiers := by
  have check : ∀ k ∈ Kind.all, isWord k.word.toList = true ∧ lower k.word.toList = k.word.toList ∧
      k.word ∉ RawType.modifiers := by decide +kernel
  exact check k k.mem_all

/-- The words of the notation mean their kinds in every dialect. -/
theorem RawType.kindOf?_word (d : Dialect) (k : Kind) : kindOf? d k.word = some k := by
  have check : ∀ d ∈ Dialect.all, ∀ k ∈ Kind.all, kindOf? d k.word = some k := by decide +kernel
  exact check d d.mem_all k k.mem_all

/-! ## Arguments -/

namespace RawType

/-- A piece of arguments whose parentheses and quotes are closed. -/
def Closed (s : List Char) : Prop :=
  ∀ r, splitParen 0 none (s ++ r) = (s ++ (splitParen 0 none r).1, (splitParen 0 none r).2)

theorem Closed.nil : Closed [] := fun _ => rfl

theorem Closed.append {s t : List Char} (hs : Closed s) (ht : Closed t) : Closed (s ++ t) := by
  intro r
  rw [List.append_assoc, hs, ht, List.append_assoc]

theorem Closed.of_forall {s : List Char} (h : ∀ c ∈ s, c ∉ ['(', ')', '\'', '"']) : Closed s := by
  intro r
  induction s with
  | nil => rfl
  | cons c t ih =>
    have hc := h c (by simp)
    simp only [List.mem_cons, List.not_mem_nil, or_false, not_or] at hc
    obtain ⟨h₁, h₂, h₃, h₄⟩ := hc
    rw [List.cons_append, splitParen, if_neg (by simp [h₂])]
    simp only [h₁, h₂, h₃, h₄, if_false, or_self]
    rw [ih fun d hd => h d (by simp [hd])]
    rfl

theorem splitParen_quoted (s r : List Char) :
    splitParen 0 (some '\'') (double '\'' s ++ '\'' :: r) =
      (double '\'' s ++ '\'' :: (splitParen 0 none r).1, (splitParen 0 none r).2) := by
  induction s with
  | nil => simp [splitParen]
  | cons c t ih =>
    rw [double]
    split_ifs with h
    · subst h
      simp [splitParen, ih]
    · simp [splitParen, h, ih]

theorem Closed.quoteDoubled (s : List Char) : Closed (quoteDoubled s) := by
  intro r
  have := splitParen_quoted s r
  simp [Text.quoteDoubled, enclose, splitParen, this]

theorem Closed.intercalate {items : List (List Char)} (h : ∀ i ∈ items, Closed i) :
    Closed ([',', ' '].intercalate items) := by
  induction items with
  | nil => exact .nil
  | cons i rest ih =>
    cases rest with
    | nil => simpa using h i (by simp)
    | cons j rest =>
      rw [List.intercalate_cons_cons]
      exact ((h i (by simp)).append (.of_forall (by decide))).append
        (ih fun k hk => h k (by simp [hk]))

/-- A quoted label without a backslash is one piece, and only its quotes are dropped. -/
theorem pieces_quoted {s : List Char} (hs : '\\' ∉ s) {r : List Char}
    (hr : r.head? ≠ some '\'') :
    pieces (some '\'') (double '\'' s ++ '\'' :: r) =
      prependAll s (if r = [] then [[]] else pieces none r) := by
  induction s with
  | nil =>
    cases r with
    | nil => simp [pieces, prependAll]
    | cons d t =>
      have hd : d ≠ '\'' := fun h => hr (by simp [h])
      simp [pieces, prependAll, hd]
  | cons c t ih =>
    have hc : c ≠ '\\' := fun h => hs (by simp [h])
    have ih' := ih fun h => hs (by simp [h])
    obtain ⟨d, u, hdu⟩ : ∃ d u, double '\'' t ++ '\'' :: r = d :: u := by
      cases hh : double '\'' t ++ '\'' :: r with
      | nil => simp at hh
      | cons d u => exact ⟨d, u, rfl⟩
    rw [double]
    by_cases h : c = '\''
    · subst h
      rw [if_pos rfl, List.cons_append, List.cons_append, pieces, if_pos rfl, if_pos rfl, ih']
      rfl
    · rw [if_neg h, List.cons_append, hdu, pieces, if_neg h, if_neg hc, ← hdu, ih']
      rfl

theorem pieces_intercalate {labels : List (List Char)} (h : ∀ l ∈ labels, '\\' ∉ l)
    (hne : labels ≠ []) :
    pieces none ([',', ' '].intercalate (labels.map quoteDoubled)) =
      labels.head hne :: labels.tail.map (' ' :: ·) := by
  induction labels with
  | nil => exact absurd rfl hne
  | cons l labels ih =>
    have start : ∀ r, pieces none (quoteDoubled l ++ r) =
        pieces (some '\'') (double '\'' l ++ '\'' :: r) := fun r => by
      simp [quoteDoubled, enclose, pieces]
    cases labels with
    | nil =>
      have := start []
      rw [List.append_nil, pieces_quoted (h l (by simp)) (by simp), if_pos rfl,
        prependAll_cons] at this
      simpa using this
    | cons m labels =>
      have comma : ∀ r, pieces none (',' :: ' ' :: r) = [] :: consHead ' ' (pieces none r) :=
        fun r => by simp [pieces]
      rw [List.map_cons, List.map_cons, List.intercalate_cons_cons, List.append_assoc, start,
        pieces_quoted (h l (by simp)) (by simp), if_neg (by simp), List.cons_append,
        List.cons_append, List.nil_append, comma, ← List.map_cons,
        ih (fun k hk => h k (by simp [hk])) (by simp), prependAll_cons, List.append_nil]
      rfl

/-- Labels come back as the arguments they were written as. -/
theorem splitArgs_labels {labels : List String} (h : ∀ l ∈ labels, '\\' ∉ l.toList)
    (hstrip : ∀ l ∈ labels, strip l.toList = l.toList) (hne : labels ≠ []) (hempty : labels ≠ [""]) :
    splitArgs ([',', ' '].intercalate (labels.map fun l => quoteDoubled l.toList)) = labels := by
  have hpieces := pieces_intercalate
    (show ∀ l ∈ labels.map String.toList, '\\' ∉ l by simpa using h) (by simpa using hne)
  rw [List.map_map] at hpieces
  have hmap : (pieces none ([',', ' '].intercalate
      (labels.map fun l => quoteDoubled l.toList))).map strip = labels.map String.toList := by
    obtain ⟨l, rest, rfl⟩ := List.exists_cons_of_ne_nil hne
    have hrest : (rest.map String.toList).map (strip ∘ (' ' :: ·)) = rest.map String.toList := by
      rw [List.map_map]
      exact List.map_congr_left fun m hm => hstrip m (by simp [hm])
    rw [show (fun l : String => quoteDoubled l.toList) = quoteDoubled ∘ String.toList from rfl,
      hpieces]
    simp only [List.map_cons, List.head_cons, List.tail_cons, List.map_map] at hrest ⊢
    rw [hstrip l (by simp), ← hrest]
    rfl
  rw [splitArgs, hmap]
  have hround : (labels.map String.toList).map String.ofList = labels := by
    rw [List.map_map]
    calc labels.map (String.ofList ∘ String.toList) = labels.map id :=
          List.map_congr_left fun l _ => String.ofList_toList
      _ = labels := List.map_id labels
  split
  · next h₀ =>
    refine absurd ?_ hempty
    rw [← hround, h₀]
    rfl
  · exact hround

theorem pieces_append_of_forall {s : List Char} (h : ∀ c ∈ s, c ≠ '\'' ∧ c ≠ '"' ∧ c ≠ ',')
    (r : List Char) : pieces none (s ++ r) = prependAll s (pieces none r) := by
  induction s with
  | nil => rfl
  | cons c t ih =>
    obtain ⟨h₁, h₂, h₃⟩ := h c (by simp)
    rw [List.cons_append, pieces, if_neg (by simp [h₁, h₂]), if_neg h₃,
      ih fun d hd => h d (by simp [hd])]
    rfl

/-! ## Taking a spelled type apart -/

/-- The modifier behind a type. -/
def suffix (unsigned : Bool) : List Char := if unsigned then " unsigned".toList else []

theorem words_word_suffix (k : Kind) (u : Bool) {s : List Char}
    (hs : s = k.word.toList ++ suffix u ++ [' '] ∨ s = k.word.toList ++ ' ' :: suffix u) :
    (words (lower s)).map String.ofList = k.word :: if u then ["unsigned"] else [] := by
  obtain ⟨hw, hl, -⟩ := k.word_spec
  have hblank : ∀ c ∈ k.word.toList, isBlank c = false := fun c hc =>
    (isPlainChar_spec (isPlainChar_of_isWord hw hc)).2.2.1
  have hne : k.word.toList ≠ [] := by intro h; simp [h, isWord] at hw
  have cut : ∀ r, words (lower (k.word.toList ++ ' ' :: r)) = k.word.toList :: words (lower r) :=
    fun r => by
      rw [lower_append_space, hl, words_append_space hblank hne]
  cases u with
  | false =>
    obtain rfl : s = k.word.toList ++ ' ' :: [] := by simpa [suffix] using hs
    rw [cut]
    simp [lower, lowerFrom, words]
  | true =>
    have hmod : ∀ r, words (lower (" unsigned".toList ++ r)) = words (lower ("unsigned".toList ++ r)) :=
      fun r => words_space_cons _
    rcases hs with rfl | rfl
    · have : k.word.toList ++ suffix true ++ [' '] = k.word.toList ++ ' ' :: "unsigned ".toList := by
        simp [suffix]
      rw [this, cut, show words (lower "unsigned ".toList) = ["unsigned".toList] by decide]
      simp
    · rw [cut, show words (lower (suffix true)) = ["unsigned".toList] by decide]
      simp

theorem name_word_suffix (k : Kind) (u : Bool) :
    " ".intercalate ((k.word :: if u then ["unsigned"] else []).filter (· ∉ modifiers)) = k.word ∧
      decide ("unsigned" ∈ k.word :: if u then ["unsigned"] else []) = u := by
  have hm := k.word_spec.2.2
  have hu : "unsigned" ≠ k.word := fun h => hm (h ▸ by decide)
  rw [List.filter_cons_of_pos (by simpa using hm)]
  cases u with
  | false => simp [hu]
  | true => simp [modifiers]

theorem trimmed_word_append (k : Kind) {s : List Char}
    (hs : ∀ c ∈ s.getLast?, isBlank c = false) : Trimmed (k.word.toList ++ s) := by
  have hw := k.word_spec.1
  have hblank : ∀ c ∈ k.word.toList, isBlank c = false := fun c hc =>
    (isPlainChar_spec (isPlainChar_of_isWord hw hc)).2.2.1
  refine Trimmed.append ⟨fun c hc => hblank c (List.mem_of_head? hc),
    fun c hc => hblank c (List.mem_of_getLast? hc)⟩ ?_ hs
  intro h
  simp [h, isWord] at hw

theorem getLast?_suffix (u : Bool) : ∀ c ∈ (suffix u).getLast?, isBlank c = false := by
  cases u <;> decide

theorem suffix_no_parenthesis (u : Bool) : ∀ c ∈ suffix u, decide (c ≠ '(') = true := by
  cases u <;> decide

theorem word_no_parenthesis (k : Kind) : ∀ c ∈ k.word.toList, decide (c ≠ '(') = true := by
  intro c hc
  have := (isPlainChar_spec (isPlainChar_of_isWord k.word_spec.1 hc)).2.2.2.2.2
  simp only [marks, List.mem_cons, not_or] at this
  exact decide_eq_true this.2.1

theorem ofText_bare (k : Kind) (u : Bool) :
    ofText (String.ofList (k.word.toList ++ suffix u)) = ⟨k.word, [], u⟩ := by
  have hp : ∀ c ∈ k.word.toList ++ suffix u, decide (c ≠ '(') = true := by
    intro c hc
    rcases List.mem_append.1 hc with hc | hc
    · exact word_no_parenthesis k c hc
    · exact suffix_no_parenthesis u c hc
  have head : (k.word.toList ++ suffix u ++ []).takeWhile (· ≠ '(') =
      k.word.toList ++ suffix u ++ [] :=
    List.takeWhile_append_of_pos hp
  have rest : (k.word.toList ++ suffix u ++ []).dropWhile (· ≠ '(') = [] :=
    List.dropWhile_append_of_pos hp
  rw [List.append_nil] at head rest
  obtain ⟨hname, hmod⟩ := name_word_suffix k u
  rw [ofText, String.toList_ofList, (trimmed_word_append k (getLast?_suffix u)).strip_eq, head, rest]
  simp only [words_word_suffix k u (.inl rfl), hname, hmod]

theorem ofText_arguments (k : Kind) {inside : List Char} (hc : Closed inside) (u : Bool) :
    ofText (String.ofList (k.word.toList ++ '(' :: (inside ++ ')' :: suffix u))) =
      ⟨k.word, splitArgs inside, u⟩ := by
  have hlast : ∀ c ∈ ('(' :: (inside ++ ')' :: suffix u)).getLast?, isBlank c = false := by
    rw [List.getLast?_cons, List.getLast?_append]
    cases u <;> simp [suffix] <;> decide
  have head : ∀ r, (k.word.toList ++ r).takeWhile (· ≠ '(') =
      k.word.toList ++ r.takeWhile (· ≠ '(') := fun r =>
    List.takeWhile_append_of_pos (word_no_parenthesis k)
  have rest : ∀ r, (k.word.toList ++ r).dropWhile (· ≠ '(') = r.dropWhile (· ≠ '(') := fun r =>
    List.dropWhile_append_of_pos (word_no_parenthesis k)
  have hsplit : splitParen 0 none (inside ++ ')' :: suffix u) = (inside, suffix u) := by
    rw [hc]
    simp [splitParen]
  obtain ⟨hname, hmod⟩ := name_word_suffix k u
  rw [ofText, String.toList_ofList, (trimmed_word_append k hlast).strip_eq, head, rest]
  simp only [ne_eq, not_true_eq_false, decide_false, List.takeWhile_cons, List.dropWhile_cons,
    Bool.false_eq_true, if_false, List.append_nil, hsplit, words_word_suffix k u (.inr rfl), hname,
    hmod]

end RawType

namespace ColumnType

/-! ## The types that can be spelled -/

/-- The texts of the arguments that a type is written with. -/
def parameters (t : ColumnType) : List (List Char) :=
  if t.kind.isSized then (t.size.map fun n => (intText n).toList).toList
  else if t.kind = .decimal then
    (t.precision.map fun p => (intText p).toList ++ ',' :: (intText (t.scale.getD 0)).toList).toList
  else t.values.map fun v => quoteDoubled v.toList

/-- A type in the words of the notation. -/
def spelling (t : ColumnType) : List Char :=
  t.kind.word.toList ++
    ((if t.parameters = [] then [] else '(' :: ([',', ' '].intercalate t.parameters ++ [')'])) ++
      RawType.suffix t.unsigned)

/-- The types that the notation has words for. -/
structure IsSpelled (t : ColumnType) : Prop where
  enumName : t.enumName = none
  size : ∀ n ∈ t.size, 0 ≤ n
  precision : ∀ n ∈ t.precision, 0 ≤ n
  scale : ∀ n ∈ t.scale, 0 ≤ n
  /-- A number of digits behind the point goes with a number of digits. -/
  digits : t.scale.isSome = t.precision.isSome
  unsigned : t.unsigned = true → t.family = .integer ∨ t.family = .fixedPoint
  label : ∀ v ∈ t.values, strip v.toList = v.toList ∧
    ∀ c ∈ v.toList, c ≠ ')' ∧ c ≠ '\\' ∧ isLineBreak c = false
  /-- A single empty label reads as no label. -/
  labels : t.values ≠ [""]

/-- The rendering in the notation has the word of the kind and the parameters, and no modifiers. -/
theorem value_ofType_dbml (t : ColumnType) :
    (Rendered.ofType .dbml t).value = ⟨t.kind.word, t.parameters.map String.ofList, []⟩ := by
  have hchoose : (Rendered.choose .dbml t {}).value = (t, ⟨t.kind.word, []⟩) := by
    rw [Rendered.choose, Construct.of, Construct.dbml_eq]
    rfl
  have hown : (Rendered.ownParameters .dbml t ⟨t.kind.word, []⟩ {}).value =
      t.parameters.map String.ofList := by
    rw [Rendered.ownParameters, parameters]
    by_cases hs : t.kind.isSized = true
    · simp only [hs, and_self, if_true, Rendered.sizeParameters]
      cases t.size <;> simp
    · by_cases hd : t.kind = .decimal
      · have hsized : Kind.decimal.isSized = false := rfl
        simp only [hd, hsized, Bool.false_eq_true, false_and, if_false, if_true,
          Rendered.decimalParameters, Rendered.decimalLimit?]
        cases t.precision <;> simp [String.append_assoc]
      · simp only [hs, hd, Bool.false_eq_true, false_and, if_false]
        by_cases hv : t.values = []
        · simp [hv]
        · have hl := t.isListed_of_values hv
          simp [hl, hv, Rendered.labelLiteral]
  rw [Rendered.ofType]
  simp only [Noted.value_bind, hchoose, hown, Rendered.incrementModifiers, ite_self]
  cases t.unsigned <;> simp [Rendered.withUnsigned]

/-- What is written for a type without an enumeration is its spelling. -/
theorem sql_eq_spelling (t : ColumnType) :
    (Rendered.ofType .dbml t).value.sql.toList ++ RawType.suffix t.unsigned = t.spelling := by
  rw [value_ofType_dbml, spelling, Rendered.sql]
  by_cases hp : t.parameters = []
  · simp [hp]
  · simp [hp, String.toList_intercalate, Function.comp_def]

/-- The arguments that a type is read back with. -/
def arguments (t : ColumnType) : List String :=
  if t.kind.isSized then (t.size.map intText).toList
  else if t.kind = .decimal then
    t.precision.elim [] fun p => [intText p, intText (t.scale.getD 0)]
  else t.values

theorem intText_of_nonneg {n : Int} (h : 0 ≤ n) :
    (intText n).toList = Nat.toDigits 10 n.natAbs := by
  rw [intText, if_neg (by omega), natText, String.toList_ofList]

theorem trimmed_intText (n : Int) : Trimmed (intText n).toList := by
  have blank : ∀ c ∈ (intText n).toList, isBlank c = false := by
    intro c hc
    rcases mem_intText hc with rfl | hd
    · decide
    · exact (isPlainChar_spec (by simp [isPlainChar, Char.isAlphanum, hd])).2.2.1
  exact ⟨fun c hc => blank c (List.mem_of_head? hc), fun c hc => blank c (List.mem_of_getLast? hc)⟩

theorem mem_intText_ne {n : Int} {c d : Char} (h : c ∈ (intText n).toList) (hd : d ≠ '-')
    (hd' : d.isDigit = false) : c ≠ d := by
  rcases mem_intText h with rfl | hc
  · exact hd.symm
  · exact ne_of_isDigit hc hd'

theorem intText_ne_nil (n : Int) : (intText n).toList ≠ [] := by
  rw [intText]
  split_ifs <;> simp [natText]

theorem pieces_intText (n : Int) (r : List Char) :
    RawType.pieces none ((intText n).toList ++ r) =
      prependAll (intText n).toList (RawType.pieces none r) :=
  RawType.pieces_append_of_forall
    (fun _ hc => ⟨mem_intText_ne hc (by decide) (by decide), mem_intText_ne hc (by decide)
      (by decide), mem_intText_ne hc (by decide) (by decide)⟩) r

theorem closed_intText (n : Int) : RawType.Closed (intText n).toList := by
  refine .of_forall fun c hc => ?_
  simp only [List.mem_cons, List.not_mem_nil, or_false, not_or]
  exact ⟨mem_intText_ne hc (by decide) (by decide), mem_intText_ne hc (by decide) (by decide),
    mem_intText_ne hc (by decide) (by decide), mem_intText_ne hc (by decide) (by decide)⟩

theorem splitArgs_intText (n : Int) : RawType.splitArgs (intText n).toList = [intText n] := by
  have := pieces_intText n []
  rw [List.append_nil, RawType.pieces, prependAll_cons, List.append_nil] at this
  rw [RawType.splitArgs, this, List.map_cons, (trimmed_intText n).strip_eq]
  split
  · next h => exact absurd (List.head_eq_of_cons_eq h) (intText_ne_nil n)
  · simp

theorem splitArgs_intText_pair (p s : Int) :
    RawType.splitArgs ((intText p).toList ++ ',' :: (intText s).toList) =
      [intText p, intText s] := by
  have hs := pieces_intText s []
  rw [List.append_nil, RawType.pieces, prependAll_cons, List.append_nil] at hs
  rw [RawType.splitArgs, pieces_intText, RawType.pieces, if_neg (by decide), if_pos rfl, hs,
    prependAll_cons, List.append_nil]
  simp [(trimmed_intText _).strip_eq]

/-- The arguments of a type are read back from between its parentheses. -/
theorem splitArgs_parameters {t : ColumnType} (h : t.IsSpelled) (hne : t.parameters ≠ []) :
    RawType.Closed ([',', ' '].intercalate t.parameters) ∧
      RawType.splitArgs ([',', ' '].intercalate t.parameters) = t.arguments := by
  rw [parameters, arguments] at *
  split_ifs at hne ⊢ with hs hd
  · obtain ⟨n, hn⟩ : ∃ n, t.size = some n := by
      cases hsize : t.size with
      | none => simp [hsize] at hne
      | some n => exact ⟨n, rfl⟩
    simp only [hn, Option.map_some, Option.toList_some, List.intercalate_singleton]
    exact ⟨closed_intText n, splitArgs_intText n⟩
  · obtain ⟨p, hp⟩ : ∃ p, t.precision = some p := by
      cases hprec : t.precision with
      | none => simp [hprec] at hne
      | some p => exact ⟨p, rfl⟩
    simp only [hp, Option.map_some, Option.toList_some, List.intercalate_singleton, Option.elim_some]
    exact ⟨(closed_intText p).append ((RawType.Closed.of_forall (s := [',']) (by decide)).append
      (closed_intText _)), splitArgs_intText_pair p _⟩
  · have hv : t.values ≠ [] := by simpa using hne
    refine ⟨.intercalate ?_, RawType.splitArgs_labels (fun v hv => ?_) (fun v hv => ?_) hv h.labels⟩
    · intro i hi
      obtain ⟨v, -, rfl⟩ := List.mem_map.1 hi
      exact .quoteDoubled _
    · exact fun hb => ((h.label v hv).2 '\\' hb).2.1 rfl
    · exact (h.label v hv).1

theorem arguments_eq_nil {t : ColumnType} (h : t.parameters = []) : t.arguments = [] := by
  rw [parameters] at h
  rw [arguments]
  split_ifs at h ⊢ with hs hd
  · cases hsize : t.size <;> simp_all
  · cases hp : t.precision <;> simp_all
  · simpa using h

theorem ofText_spelling {t : ColumnType} (h : t.IsSpelled) :
    RawType.ofText (String.ofList t.spelling) = ⟨t.kind.word, t.arguments, t.unsigned⟩ := by
  rw [spelling]
  split_ifs with hp
  · rw [List.nil_append, RawType.ofText_bare, arguments_eq_nil hp]
  · obtain ⟨hclosed, hargs⟩ := splitArgs_parameters h hp
    rw [← hargs, List.cons_append, List.append_assoc, List.singleton_append,
      RawType.ofText_arguments t.kind hclosed]

theorem numberArg_intText {w : String} {args : List String} {u : Bool} {i : Nat} {n : Int}
    (hi : args[i]? = some (intText n)) (hn : 0 ≤ n) :
    RawType.numberArg ⟨w, args, u⟩ i = .ok (some n) := by
  have hd : (digitsValue (Nat.toDigits 10 n.natAbs) : Int) = n := by
    rw [digitsValue_toDigits]
    omega
  have hnumeral := isNumeral_toDigits n.natAbs
  have hdigits : (!(Nat.toDigits 10 n.natAbs).isEmpty && (Nat.toDigits 10 n.natAbs).all isAnyDigit) =
      true := by
    simp only [isNumeral, Bool.and_eq_true, List.all_eq_true] at hnumeral ⊢
    exact ⟨hnumeral.1, fun c hc => by simp [isAnyDigit, hnumeral.2 c hc]⟩
  simp only [RawType.numberArg, hi, (trimmed_intText n).strip_eq]
  rw [intText_of_nonneg hn, if_pos hdigits, Limits.readDigits_of_isNumeral hnumeral]
  show Except.ok (some _) = _
  rw [hd]

theorem lowerChar_ne_of_isDigit {c : Char} (hc : c.isDigit = true) : lowerChar c ≠ 'm' := by
  have hplain : isPlainChar c = true := by simp [isPlainChar, Char.isAlphanum, hc]
  have check : (!c.isDigit || lowerChar c != 'm') = true :=
    ascii_check (p := fun c => !c.isDigit || lowerChar c != 'm') (by decide +kernel)
      (toNat_lt_of_isPlainChar hplain)
  simpa [hc] using check

theorem isUnbounded_intText (w : String) (n : Int) (u : Bool) :
    RawType.isUnbounded ⟨w, [intText n], u⟩ = false := by
  simp only [RawType.isUnbounded, List.head?_cons, Option.any_some, beq_eq_false_iff_ne, ne_eq,
    (trimmed_intText n).strip_eq]
  intro h
  have hascii : ∀ c ∈ (intText n).toList, isAscii c = true := fun c hc => by
    rcases mem_intText hc with rfl | hd
    · decide
    · exact isAscii_of_isDigit hd
  have hm : 'm' ∈ (intText n).toList.map lowerChar := lower_of_isAscii hascii ▸ h ▸ by decide
  obtain ⟨c, hc, hcm⟩ := List.mem_map.1 hm
  rcases mem_intText hc with rfl | hd
  · exact absurd hcm (by decide)
  · exact lowerChar_ne_of_isDigit hd hcm

attribute [ext] ColumnType

variable {t : ColumnType}

theorem size_eq_none (h : t.kind.isSized = false) : t.size = none := by
  by_contra hs
  simp [t.isSized_of_size hs] at h

theorem precision_eq_none (h : t.kind ≠ .decimal) : t.precision = none ∧ t.scale = none := by
  constructor <;> by_contra hp
  · exact h (t.eq_decimal_of_precision (.inl hp))
  · exact h (t.eq_decimal_of_precision (.inr hp))

theorem values_eq_nil (h : t.kind.isListed = false) : t.values = [] := by
  by_contra hv
  simp [t.isListed_of_values hv] at h

theorem IsSpelled.unsigned_eq (h : t.IsSpelled) :
    (t.unsigned && (t.kind.family = .integer || t.kind.family = .fixedPoint)) = t.unsigned := by
  cases hu : t.unsigned with
  | false => rfl
  | true => simpa [family] using h.unsigned hu

/-- A type is rebuilt from its word and its arguments. -/
theorem ofKind_arguments (h : t.IsSpelled) :
    ofKind ⟨t.kind.word, t.arguments, t.unsigned⟩ t.kind = .ok t := by
  rw [ofKind]
  by_cases hs : t.kind.isSized = true
  · have hd : t.kind ≠ .decimal := fun hk => by simp [hk, Kind.isSized] at hs
    have hl : t.kind.isListed = false := by cases hk : t.kind <;> simp_all [Kind.isSized, Kind.isListed]
    have hu : t.unsigned = false := by
      rw [← h.unsigned_eq]
      cases hk : t.kind <;> simp_all [Kind.isSized, Kind.family]
    have hsize : RawType.numberArg ⟨t.kind.word, t.arguments, t.unsigned⟩ 0 = .ok t.size := by
      rw [arguments, if_pos hs]
      cases hn : t.size with
      | none => rfl
      | some n => exact numberArg_intText rfl (h.size n hn)
    have hbound : RawType.isUnbounded ⟨t.kind.word, t.arguments, t.unsigned⟩ = false := by
      rw [arguments, if_pos hs]
      cases t.size with
      | none => rfl
      | some n => exact isUnbounded_intText _ n _
    rw [dif_pos hs, if_neg (by simp [hbound]), hsize]
    refine congrArg Except.ok ?_
    ext1 <;> simp [sized, precision_eq_none hd, values_eq_nil hl, h.enumName, hu]
  · by_cases hd : t.kind = .decimal
    · have hl : t.kind.isListed = false := by simp [hd, Kind.isListed]
      have hargs : t.arguments = t.precision.elim [] fun p => [intText p, intText (t.scale.getD 0)] := by
        rw [arguments, if_neg hs, if_pos hd]
      rw [dif_neg hs, if_pos hd, hargs]
      have hdigits := h.digits
      cases hp : t.precision with
      | none =>
        have hscale : t.scale = none := by simpa [hp] using hdigits
        refine congrArg Except.ok ?_
        ext1 <;> simp [decimal, hp, hscale, hd, size_eq_none (by simpa using hs),
          values_eq_nil hl, h.enumName]
      | some p =>
        obtain ⟨s, hscale⟩ : ∃ s, t.scale = some s := by simpa [hp, Option.isSome_iff_exists] using hdigits
        have h₀ : RawType.numberArg ⟨t.kind.word, [intText p, intText s], t.unsigned⟩ 0 =
            .ok (some p) :=
          numberArg_intText rfl (h.precision p hp)
        have h₁ : RawType.numberArg ⟨t.kind.word, [intText p, intText s], t.unsigned⟩ 1 =
            .ok (some s) :=
          numberArg_intText rfl (h.scale s hscale)
        simp only [hscale, Option.elim_some, Option.getD_some, h₀, h₁]
        refine congrArg Except.ok ?_
        ext1 <;> simp [decimal, hp, hscale, hd, size_eq_none (by simpa using hs), values_eq_nil hl,
          h.enumName]
    · have hargs : t.arguments = t.values := by rw [arguments, if_neg hs, if_neg hd]
      rw [dif_neg hs, if_neg hd, hargs]
      by_cases hl : t.kind.isListed = true
      · have hu : t.unsigned = false := by
          rw [← h.unsigned_eq]
          cases hk : t.kind <;> simp_all [Kind.isListed, Kind.family]
        rw [dif_pos hl]
        refine congrArg Except.ok ?_
        ext1 <;> simp [listed, precision_eq_none hd, size_eq_none (by simpa using hs), h.enumName, hu]
      · rw [dif_neg hl]
        simp only [h.unsigned_eq]
        refine congrArg Except.ok ?_
        ext1 <;> simp [plain, precision_eq_none hd, size_eq_none (by simpa using hs), h.enumName,
          values_eq_nil (by simpa using hl)]

/-- A type that can be spelled is read back from its spelling, without a finding. -/
theorem ofRaw_spelling (h : t.IsSpelled) (d : Dialect) (c : Context)
    (hc : counting c t.kind = t.kind) : ofRaw d (String.ofList t.spelling) c = pure t := by
  have hname : t.kind.word = "tinyint" → t.kind = .tinyint := by
    cases t.kind <;> simp [Kind.word, Construct.dbml]
  have hbit : t.kind.word ≠ "bit" := by cases t.kind <;> simp [Kind.word, Construct.dbml]
  have htemporal : t.kind.family = .temporal → t.arguments = [] := by
    intro hf
    rw [arguments, values_eq_nil (by cases hk : t.kind <;> simp_all [Kind.isListed, Kind.family]),
      if_neg (by cases hk : t.kind <;> simp_all [Kind.isSized, Kind.family]),
      if_neg (by intro hk; simp [hk, Kind.family] at hf)]
  rw [ofRaw, ofText_spelling h]
  simp only [RawType.kindOf?_word]
  rw [if_neg, if_neg, hc, ofKind_arguments h, Advised.noteIf, if_neg]
  · rfl
  · rintro ⟨hf, -, hargs⟩
    exact hargs (htemporal (by simpa using hf))
  · exact fun hk => hbit hk.1
  · rintro ⟨-, hk | hk, hargs⟩
    · have htiny := hname hk
      rw [arguments, htiny, values_eq_nil (by simp [htiny, Kind.isListed])] at hargs
      simp [Kind.isSized] at hargs
    · exact hbit hk

end ColumnType

end Schemata
