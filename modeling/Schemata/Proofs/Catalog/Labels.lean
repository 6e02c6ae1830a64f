import Mathlib.Data.List.TakeWhile
import Schemata.Catalog.Postgres
import Schemata.Proofs.Column.Bare
import Schemata.Proofs.Column.Spelling

/-!
# Labels in the type of a column

The labels of an enumeration of PostgreSQL travel in the text of a column's type: each in quotes, its
own quotes doubled. The reader of the text takes doubled quotes for quotes, but it also takes a
backslash for a mark of its own, trims what stood in the quotes, and takes a single empty label for no
label. `splitArgs_eq_labels_iff` says that these three are all that can happen: labels come back as they
are if and only if none of them has a backslash or a blank at an end and they are not one empty label.
The characters of the pieces are some of those of the text (`pieces_sublist`), and the first backslash
of the labels is not among them (`count_pieces_lt`), so no other loss can make up for it.
`ofRaw_rawType_iff` says the same of a row of the catalog, whose type is always read as an enumeration.
-/

namespace Schemata

open Text Notation

/-- Labels that the text of a type carries: none has a backslash or a blank at an end, and they are not
a single empty label. -/
structure Carried (labels : List String) : Prop where
  unescaped : ∀ l ∈ labels, '\\' ∉ l.toList
  trimmed : ∀ l ∈ labels, strip l.toList = l.toList
  ne_empty : labels ≠ [""]

instance (labels : List String) : Decidable (Carried labels) :=
  decidable_of_iff ((∀ l ∈ labels, '\\' ∉ l.toList) ∧ (∀ l ∈ labels, strip l.toList = l.toList) ∧
      labels ≠ [""])
    ⟨fun ⟨h₁, h₂, h₃⟩ => ⟨h₁, h₂, h₃⟩, fun ⟨h₁, h₂, h₃⟩ => ⟨h₁, h₂, h₃⟩⟩

/-- What labels without a backslash are read as. -/
def trimmedLabels (labels : List String) : List String :=
  let trimmed := labels.map fun l => String.ofList (strip l.toList)
  if trimmed = [""] then [] else trimmed

namespace RawType

/-- The text between the parentheses of a type that lists labels. -/
def labelText (labels : List String) : List Char :=
  [',', ' '].intercalate (labels.map fun l => quoteDoubled l.toList)

/-! ## What cutting a text drops -/

theorem count_double {q c : Char} (h : c ≠ q) (s : List Char) :
    (double q s).count c = s.count c := by
  induction s with
  | nil => rfl
  | cons d r ih =>
    rw [double]
    split_ifs with hd
    · subst hd
      simp [List.count_cons_of_ne (Ne.symm h), ih]
    · simp [List.count_cons, ih]

/-- Cutting a text at its commas adds no character. -/
theorem pieces_sublist (q : Option Char) (s : List Char) : (pieces q s).flatten.Sublist s := by
  fun_induction pieces q s with
  | case1 => exact .refl _
  | case2 => exact List.nil_sublist _
  | case3 => exact .refl _
  | case4 c r ih => simpa [flatten_consHead] using ih.cons c
  | case5 c d r hne ih => exact ih.cons c
  | case6 q d r hq ih => simpa [flatten_consHead] using (ih.cons_cons d).cons '\\'
  | case7 q c d r hq hc ih => simpa [flatten_consHead] using ih
  | case8 c r h ih => exact ih.cons c
  | case9 r h ih => simpa using ih.cons ','
  | case10 c r hq hc ih => simpa [flatten_consHead] using ih

/-- The first backslash of a quoted label is lost. By induction on the label: in front of the backslash
the reader stays in the quotes. -/
theorem count_pieces_lt {s : List Char} (h : '\\' ∈ s) (r : List Char) :
    (pieces (some '\'') (double '\'' s ++ '\'' :: r)).flatten.count '\\' <
      s.count '\\' + r.count '\\' := by
  induction s with
  | nil => simp at h
  | cons c t ih =>
    obtain ⟨d, u, hdu⟩ : ∃ d u, double '\'' t ++ '\'' :: r = d :: u := by
      cases hh : double '\'' t ++ '\'' :: r with
      | nil => simp at hh
      | cons d u => exact ⟨d, u, rfl⟩
    have hcount : (double '\'' t ++ '\'' :: r).count '\\' = t.count '\\' + r.count '\\' := by
      simp [count_double]
    rw [double]
    by_cases hc : c = '\\'
    · subst hc
      have hsub : (pieces (some '\'') ('\\' :: d :: u)).flatten.Sublist (d :: u) := by
        simpa [pieces, flatten_consHead] using (pieces_sublist (some '\'') u).cons_cons d
      have := hsub.count_le '\\'
      rw [if_neg (by decide), List.cons_append, hdu, List.count_cons_self, ← hdu] at *
      omega
    · have ih' := ih (by simpa [Ne.symm hc] using h)
      rw [List.count_cons_of_ne hc]
      by_cases hq : c = '\''
      · subst hq
        rw [if_pos rfl, List.cons_append, List.cons_append, pieces, if_pos rfl, if_pos rfl,
          flatten_consHead, List.count_cons_of_ne (by decide)]
        exact ih'
      · rw [if_neg hq, List.cons_append, hdu, pieces, if_neg hq, if_neg hc, ← hdu,
          flatten_consHead, List.count_cons_of_ne hc]
        exact ih'

theorem count_intercalate (labels : List (List Char)) :
    ([',', ' '].intercalate (labels.map quoteDoubled)).count '\\' = labels.flatten.count '\\' := by
  induction labels with
  | nil => rfl
  | cons l labels ih =>
    have hl : (quoteDoubled l).count '\\' = l.count '\\' := by
      simp [quoteDoubled, enclose, count_double]
    cases labels with
    | nil => simp [hl]
    | cons m labels =>
      rw [List.map_cons, List.map_cons, List.intercalate_cons_cons, ← List.map_cons,
        List.count_append, List.count_append, ih, hl]
      simp

/-- A backslash in some label is lost, whatever the labels in front of it and behind it are. -/
theorem count_pieces_intercalate_lt {labels : List (List Char)} (h : ∃ l ∈ labels, '\\' ∈ l) :
    (pieces none ([',', ' '].intercalate (labels.map quoteDoubled))).flatten.count '\\' <
      labels.flatten.count '\\' := by
  induction labels with
  | nil => simp at h
  | cons l labels ih =>
    have start : ∀ r, pieces none (quoteDoubled l ++ r) =
        pieces (some '\'') (double '\'' l ++ '\'' :: r) := fun r => by
      simp [quoteDoubled, enclose, pieces]
    cases labels with
    | nil =>
      have := count_pieces_lt (s := l) (by simpa using h) []
      rw [← start, List.append_nil] at this
      simpa using this
    | cons m labels =>
      have hrest := count_intercalate (m :: labels)
      rw [List.map_cons, List.map_cons, List.intercalate_cons_cons, List.append_assoc,
        ← List.map_cons, start, List.flatten_cons, List.count_append]
      by_cases hl : '\\' ∈ l
      · have := count_pieces_lt hl
          ([',', ' '] ++ [',', ' '].intercalate ((m :: labels).map quoteDoubled))
        simp only [List.count_append, hrest] at this
        simpa using this
      · have ih' := ih (by simpa [hl] using h)
        have comma : ∀ r, pieces none (',' :: ' ' :: r) = [] :: consHead ' ' (pieces none r) :=
          fun r => by simp [pieces]
        rw [pieces_quoted hl (by simp), if_neg (by simp), List.cons_append, List.cons_append,
          List.nil_append, comma, flatten_prependAll, List.count_append, List.flatten_cons,
          List.nil_append, flatten_consHead, List.count_cons_of_ne (by decide)]
        omega

/-! ## Which labels come back -/

theorem count_strip (s : List Char) : (strip s).count '\\' = s.count '\\' := by
  have hdrop : ∀ l : List Char, (l.dropWhile isBlank).count '\\' = l.count '\\' := by
    intro l
    have hblanks : (l.takeWhile isBlank).count '\\' = 0 :=
      List.count_eq_zero.2 fun hmem =>
        absurd (List.mem_takeWhile_imp hmem : isBlank '\\' = true) (by decide)
    rw [← List.takeWhile_append_dropWhile (p := isBlank) (l := l), List.count_append, hblanks,
      List.takeWhile_append_dropWhile, Nat.zero_add]
  rw [strip, dropTrailingBlanks, List.count_reverse, hdrop, List.count_reverse, skipBlanks, hdrop]

theorem count_flatten_map_strip (ls : List (List Char)) :
    (ls.map strip).flatten.count '\\' = ls.flatten.count '\\' := by
  rw [List.count_flatten, List.count_flatten, List.map_map]
  exact congrArg List.sum (List.map_congr_left fun l _ => count_strip l)

/-- Labels without a backslash come back trimmed, and a single one of blanks as none. -/
theorem splitArgs_labelText {labels : List String} (h : ∀ l ∈ labels, '\\' ∉ l.toList)
    (hne : labels ≠ []) : splitArgs (labelText labels) = trimmedLabels labels := by
  have hstrips : (pieces none (labelText labels)).map strip =
      labels.map fun l => strip l.toList := by
    have hpieces := pieces_intercalate
      (show ∀ l ∈ labels.map String.toList, '\\' ∉ l by simpa using h) (by simpa using hne)
    rw [List.map_map] at hpieces
    obtain ⟨l, rest, rfl⟩ := List.exists_cons_of_ne_nil hne
    rw [labelText, show (fun l : String => quoteDoubled l.toList) = quoteDoubled ∘ String.toList
      from rfl, hpieces]
    simp only [List.map_cons, List.head_cons, List.tail_cons, List.map_map]
    rfl
  have htrimmed : (labels.map fun l => strip l.toList).map String.ofList =
      labels.map fun l => String.ofList (strip l.toList) := by
    rw [List.map_map]
    rfl
  rw [splitArgs, hstrips, trimmedLabels, ← htrimmed]
  split
  · next hone => rw [hone]; rfl
  · next hone =>
    rw [if_neg]
    intro hempty
    obtain ⟨l, hl, hnil⟩ := List.map_eq_singleton_iff.1 hempty
    exact hone (by rw [hl, String.ofList_eq_empty_iff.1 hnil])

/-- Labels come back from between parentheses if and only if they are carried. -/
theorem splitArgs_eq_labels_iff {labels : List String} (hne : labels ≠ []) :
    splitArgs (labelText labels) = labels ↔ Carried labels := by
  constructor
  · intro h
    have hstrips : (pieces none (labelText labels)).map strip = labels.map String.toList := by
      rw [splitArgs] at h
      split at h
      · exact absurd h.symm hne
      · have := congrArg (List.map String.toList) h
        rw [List.map_map] at this
        simpa [Function.comp_def] using this
    refine ⟨?_, ?_, ?_⟩
    · intro l hl hmem
      -- a backslash that is lost stays lost: trimming leaves all backslashes where they are
      have hlt := count_pieces_intercalate_lt ⟨l.toList, List.mem_map_of_mem hl, hmem⟩
      rw [List.map_map, ← count_flatten_map_strip] at hlt
      change ((pieces none (labelText labels)).map strip).flatten.count '\\' < _ at hlt
      rw [hstrips] at hlt
      exact Nat.lt_irrefl _ hlt
    · intro l hl
      obtain ⟨s, -, hs⟩ := List.mem_map.1 (hstrips ▸ List.mem_map_of_mem hl :
        l.toList ∈ (pieces none (labelText labels)).map strip)
      rw [← hs, (trimmed_strip s).strip_eq]
    · rintro rfl
      exact absurd h (by decide)
  · exact fun h => splitArgs_labels h.unescaped h.trimmed hne h.ne_empty

example : splitArgs (labelText ["a\\b", " c"]) = ["ab", "c"] := by decide

end RawType

namespace Catalog.Postgres

/-! ## Rows of the catalog -/

theorem enumText_eq (labels : List String) :
    enumText labels = String.ofList (Kind.enum.word.toList ++
      '(' :: (RawType.labelText labels ++ ')' :: RawType.suffix false)) := by
  have hword : Kind.enum.word.toList = "enum".toList := rfl
  rw [← String.toList_inj, String.toList_ofList, enumText, RawType.labelText, hword]
  simp [RawType.suffix, String.toList_intercalate, Function.comp_def]

/-- A type that lists labels is read as an enumeration of what its parentheses hold. -/
theorem ofRaw_enumText (labels : List String) (c : ColumnType.Context) :
    ColumnType.ofRaw .postgres (enumText labels) c =
      pure (.listed .enum rfl (RawType.splitArgs (RawType.labelText labels))) := by
  have hclosed : RawType.Closed (RawType.labelText labels) := by
    refine .intercalate fun i hi => ?_
    obtain ⟨l, -, rfl⟩ := List.mem_map.1 hi
    exact .quoteDoubled _
  rw [ColumnType.ofRaw, enumText_eq, RawType.ofText_arguments .enum hclosed]
  have hcount : ColumnType.counting c .enum = .enum := by
    simp [ColumnType.counting]
  have hnote : ¬(Kind.enum.family = .temporal ∧ Kind.enum ≠ .year ∧
      RawType.splitArgs (RawType.labelText labels) ≠ []) := by
    rintro ⟨htemporal, -⟩
    cases htemporal
  simp only [RawType.kindOf?_word]
  rw [if_neg (by simp), if_neg (by simp [Kind.word, Construct.dbml]), Advised.noteIf, if_neg hnote,
    hcount]
  rfl

/-- A row of a type with labels has the labels in the text of its type. -/
theorem rawType?_of_labels {r : Row} {enums : List (String × List String)} {name : String}
    {labels : List String} (htype : r.value "data_type" = .ok (.str "USER-DEFINED"))
    (hname : r.text? "udt_name" = .ok (some name)) (hlabels : enums.lookup name = some labels)
    (hne : labels ≠ []) : rawType? r enums = .ok (some (enumText labels)) := by
  obtain ⟨l, ls, rfl⟩ := List.exists_cons_of_ne_nil hne
  simp [rawType?, htype, hname, hlabels, bind, Except.bind, pure, Except.pure]

/-- A row of a type with labels is read as an enumeration, without a finding. Its values are the labels
if and only if the labels are carried, and the trimmed labels if none has a backslash. -/
theorem ofRaw_rawType_iff {r : Row} {enums : List (String × List String)} {name : String}
    {labels : List String} (htype : r.value "data_type" = .ok (.str "USER-DEFINED"))
    (hname : r.text? "udt_name" = .ok (some name)) (hlabels : enums.lookup name = some labels)
    (hne : labels ≠ []) (c : ColumnType.Context) :
    ∃ raw values, rawType? r enums = .ok (some raw) ∧
      ColumnType.ofRaw .postgres raw c = pure (.listed .enum rfl values) ∧
      (values = labels ↔ Carried labels) ∧
      ((∀ l ∈ labels, '\\' ∉ l.toList) → values = trimmedLabels labels) :=
  ⟨enumText labels, _, rawType?_of_labels htype hname hlabels hne, ofRaw_enumText labels c,
    RawType.splitArgs_eq_labels_iff hne, fun h => RawType.splitArgs_labelText h hne⟩

/-- Labels with a quote, a comma and a parenthesis come back. -/
theorem ofRaw_rawType_seats :
    Row.value [("data_type", .str "USER-DEFINED"), ("udt_name", .str "state")] "data_type" =
        .ok (.str "USER-DEFINED") ∧
      Row.text? [("data_type", .str "USER-DEFINED"), ("udt_name", .str "state")] "udt_name" =
        .ok (some "state") ∧
      [("state", ["it's free", "a), b", ""])].lookup "state" = some ["it's free", "a), b", ""] ∧
      ∃ raw values,
        rawType? [("data_type", .str "USER-DEFINED"), ("udt_name", .str "state")]
          [("state", ["it's free", "a), b", ""])] = .ok (some raw) ∧
        ColumnType.ofRaw .postgres raw = pure (.listed .enum rfl values) ∧
        values = ["it's free", "a), b", ""] := by
  obtain ⟨raw, values, hraw, hread, hiff, -⟩ := ofRaw_rawType_iff
    (r := [("data_type", .str "USER-DEFINED"), ("udt_name", .str "state")]) rfl rfl
    (show [("state", ["it's free", "a), b", ""])].lookup "state" = _ from rfl) (by decide) {}
  exact ⟨rfl, rfl, rfl, raw, values, hraw, hread, hiff.2 (by decide)⟩

end Catalog.Postgres

end Schemata
