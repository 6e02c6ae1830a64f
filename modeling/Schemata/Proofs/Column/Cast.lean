import Mathlib.Data.List.Induction
import Mathlib.Data.List.TakeWhile
import Schemata.Proofs.Column.Default

/-!
# Casts behind a quoted text

PostgreSQL writes a text default as a literal with the casts behind it that it went through. Casts are
taken off from the end, before quotes are looked at, so the text in the quotes takes part in finding
them. It cannot mislead: behind every pair of colons in it stands its closing quote, which no cast has,
and behind every cast but the last the colons of the next one (`castHead?_append`). So a text in quotes
is what is left of any chain of casts (`stripCasts_castChain`), and it is read as the text
(`ofRaw_castText`).
-/

namespace Schemata

open Text Notation

namespace Literal

/-- What stands behind the colons of a cast: characters of a type, not all of them blanks. -/
structure IsCast (c : List Char) : Prop where
  chars : ∀ x ∈ c, isCastChar x = true
  nonblank : ∃ x ∈ c, isBlank x = false

instance (c : List Char) : Decidable (IsCast c) :=
  decidable_of_iff (c.all isCastChar = true ∧ c.any (!isBlank ·) = true) <| by
    rw [List.all_eq_true, List.any_eq_true]
    exact ⟨fun ⟨h₁, h₂⟩ => ⟨h₁, by simpa using h₂⟩, fun ⟨h₁, h₂⟩ => ⟨h₁, by simpa using h₂⟩⟩

/-- Casts one behind the other, the first to be carried out first. -/
def castChain (casts : List (List Char)) : List Char := casts.flatMap fun c => ':' :: ':' :: c

theorem castChain_concat (casts : List (List Char)) (c : List Char) :
    castChain (casts ++ [c]) = castChain casts ++ ':' :: ':' :: c := by
  simp [castChain]

/-! ## The last cast -/

/-- The first pair of colons that only a type follows is that of the last cast, whatever stands in
front of it. -/
theorem castHead?_append (s : List Char) {c : List Char} (hne : c ≠ [])
    (hc : ∀ x ∈ c, isCastChar x = true) : castHead? (s ++ ':' :: ':' :: c) = some s := by
  induction s with
  | nil =>
    rw [List.nil_append, castHead?, if_pos ⟨rfl, rfl, hne, List.all_eq_true.2 hc⟩]
  | cons a s ih =>
    obtain ⟨b, r, hsplit, hcolon⟩ : ∃ b r, s ++ ':' :: ':' :: c = b :: r ∧ ':' ∈ r := by
      cases s with
      | nil => exact ⟨':', ':' :: c, rfl, List.mem_cons_self⟩
      | cons b s => exact ⟨b, s ++ ':' :: ':' :: c, rfl, by simp⟩
    have hrest : ¬(a = ':' ∧ b = ':' ∧ r ≠ [] ∧ r.all isCastChar) := by
      rintro ⟨-, -, -, hall⟩
      exact absurd (List.all_eq_true.1 hall ':' hcolon) (by decide)
    rw [List.cons_append, hsplit, castHead?, if_neg hrest, ← hsplit, ih, Option.map_some]

theorem stripCasts_append (s : List Char) {c : List Char} (hne : c ≠ [])
    (hc : ∀ x ∈ c, isCastChar x = true) :
    stripCasts (s ++ ':' :: ':' :: c) = stripCasts (strip s) := by
  have hhead := castHead?_append s hne hc
  rw [stripCasts]
  split
  · next h => rw [hhead] at h; cases h
  · next t h => rw [Option.some.inj (hhead.symm.trans h)]

/-- Trimming a text that begins with no blank and ends with a cast trims the cast alone. -/
theorem strip_append_cast {s : List Char} (hne : s ≠ []) (hs : ∀ x ∈ s.head?, isBlank x = false)
    {c : List Char} (hc : IsCast c) :
    ∃ d, d ≠ [] ∧ (∀ x ∈ d, isCastChar x = true) ∧
      strip (s ++ ':' :: ':' :: c) = s ++ ':' :: ':' :: d := by
  have hfront : skipBlanks (s ++ ':' :: ':' :: c) = s ++ ':' :: ':' :: c := by
    obtain ⟨a, s, rfl⟩ := List.exists_cons_of_ne_nil hne
    exact dropWhile_eq_self (by simpa using hs)
  obtain ⟨x, hx, hblank⟩ := hc.nonblank
  have hkept : c.reverse.dropWhile isBlank ≠ [] := by
    intro hnil
    have := List.dropWhile_eq_nil_iff.1 hnil x (List.mem_reverse.2 hx)
    rw [hblank] at this
    cases this
  refine ⟨dropTrailingBlanks c, by simpa [dropTrailingBlanks] using hkept, fun y hy => ?_, ?_⟩
  · have : y ∈ c.reverse.dropWhile isBlank := by simpa [dropTrailingBlanks] using hy
    exact hc.chars y (List.mem_reverse.1 ((List.dropWhile_suffix isBlank).subset this))
  · rw [strip, hfront, dropTrailingBlanks, dropTrailingBlanks, List.reverse_append, List.reverse_cons,
      List.reverse_cons, List.append_assoc, List.append_assoc, List.dropWhile_append,
      if_neg (by simpa using hkept)]
    simp

/-! ## The whole chain -/

/-- Taking the casts off a text in quotes leaves the text in its quotes. By induction on the casts from
the last one, since that is the one that is taken off first. -/
theorem stripCasts_castChain (v : List Char) {casts : List (List Char)}
    (h : ∀ c ∈ casts, IsCast c) :
    stripCasts (strip (quoteDoubled v ++ castChain casts)) = quoteDoubled v := by
  induction casts using List.reverseRecOn with
  | nil =>
    have hlast : (quoteDoubled v).getLast? = some '\'' := by
      simp [quoteDoubled, enclose, List.getLast?_cons]
    rw [castChain, List.flatMap_nil, List.append_nil, (trimmed_quoteDoubled v).strip_eq,
      stripCasts_eq_self (castHead?_eq_none hlast (by decide))]
  | append_singleton casts c ih =>
    have hfront : ∀ x ∈ (quoteDoubled v ++ castChain casts).head?, isBlank x = false := by
      intro x hx
      obtain rfl : '\'' = x := by simpa [quoteDoubled, enclose] using hx
      decide
    obtain ⟨d, hne, hd, hstrip⟩ := strip_append_cast (by simp [quoteDoubled, enclose]) hfront
      (h c (by simp))
    rw [castChain_concat, ← List.append_assoc, hstrip, stripCasts_append _ hne hd]
    exact ih fun b hb => h b (by simp [hb])

/-- A text in quotes with casts behind it means for a type what the text in quotes alone means. -/
theorem ofText_castChain (t : ColumnType) (v : List Char) {casts : List (List Char)}
    (h : ∀ c ∈ casts, IsCast c) :
    ofText t (quoteDoubled v ++ castChain casts) = some (typed t v) := by
  have hlone : stripCasts (strip (quoteDoubled v ++ castChain [])) = quoteDoubled v :=
    stripCasts_castChain v (by simp)
  rw [castChain, List.flatMap_nil, List.append_nil] at hlone
  rw [← ofText_quoteDoubled, ofText, ofText, stripCasts_castChain v h, hlone]

theorem typed_of_string {t : ColumnType} (ht : t.family = .string) (s : List Char) :
    typed t s = .text (String.ofList s) := by
  have hbool : t.kind ≠ .boolean := by
    intro hk
    rw [ColumnType.family, hk] at ht
    cases ht
  rw [typed, if_neg hbool, if_neg (by simp [ht]), if_neg (by simp [ht])]

end Literal

/-- A text in single quotes, its own quotes doubled, with casts behind it. -/
def castText (v : String) (casts : List String) : String :=
  String.ofList (quoteDoubled v.toList ++ Literal.castChain (casts.map String.toList))

/-- A default of a column that holds text, given in quotes with any casts behind it, is the text in the
quotes, whatever the text is. -/
theorem Default.ofRaw_castText {t : ColumnType} (ht : t.family = .string) (v : String)
    {casts : List String} (h : ∀ c ∈ casts, Literal.IsCast c.toList) :
    ofRaw t (some (.text (castText v casts))) = some (.text v) := by
  have hcasts : ∀ c ∈ casts.map String.toList, Literal.IsCast c := by simpa using h
  have hread : ofRaw t (some (.text (castText v casts))) =
      Literal.ofText t (castText v casts).toList := rfl
  rw [hread, castText, String.toList_ofList, Literal.ofText_castChain t v.toList hcasts,
    Literal.typed_of_string ht, String.ofList_toList]

/-- A text with colons, quotes and a call in it comes back from behind two casts. -/
theorem Default.ofRaw_castText_call :
    (ColumnType.plain .text).family = .string ∧
      (∀ c ∈ ["character varying", " \"my type\"[] "], Literal.IsCast c.toList) ∧
      ofRaw (.plain .text)
          (some (.text (castText "now()::text', ('x'" ["character varying", " \"my type\"[] "]))) =
        some (.text "now()::text', ('x'") := by
  have hcasts : ∀ c ∈ ["character varying", " \"my type\"[] "], Literal.IsCast c.toList := by decide
  exact ⟨rfl, hcasts, ofRaw_castText rfl _ hcasts⟩

end Schemata
