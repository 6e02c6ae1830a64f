import Schemata.Proofs.Computation
import Schemata.Proofs.Column.Spelling
import Schemata.Proofs.Notation.Writable

/-!
# Types read from raw text

A raw type is read if its arguments that are made of digits are numerals (`exists_ofRaw`). What it can
mean then is said by `ofRaw_cases`. Such a type can be written in the words of the notation when
its labels are plain and its digits are given in full (`isSpelled_ofRaw`), and reading it once more
for the same column does not change its kind (`counting_ofRaw`). No name with a low line is the text
of a type (`ne_spelling`).
-/

namespace Schemata

open Text Notation

/-- A text of letters, digits and low lines. -/
structure IsPlain (s : String) : Prop where
  ne_nil : s.toList ≠ []
  chars : ∀ c ∈ s.toList, isPlainChar c = true

theorem IsPlain.isName {s : String} (h : IsPlain s) : IsName s := by
  refine ⟨h.ne_nil, fun c hc => ?_⟩
  obtain ⟨-, -, -, hbreak, hquote, -⟩ := isPlainChar_spec (h.chars c hc)
  refine ⟨?_, ?_, hbreak⟩
  · rintro rfl
    simp [isQuote] at hquote
  · rintro rfl
    exact absurd (h.chars _ hc) (by decide)

theorem IsPlain.feedsOnly {s : String} (h : IsPlain s) : FeedsOnly s := by
  intro c hc hbreak
  obtain ⟨-, -, -, hno, -⟩ := isPlainChar_spec (h.chars c hc)
  rw [hno] at hbreak
  cases hbreak

theorem IsPlain.keptLabel_eq {s : String} (h : IsPlain s) : keptLabel s = s := by
  rw [keptLabel_eq_iff]
  rintro ⟨-, hlast⟩
  exact absurd (h.chars _ (List.mem_of_getLast? hlast)) (by decide)

/-- Names joined by a low line. -/
theorem IsPlain.join {s t : String} (hs : IsPlain s) (ht : IsPlain t) : IsPlain (s ++ "_" ++ t) := by
  refine ⟨by simp, fun c hc => ?_⟩
  simp only [String.toList_append, List.mem_append] at hc
  obtain (hc | hc) | hc := hc
  · exact hs.chars c hc
  · obtain rfl : c = '_' := by simpa using hc
    decide
  · exact ht.chars c hc

theorem RawType.numberArg_nonneg {t : RawType} {i : Nat} {l : Limits} {n : Int}
    (h : t.numberArg i l = .ok (some n)) : 0 ≤ n := by
  unfold numberArg at h
  split at h
  · cases h
  · dsimp only at h
    split at h
    · obtain ⟨m, -, hm⟩ := map_eq_ok.1 h
      cases hm
      exact Int.natCast_nonneg _
    · cases h

/-- The arguments that are made of digits are numerals. -/
def RawType.HasNumerals (t : RawType) : Prop :=
  ∀ a ∈ t.args, (strip a.toList).all isAnyDigit = true → (strip a.toList).all isDigit = true

instance (t : RawType) : Decidable t.HasNumerals :=
  inferInstanceAs (Decidable (∀ a ∈ t.args, (strip a.toList).all isAnyDigit = true →
    (strip a.toList).all isDigit = true))

theorem RawType.exists_numberArg {t : RawType} (h : t.HasNumerals) (i : Nat) :
    ∃ n, t.numberArg i = .ok n := by
  unfold numberArg
  split
  · exact ⟨none, rfl⟩
  · next a ha =>
    dsimp only
    split
    · next hdigits =>
      obtain ⟨hne, hall⟩ := Bool.and_eq_true_iff.1 hdigits
      have hnumeral : isNumeral (strip a.toList) = true :=
        Bool.and_eq_true_iff.2 ⟨hne, h a (List.mem_of_getElem? ha) hall⟩
      rw [Limits.readDigits_of_isNumeral hnumeral]
      exact ⟨_, rfl⟩
    · exact ⟨none, rfl⟩

namespace ColumnType

theorem exists_ofKind {r : RawType} (h : r.HasNumerals) (k : Kind) : ∃ t, ofKind r k = .ok t := by
  obtain ⟨m, hm⟩ := RawType.exists_numberArg h 0
  obtain ⟨n, hn⟩ := RawType.exists_numberArg h 1
  unfold ofKind
  rw [hm, hn]
  split
  · split <;> exact ⟨_, rfl⟩
  · split
    · exact ⟨_, rfl⟩
    · split <;> exact ⟨_, rfl⟩

theorem exists_ofRaw {raw : String} (h : (RawType.ofText raw).HasNumerals) (d : Dialect)
    (c : Context) : ∃ t, (ofRaw d raw c).outcome = .ok t := by
  unfold ofRaw
  dsimp only
  split
  · exact ⟨_, rfl⟩
  · next k _ =>
    split
    · exact ⟨_, rfl⟩
    · split
      · obtain ⟨n, hn⟩ := RawType.exists_numberArg h 0
        rw [hn]
        exact ⟨_, rfl⟩
      · obtain ⟨t, ht⟩ := exists_ofKind h (counting c k)
        refine ⟨t, Advised.outcome_bind_eq_ok.2 ⟨(), ?_, ht⟩⟩
        unfold Advised.noteIf
        split <;> rfl

section Read

variable {d : Dialect} {raw : String} {c : Context} {l : Limits} {t : ColumnType}

theorem byteLength_nonneg {bits : Option Int} (h : ∀ n, bits = some n → 0 ≤ n) :
    0 ≤ byteLength bits := by
  unfold byteLength
  split
  · decide
  · decide
  · next n _ =>
    have := h n rfl
    omega

/-- What a raw type means: text or a truth value, bytes for bits, or what its name means. -/
theorem ofRaw_cases (h : (ofRaw d raw c l).outcome = .ok t) :
    (t = plain .text ∨ t = plain .boolean ∨ ∃ n : Int, 0 ≤ n ∧ t = sized .binary rfl (some n)) ∨
      ∃ r k, ofKind r (counting c k) l = .ok t := by
  unfold ofRaw at h
  dsimp only at h
  split at h
  · cases h
    exact .inl (.inl rfl)
  · next k _ =>
    split at h
    · cases h
      exact .inl (.inr (.inl rfl))
    · split at h
      · obtain ⟨bits, hbits, h⟩ := Advised.outcome_bind_eq_ok.1 h
        cases h
        refine .inl (.inr (.inr ⟨_, byteLength_nonneg fun n hn => ?_, rfl⟩))
        exact RawType.numberArg_nonneg (hn ▸ hbits)
      · obtain ⟨_, -, h⟩ := Advised.outcome_bind_eq_ok.1 h
        exact .inr ⟨RawType.ofText raw, k, h⟩

theorem kind_ofKind {r : RawType} {k : Kind} (h : ofKind r k l = .ok t) :
    t.kind = k ∨ t.kind = .text ∨ t.kind = .blob := by
  unfold ofKind at h
  split at h
  · split at h
    · split at h <;> cases h
      · exact .inr (.inr rfl)
      · exact .inr (.inl rfl)
    · obtain ⟨_, -, rfl⟩ := map_eq_ok.1 h
      exact .inl rfl
  · split at h
    · next hk =>
      obtain ⟨_, -, h⟩ := bind_eq_ok.1 h
      obtain ⟨_, -, h⟩ := bind_eq_ok.1 h
      cases h
      exact .inl hk.symm
    · split at h <;> cases h <;> exact .inl rfl

end Read

theorem counting_counting {c c' : Context} {k : Kind} (hkey : c'.primaryKey = c.primaryKey)
    (hcounts : c'.autoIncrement = true →
      c.autoIncrement = true ∨ (counting c k).isSerial = true) :
    counting c' (counting c k) = counting c k := by
  cases hc' : c'.autoIncrement with
  | false => simp [counting, hc']
  | true =>
    obtain hc | hserial := hcounts hc'
    · unfold counting
      rw [hkey, hc, hc', Bool.true_and]
      cases c.primaryKey with
      | false => rfl
      | true => cases k <;> rfl
    · revert hserial
      generalize counting c k = k'
      unfold counting
      cases k' <;> simp [Kind.isSerial]

/-- Reading a type for a column that counts up if it did, or if the type does, keeps its kind. -/
theorem counting_ofRaw {d : Dialect} {raw : String} {c c' : Context} {l : Limits} {t : ColumnType}
    (h : (ofRaw d raw c l).outcome = .ok t) (hkey : c'.primaryKey = c.primaryKey)
    (hcounts : c'.autoIncrement = true → c.autoIncrement = true ∨ t.kind.isSerial = true) :
    counting c' t.kind = t.kind := by
  have other : ∀ k ∈ [Kind.text, .boolean, .binary, .blob], counting c' k = k := by
    intro k hk
    simp only [List.mem_cons, List.not_mem_nil, or_false] at hk
    unfold counting
    obtain rfl | rfl | rfl | rfl := hk <;> simp
  obtain (rfl | rfl | ⟨n, _, rfl⟩) | ⟨r, k, h⟩ := ofRaw_cases h
  · exact other _ (by simp [plain])
  · exact other _ (by simp [plain])
  · exact other _ (by simp [sized])
  · obtain hk | hk | hk := kind_ofKind h
    · rw [hk] at hcounts ⊢
      exact counting_counting hkey hcounts
    · rw [hk]
      exact other _ (by simp)
    · rw [hk]
      exact other _ (by simp)

/-! ## Types that can be written -/

theorem isSpelled_plain {k : Kind} {unsigned : Bool}
    (h : unsigned = true → k.family = .integer ∨ k.family = .fixedPoint) :
    (plain k unsigned).IsSpelled := by
  constructor <;> simp [plain, family]
  exact h

theorem isSpelled_sized {k : Kind} (hk : k.isSized = true) {size : Option Int}
    (h : ∀ n ∈ size, 0 ≤ n) : (sized k hk size).IsSpelled := by
  constructor <;> simp [sized]
  exact h

theorem isSpelled_decimal {precision scale : Option Int} {unsigned : Bool}
    (hprecision : ∀ n ∈ precision, 0 ≤ n) (hscale : ∀ n ∈ scale, 0 ≤ n)
    (hdigits : scale.isSome = precision.isSome) : (decimal precision scale unsigned).IsSpelled := by
  constructor <;> simp [decimal, family, Kind.family]
  · exact hprecision
  · exact hscale
  · exact hdigits

theorem isSpelled_listed {k : Kind} (hk : k.isListed = true) {values : List String}
    (h : ∀ v ∈ values, IsPlain v) : (listed k hk values).IsSpelled := by
  constructor <;> simp only [listed, Option.mem_def, reduceCtorEq, false_implies, implies_true,
    Option.isSome_none, Bool.false_eq_true]
  · intro v hv
    have hchars := fun c hc => isPlainChar_spec ((h v hv).chars c hc)
    have htrim : Trimmed v.toList := ⟨fun c hc => (hchars c (List.mem_of_head? hc)).2.2.1,
      fun c hc => (hchars c (List.mem_of_getLast? hc)).2.2.1⟩
    refine ⟨htrim.strip_eq, fun c hc => ⟨?_, ?_, (hchars c hc).2.2.2.1⟩⟩
    · rintro rfl
      exact absurd (hchars _ hc).2.2.2.2.2 (by simp [marks])
    · rintro rfl
      exact absurd ((h v hv).chars _ hc) (by decide)
  · rintro rfl
    exact (h "" (by simp)).ne_nil rfl

/-- A type that a name means can be written if its labels are plain and its digits are in full. -/
theorem isSpelled_ofKind {r : RawType} {k : Kind} {l : Limits} {t : ColumnType}
    (h : ofKind r k l = .ok t) (hdigits : t.scale.isSome = true → t.precision.isSome = true)
    (hlabels : ∀ v ∈ t.values, IsPlain v) : t.IsSpelled := by
  unfold ofKind at h
  split at h
  · split at h
    · cases h
      exact isSpelled_plain (by simp)
    · obtain ⟨size, hsize, rfl⟩ := map_eq_ok.1 h
      exact isSpelled_sized _ fun n hn => RawType.numberArg_nonneg (hn ▸ hsize)
  · split at h
    · obtain ⟨precision, hprecision, h⟩ := bind_eq_ok.1 h
      obtain ⟨scale, hscale, h⟩ := bind_eq_ok.1 h
      cases h
      refine isSpelled_decimal (fun n hn => RawType.numberArg_nonneg (hn ▸ hprecision)) ?_ ?_
      · intro n hn
        obtain hn | ⟨_, hn⟩ := Option.or_eq_some_iff.1 hn
        · exact RawType.numberArg_nonneg (hn ▸ hscale)
        · obtain ⟨_, _, rfl⟩ := Option.map_eq_some_iff.1 hn
          exact Int.le_refl 0
      · have hfull : (scale.or (precision.map fun _ => 0)).isSome = true →
            precision.isSome = true := hdigits
        cases precision with
        | some p => simp
        | none => simpa using hfull
    · split at h
      · next hl =>
        cases h
        exact isSpelled_listed hl hlabels
      · cases h
        exact isSpelled_plain (by simp)

/-- A type that is read can be written if its labels are plain and its digits are in full. -/
theorem isSpelled_ofRaw {d : Dialect} {raw : String} {c : Context} {l : Limits} {t : ColumnType}
    (h : (ofRaw d raw c l).outcome = .ok t)
    (hdigits : t.scale.isSome = true → t.precision.isSome = true)
    (hlabels : ∀ v ∈ t.values, IsPlain v) : t.IsSpelled := by
  obtain (rfl | rfl | ⟨n, hn, rfl⟩) | ⟨r, k, h⟩ := ofRaw_cases h
  · exact isSpelled_plain (by simp)
  · exact isSpelled_plain (by simp)
  · exact isSpelled_sized _ fun m hm => Option.some.inj hm ▸ hn
  · exact isSpelled_ofKind h hdigits hlabels

/-! ## Names and types -/

theorem mem_unqualified {s r : List Char} {c : Char} (h : '.' ∉ c :: r) :
    c ∈ (unqualified (String.ofList (s ++ c :: r))).toList := by
  have hall : ∀ x ∈ (c :: r).reverse, (decide (x ≠ '.')) = true := by
    intro x hx
    rw [decide_eq_true_eq]
    rintro rfl
    exact h (List.mem_reverse.1 hx)
  rw [unqualified, str, String.toList_ofList, String.toList_ofList, List.mem_reverse,
    List.reverse_append, List.takeWhile_append_of_pos hall, List.mem_append]
  exact .inl (List.mem_reverse.2 List.mem_cons_self)

/-- A type is written as the word of its kind, or with a mark behind all points. -/
theorem spelling_cases (t : ColumnType) : t.spelling = t.kind.word.toList ∨
    ∃ s c r, t.spelling = s ++ c :: r ∧ isPlainChar c = false ∧ '.' ∉ c :: r := by
  have hsuffix : '.' ∉ ')' :: RawType.suffix t.unsigned := by cases t.unsigned <;> decide
  unfold spelling
  split
  · cases t.unsigned with
    | false => exact .inl (by simp [RawType.suffix])
    | true => exact .inr ⟨t.kind.word.toList, ' ', "unsigned".toList, rfl, by decide, by decide⟩
  · refine .inr ⟨t.kind.word.toList ++ '(' :: [',', ' '].intercalate t.parameters, ')',
      RawType.suffix t.unsigned, ?_, by decide, hsuffix⟩
    simp

theorem word_facts (k : Kind) : '_' ∉ k.word.toList ∧
    unqualified (String.ofList k.word.toList) = k.word := by
  have check : ∀ k ∈ Kind.all, '_' ∉ k.word.toList ∧
      unqualified (String.ofList k.word.toList) = k.word := by decide +kernel
  exact check k k.mem_all

/-- A plain name with a low line in it is not the text of a type. -/
theorem ne_spelling {n : String} (h : IsPlain n) (hline : '_' ∈ n.toList) (t : ColumnType) :
    n ≠ String.ofList t.spelling ∧ n ≠ unqualified (String.ofList t.spelling) := by
  obtain hword | ⟨s, c, r, hspell, hc, hdot⟩ := t.spelling_cases
  · obtain ⟨hno, hlast⟩ := word_facts t.kind
    rw [hword, hlast, String.ofList_toList]
    have hne : n ≠ t.kind.word := by
      rintro rfl
      exact hno hline
    exact ⟨hne, hne⟩
  · have hmark : c ∉ n.toList := fun hmem => by simp [h.chars c hmem] at hc
    rw [hspell]
    constructor
    · rintro rfl
      exact hmark (by simp)
    · rintro rfl
      exact hmark (mem_unqualified hdot)

end ColumnType

end Schemata
