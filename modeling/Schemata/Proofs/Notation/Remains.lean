import Schemata.Proofs.Column.Bare
import Schemata.Proofs.Notation.Line

/-!
# What readers leave

The readers of a line only ever leave characters out: what they take for a part and what they leave for
the next one is made of the characters of the line. The escapes of a text are the one exception, and
they stand for line feeds and tabulators (`mem_unescape`).
-/

namespace Schemata.Notation

open Text

/-! ## Lines -/

section Readers

variable {s name inside rest settings : List Char}

theorem skipBlanks_subset (s : List Char) : skipBlanks s ⊆ s := (List.dropWhile_suffix isBlank).subset

theorem dropTrailingBlanks_subset (s : List Char) : dropTrailingBlanks s ⊆ s := fun _ hc =>
  List.mem_reverse.1 ((List.dropWhile_suffix isBlank).subset (List.mem_reverse.1 hc))

theorem strip_subset (s : List Char) : strip s ⊆ s :=
  List.Subset.trans (dropTrailingBlanks_subset _) (skipBlanks_subset s)

theorem skipBlanks1_subset (h : skipBlanks1 s = some rest) : rest ⊆ s := by
  unfold skipBlanks1 at h
  split at h
  · next c r =>
    split at h
    · cases h
      exact List.subset_cons_of_subset c (skipBlanks_subset r)
    · cases h
  · cases h

theorem takeUntil?_subset {q : Char} (h : takeUntil? q s = some (inside, rest)) : rest ⊆ s := by
  unfold takeUntil? at h
  split at h
  · next c r hr =>
    cases h
    exact fun x hx => (List.dropWhile_suffix _).subset (hr ▸ List.mem_cons_of_mem c hx)
  · cases h

theorem takeName?_subset (h : takeName? s = some (name, rest)) : rest ⊆ s := by
  unfold takeName? at h
  split at h
  · cases h
  · next c r =>
    refine List.subset_cons_of_subset c ?_
    split at h
    · exact takeUntil?_subset (Option.filter_eq_some_iff.1 h).1
    · split at h
      · cases h
        exact (List.dropWhile_suffix _).subset
      · cases h

theorem takeHeadingName?_subset (h : takeHeadingName? s = some (name, rest)) : rest ⊆ s := by
  unfold takeHeadingName? at h
  split at h
  · cases h
  · next c r =>
    split at h
    · cases h
      exact List.subset_cons_of_subset c (List.dropWhile_suffix _).subset
    · exact takeName?_subset h

theorem takeFoundName?_subset {found : Option (List Char)}
    (h : takeFoundName? s = some (found, rest)) : rest ⊆ s := by
  unfold takeFoundName? at h
  split at h
  · next hname =>
    cases h
    exact takeName?_subset hname
  · obtain ⟨⟨name, rest'⟩, hname, h⟩ := Option.map_eq_some_iff.1 h
    cases h
    exact takeHeadingName?_subset hname

theorem takeQualified?_subset {found : Option (List Char)}
    (h : takeQualified? s = some (found, rest)) : rest ⊆ s := by
  unfold takeQualified? at h
  obtain ⟨⟨first, rest'⟩, hname, h⟩ := Option.map_eq_some_iff.1 h
  have hsub := takeFoundName?_subset hname
  dsimp only at h
  split at h
  · next r =>
    split at h
    · next hnext =>
      cases h
      exact List.Subset.trans (takeFoundName?_subset hnext)
        (List.Subset.trans (List.subset_cons_self _ _) hsub)
    · cases h
      exact hsub
  · cases h
    exact hsub

theorem dropKeyword?_subset {k : List Char} (h : dropKeyword? k s = some rest) : rest ⊆ s := by
  obtain ⟨p, rfl, -⟩ := dropKeyword?_eq_some h
  exact List.subset_append_right p rest

theorem takeShortName_subset (s : List Char) : (takeShortName s).2 ⊆ s := by
  unfold takeShortName
  split
  · next name rest h =>
    simp only [bind, Option.bind_eq_some_iff] at h
    obtain ⟨r₁, h₁, r₂, h₂, r₃, h₃, hname⟩ := h
    exact List.Subset.trans (takeHeadingName?_subset hname) (List.Subset.trans (skipBlanks1_subset h₃)
      (List.Subset.trans (dropKeyword?_subset h₂) (skipBlanks1_subset h₁)))
  · exact List.Subset.refl s

theorem takeSettings?_subset (h : takeSettings? s = some settings) : settings ⊆ s := by
  unfold takeSettings? at h
  split at h
  · cases h
    exact List.nil_subset s
  · next r hr =>
    split at h
    · cases h
      exact fun x hx => skipBlanks_subset s
        (hr ▸ List.mem_cons_of_mem _ (List.dropLast_subset r hx))
    · cases h
  · cases h

theorem settingsBeforeBrace?_subset (h : settingsBeforeBrace? s = some settings) : settings ⊆ s := by
  unfold settingsBeforeBrace? at h
  split at h
  · cases h
    exact List.nil_subset s
  · next r hr =>
    obtain ⟨t, ht, h⟩ := Option.bind_eq_some_iff.1 h
    unfold beforeBrace? at ht
    split at ht
    · cases ht
      split at h
      · cases h
        exact fun x hx => skipBlanks_subset s (hr ▸ List.mem_cons_of_mem _
          (List.dropLast_subset r (dropTrailingBlanks_subset _ (List.dropLast_subset _ hx))))
      · cases h
    · cases ht
  · cases h

/-- Only the header of a table has settings. -/
theorem Header.ofLine?_subset {shortName : Option (List Char)}
    (h : Header.ofLine? s = some (.table name shortName settings)) : settings ⊆ s := by
  have htable : table? s = some (.table name shortName settings) := by
    unfold ofLine? at h
    simp only [Option.or_eq_some_iff] at h
    rcases h with h | ⟨-, h | ⟨-, h | ⟨-, h | ⟨-, h | ⟨-, h | ⟨-, h⟩⟩⟩⟩⟩⟩
    · simp only [project?, bind, Option.bind_eq_some_iff] at h
      obtain ⟨r, -, h⟩ := h
      split at h <;> cases h
    · exact h
    · simp only [enum?, bind, Option.bind_eq_some_iff] at h
      obtain ⟨r, -, r', -, p, -, h⟩ := h
      split at h
      · cases hname : p.1 <;> simp [hname] at h
      · cases h
    · simp only [reference?, bind, Option.bind_eq_some_iff] at h
      obtain ⟨r, -, h⟩ := h
      split at h
      · cases h
      · split at h <;> cases h
      · split at h <;> cases h
      · cases h
    · simp only [group?, bind, Option.bind_eq_some_iff] at h
      obtain ⟨r, -, h⟩ := h
      split at h <;> cases h
    · simp only [noteBlock?, bind, Option.bind_eq_some_iff] at h
      obtain ⟨r, -, h⟩ := h
      split at h <;> cases h
    · obtain ⟨_, -, h⟩ := Option.map_eq_some_iff.1 h
      cases h
  unfold table? at htable
  simp only [bind, Option.bind_eq_some_iff, pure, Option.some.injEq] at htable
  obtain ⟨r₁, h₁, r₂, h₂, ⟨found, r₃⟩, h₃, settings', hsettings, htable⟩ := htable
  obtain rfl : settings' = settings := by
    cases found <;> cases htable
    rfl
  exact List.Subset.trans (settingsBeforeBrace?_subset hsettings)
    (List.Subset.trans (takeShortName_subset r₃) (List.Subset.trans (takeQualified?_subset h₃)
      (List.Subset.trans (skipBlanks1_subset h₂) (dropKeyword?_subset h₁))))

theorem takeArguments_subset (s : List Char) : (takeArguments s).2 ⊆ s := by
  unfold takeArguments
  split
  · next r =>
    split
    · next args rest h => exact List.subset_cons_of_subset _ (takeUntil?_subset h)
    · exact List.Subset.refl _
  · exact List.Subset.refl s

theorem takeType?_subset {type : List Char} (h : takeType? s = some (type, settings)) :
    settings ⊆ s := by
  have hsettings : ∀ {r type' : List Char}, (takeSettings? r).map (type', ·) = some (type, settings) →
      settings ⊆ r := by
    intro r type' h
    obtain ⟨settings', h, heq⟩ := Option.map_eq_some_iff.1 h
    cases heq
    exact takeSettings?_subset h
  unfold takeType? at h
  split at h
  · next r =>
    simp only [bind, Option.bind_eq_some_iff] at h
    obtain ⟨⟨type', rest⟩, hrest, h⟩ := h
    dsimp only at h
    split at h
    · cases h
    · exact List.subset_cons_of_subset _ (List.Subset.trans (hsettings h) (takeUntil?_subset hrest))
  · dsimp only at h
    split at h
    · cases h
    · have hrest : (takeArguments (s.dropWhile isTypeChar)).2 ⊆ s :=
        List.Subset.trans (takeArguments_subset _) (List.dropWhile_suffix _).subset
      refine List.Subset.trans ?_ hrest
      split at h
      · next r hr =>
        rw [hr]
        rcases Option.or_eq_some_iff.1 h with h | ⟨-, h⟩
        · exact List.subset_cons_of_subset _ (List.subset_cons_of_subset _ (hsettings h))
        · exact hr ▸ hsettings h
      · exact hsettings h

theorem FieldLine.ofLine?_subset {l : FieldLine} (h : FieldLine.ofLine? s = some l) :
    l.settings ⊆ s := by
  unfold ofLine? at h
  simp only [bind, Option.bind_eq_some_iff, pure, Option.some.injEq] at h
  obtain ⟨⟨name, r₁⟩, h₁, r₂, h₂, ⟨type, settings⟩, h₃, rfl⟩ := h
  exact List.Subset.trans (takeType?_subset h₃)
    (List.Subset.trans (skipBlanks1_subset h₂) (takeName?_subset h₁))

theorem takeIndex?_subset {target : IndexTarget} (h : takeIndex? s = some (target, settings)) :
    settings ⊆ s := by
  have henclosed : ∀ {q c : Char} {r inside rest : List Char},
      takeUntil? q r = some (inside, rest) → takeSettings? rest = some settings →
        settings ⊆ c :: r := fun hrest h =>
    List.subset_cons_of_subset _ (List.Subset.trans (takeSettings?_subset h) (takeUntil?_subset hrest))
  unfold takeIndex? at h
  split at h <;>
    simp only [bind, Option.bind_eq_some_iff, pure, Option.some.injEq, Prod.mk.injEq] at h <;>
    obtain ⟨⟨inside, rest⟩, hrest, settings', h, -, rfl⟩ := h
  · exact henclosed hrest h
  · exact henclosed hrest h
  · exact List.Subset.trans (takeSettings?_subset h) (takeName?_subset hrest)

theorem noteLine?_subset {text : List Char} (h : noteLine? s = some text) : text ⊆ s := by
  unfold noteLine? at h
  simp only [bind, Option.bind_eq_some_iff] at h
  obtain ⟨r, hr, h⟩ := h
  split at h
  · next t ht =>
    split at h
    · cases h
    · cases h
      exact fun x hx => dropKeyword?_subset hr (skipBlanks_subset r
        (ht ▸ List.mem_cons_of_mem _ (skipBlanks_subset t hx)))
  · cases h

/-- The pieces of a list of settings are made of the characters of the list. -/
theorem settingPieces_sublist (q : Option Char) (depth : Int) (s : List Char) :
    (settingPieces q depth s).flatten.Sublist s := by
  fun_induction settingPieces q depth s <;> simp_all [flatten_consHead]

theorem splitSettings_subset {item : List Char} (h : item ∈ splitSettings s) : item ⊆ s := by
  unfold splitSettings at h
  obtain ⟨piece, hpiece, rfl⟩ := List.mem_map.1 (List.mem_filter.1 h).1
  exact fun x hx => (settingPieces_sublist none 0 s).subset
    (List.mem_flatten.2 ⟨piece, hpiece, strip_subset piece hx⟩)

theorem splitSetting_subset {value : List Char} (h : (splitSetting s).2 = some value) : value ⊆ s := by
  unfold splitSetting at h
  split at h
  · next c r hr =>
    cases h
    exact fun x hx => (List.dropWhile_suffix _).subset
      (hr ▸ List.mem_cons_of_mem c (strip_subset r hx))
  · cases h

theorem between?_subset {mark : List Char} (h : between? mark s = some inside) : inside ⊆ s := by
  unfold between? at h
  split at h
  · cases h
    exact fun x hx => List.mem_of_mem_drop (List.mem_of_mem_take hx)
  · cases h

theorem unquoteName_subset (s : List Char) : unquoteName s ⊆ s := by
  refine List.Subset.trans ?_ (strip_subset s)
  unfold unquoteName
  dsimp only
  split
  · next q r hr =>
    rw [hr]
    split
    · exact List.subset_cons_of_subset q (List.dropLast_subset r)
    · exact List.Subset.refl _
  · exact List.nil_subset _

theorem mem_unescape {c : Char} (h : c ∈ unescape s) : c ∈ s ∨ c = '\n' ∨ c = '\t' := by
  fun_induction unescape s with
  | case1 => cases h
  | case2 => exact .inl h
  | case3 r ih =>
    rcases List.mem_cons.1 h with rfl | h
    · exact .inl List.mem_cons_self
    · rcases List.mem_cons.1 h with rfl | h
      · exact .inr (.inl rfl)
      · exact (ih h).imp_left fun h => List.mem_cons_of_mem _ (List.mem_cons_of_mem _ h)
  | case4 d r hd ih =>
    rcases List.mem_cons.1 h with rfl | h
    · unfold escaped
      split
      · exact .inr (.inl rfl)
      · exact .inr (.inr rfl)
      · exact .inl (by simp)
    · exact (ih h).imp_left fun h => List.mem_cons_of_mem _ (List.mem_cons_of_mem _ h)
  | case5 d r h₁ h₂ h₃ ih =>
    rcases List.mem_cons.1 h with rfl | h
    · exact .inl List.mem_cons_self
    · exact (ih h).imp_left fun h => List.mem_cons_of_mem _ h

end Readers

/-! ## Defaults -/

section Defaults

open Literal

variable {s t : List Char}

theorem castHead?_subset (h : castHead? s = some t) : t ⊆ s := by
  fun_induction castHead? s generalizing t with
  | case1 => cases h
  | case2 => cases h
  | case3 =>
    cases h
    exact List.nil_subset _
  | case4 a b r _ ih =>
    obtain ⟨u, hu, rfl⟩ := Option.map_eq_some_iff.1 h
    exact List.cons_subset_cons a (ih hu)

theorem stripCasts_subset (s : List Char) : stripCasts s ⊆ s := by
  induction s using stripCasts.induct with
  | case1 s hnone =>
    rw [stripCasts_eq_self hnone]
    exact List.Subset.refl s
  | case2 s t hsome ih =>
    rw [stripCasts]
    split
    · exact List.Subset.refl s
    · next u hu =>
      obtain rfl : t = u := Option.some.inj (hsome.symm.trans hu)
      exact List.Subset.trans ih (List.Subset.trans (strip_subset t) (castHead?_subset hsome))

theorem inner_subset (s : List Char) : inner s ⊆ s := fun _ hx =>
  List.mem_of_mem_drop (List.dropLast_subset _ hx)

theorem unwrap_subset (s : List Char) : unwrap s ⊆ s := by
  have hstep : ∀ s, stripCasts (strip (inner s)) ⊆ s := fun s =>
    List.Subset.trans (stripCasts_subset _) (List.Subset.trans (strip_subset _) (inner_subset s))
  fun_induction unwrap s with
  | case1 => exact List.Subset.refl _
  | case2 s =>
    rename_i ih
    exact List.Subset.trans ih (hstep s)
  | case3 s => exact hstep s
  | case4 => exact List.Subset.refl _
  | case5 => exact List.Subset.refl _

theorem core_subset (s : List Char) : core s ⊆ s :=
  List.Subset.trans (unwrap_subset _) (List.Subset.trans (stripCasts_subset _) (strip_subset s))

theorem halve_subset (q : Char) (s : List Char) : halve q s ⊆ s := by
  fun_induction halve q s with
  | case1 => exact List.Subset.refl _
  | case2 => exact List.Subset.refl _
  | case3 c d r hmarks ih =>
    rw [hmarks.1]
    exact List.cons_subset_cons q (List.subset_cons_of_subset d ih)
  | case4 c d r _ ih => exact List.cons_subset_cons c ih

/-- A literal that is read as a text is read as some of its characters. -/
theorem subset_of_ofText {type : ColumnType} {u : String} (h : ofText type s = some (.text u)) :
    u.toList ⊆ s := by
  have htyped : ∀ {x : List Char}, some (typed type x) = some (.text u) → u.toList = x := by
    intro x hx
    rw [eq_of_typed_eq_text (Option.some.inj hx), String.toList_ofList]
  cases hquoted : isQuoted (core s) with
  | true =>
    obtain ⟨q, hq⟩ := ofText_of_isQuoted type hquoted
    rw [htyped (hq.symm.trans h)]
    exact List.Subset.trans (halve_subset q _) (List.Subset.trans (inner_subset _) (core_subset s))
  | false =>
    cases hspecial : isSpecial (core s) with
    | true =>
      obtain hnone | ⟨sql, hsql⟩ := ofText_of_isSpecial type hquoted hspecial
      · rw [hnone] at h
        cases h
      · rw [hsql] at h
        cases h
    | false =>
      rw [htyped ((ofText_of_plain type hquoted hspecial).symm.trans h)]
      exact core_subset s

end Defaults

end Schemata.Notation
