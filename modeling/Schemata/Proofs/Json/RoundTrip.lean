import Schemata.Proofs.Json.Quote

/-!
# JSON texts read back

Any text of a value, in front of any text that a value may stand before, is read as the value
(`reads_text`), and so is a whole text (`ofText?_of_isText`), unless a whole number in it is too long:
then the first such number is what the reader complains about. This needs that every number is the one
its text means and that no object has a key twice (`IsReadable`). A reader with twice as much fuel as
there are characters never runs out of it: each value takes one unit, each item another one.
-/

namespace Schemata.Json

/-! ## What stands around a value -/

/-- The characters that a value starts with. -/
def IsHead (c : Char) : Prop := c.isDigit = true ∨ c ∈ ['-', '"', '[', '\x7b', 'n', 't', 'f']

instance (c : Char) : Decidable (IsHead c) := inferInstanceAs (Decidable (_ ∨ _))

theorem isSpace_of_isHead {c : Char} (hc : IsHead c) : isSpace c = false := by
  rw [Bool.eq_false_iff]
  intro hspace
  simp only [isSpace, Bool.or_eq_true, beq_iff_eq] at hspace
  obtain ((rfl | rfl) | rfl) | rfl := hspace <;> exact absurd hc (by decide)

/-- What stands behind a value in a text. -/
def EndsValue (r : List Char) : Prop := ∀ c ∈ r.head?, isSpace c = true ∨ c ∈ [',', ']', '\x7d']

theorem EndsValue.endsNumber {r : List Char} (hr : EndsValue r) : EndsNumber r := by
  intro c hc
  obtain hspace | hmem := hr c hc
  · simp only [isSpace, Bool.or_eq_true, beq_iff_eq] at hspace
    obtain ((rfl | rfl) | rfl) | rfl := hspace <;> decide
  · simp only [List.mem_cons, List.not_mem_nil, or_false] at hmem
    obtain rfl | rfl | rfl := hmem <;> decide

/-- Blanks in front of a comma or a closing mark stand behind a value. -/
theorem endsValue_blanks {b : List Char} (hb : IsBlanks b) {c : Char} (r : List Char)
    (hc : c ∈ [',', ']', '\x7d']) : EndsValue (b ++ c :: r) := by
  cases b with
  | nil =>
    rintro d ⟨⟩
    exact .inr hc
  | cons e b =>
    rintro d ⟨⟩
    exact .inl (hb e List.mem_cons_self)

/-- No blank in front of a part is left, and nothing of the part is skipped. -/
theorem skipSpace_blanks {b : List Char} (hb : IsBlanks b) {c : Char} (hc : isSpace c = false)
    (r : List Char) : skipSpace (b ++ c :: r) = c :: r := by
  rw [skipSpace, List.dropWhile_append_of_pos hb, List.dropWhile_cons, if_neg (by simp [hc])]

theorem skipSpace_cons {c : Char} (hc : isSpace c = false) (r : List Char) :
    skipSpace (c :: r) = c :: r := skipSpace_blanks (b := []) (by simp [IsBlanks]) hc r

/-! ## Values with distinct keys -/

theorem member?_eq_none {key : String} {ms : List (String × Json)} (h : key ∉ ms.map Prod.fst) :
    member? key ms = none := by
  induction ms with
  | nil => rfl
  | cons m r ih =>
    obtain ⟨k, v⟩ := m
    rw [List.map_cons, List.mem_cons, not_or] at h
    rw [member?_cons, ih h.2, if_neg (Ne.symm h.1)]
    rfl

/-- Members with distinct keys are kept as they are. -/
theorem distinct_of_nodup {ms : List (String × Json)} (h : (ms.map Prod.fst).Nodup) :
    distinct ms = ms := by
  induction ms with
  | nil => rfl
  | cons m r ih =>
    obtain ⟨k, v⟩ := m
    rw [List.map_cons, List.nodup_cons] at h
    have hkeep : ∀ m ∈ r, decide (m.1 ≠ k) = true := by
      intro m hm
      rw [decide_eq_true_eq]
      intro hk
      exact h.1 (List.mem_map.2 ⟨m, hm, hk⟩)
    rw [distinct, ih h.2, List.filter_eq_self.2 hkeep, member?_eq_none h.1]
    rfl

/-! ## Numbers that are too long -/

/-- What a reader finds of some whole numbers, one after the other: the first that is too long. -/
def firstLong? (limit : Option Nat) (ns : List Int) : Option Flaw := ns.findSome? (longNumber? limit)

theorem firstLong?_append (limit : Option Nat) (ms ns : List Int) :
    firstLong? limit (ms ++ ns) = (firstLong? limit ms).or (firstLong? limit ns) :=
  List.findSome?_append

/-- A result, unless a whole number is too long. -/
def unlessLong {α : Type} (limit : Option Nat) (ns : List Int) (a : α) : Except Flaw α :=
  (firstLong? limit ns).elim (.ok a) .error

@[simp] theorem unlessLong_nil {α : Type} (limit : Option Nat) (a : α) :
    unlessLong limit [] a = .ok a := rfl

/-! ## Reading a text -/

variable {limit : Option Nat} {t u : List Char}

/-- A text is read as a value, whatever stands behind it. -/
structure Reads (limit : Option Nat) (v : Json) (t : List Char) : Prop where
  head : ∃ c r, t = c :: r ∧ IsHead c
  value : ∀ fuel r, 2 * t.length ≤ fuel → EndsValue r →
    readValue limit fuel (t ++ r) = unlessLong limit v.ints (v, r)

/-- The items behind a first one are read with it, up to the closing bracket. -/
def ReadsItems (limit : Option Nat) (vs : List Json) (u : List Char) : Prop :=
  ∀ v t, Reads limit v t → ∀ fuel r, 2 * (t.length + u.length) + 1 ≤ fuel →
    readItems limit fuel (t ++ (u ++ ']' :: r)) =
      unlessLong limit (itemInts (v :: vs)) (v :: vs, r)

/-- A text is read as a member. -/
inductive ReadsMember (limit : Option Nat) (key : String) (v : Json) : List Char → Prop
  | mk {k b b' t : List Char} (hk : IsStringText key.toList k) (hb : IsBlanks b)
      (hb' : IsBlanks b') (hv : Reads limit v t) :
      ReadsMember limit key v ('"' :: (k ++ '"' :: (b ++ ':' :: (b' ++ t))))

/-- The members behind a first one are read with it, up to the closing brace. -/
def ReadsMembers (limit : Option Nat) (ms : List (String × Json)) (u : List Char) : Prop :=
  ∀ key v t, ReadsMember limit key v t → ∀ fuel r, 2 * (t.length + u.length) + 1 ≤ fuel →
    readMembers limit fuel (t ++ (u ++ '\x7d' :: r)) =
      unlessLong limit (memberInts ((key, v) :: ms)) ((key, v) :: ms, r)

theorem Reads.skipSpace {v : Json} (h : Reads limit v t) {b : List Char} (hb : IsBlanks b)
    (r : List Char) : skipSpace (b ++ (t ++ r)) = t ++ r := by
  obtain ⟨c, u, rfl, hc⟩ := h.head
  rw [List.cons_append, skipSpace_blanks hb (isSpace_of_isHead hc)]

theorem reads_of_succ {v : Json} (head : ∃ c r, t = c :: r ∧ IsHead c)
    (h : ∀ fuel r, EndsValue r → readValue limit (fuel + 1) (t ++ r) =
      unlessLong limit v.ints (v, r)) : Reads limit v t := by
  refine ⟨head, fun fuel r hfuel hr => ?_⟩
  obtain ⟨c, u, rfl, -⟩ := head
  rw [List.length_cons] at hfuel
  obtain ⟨fuel, rfl⟩ : ∃ k, fuel = k + 1 := ⟨fuel - 1, by omega⟩
  exact h fuel r hr

theorem reads_numeral {n : Numeral} (h : n.IsGood) : Reads limit n.value n.chars := by
  obtain ⟨c, r, ht, hc, -⟩ := Numeral.exists_chars_cons h []
  rw [List.append_nil] at ht
  refine reads_of_succ ⟨c, r, ht, hc.elim (fun hc => hc ▸ by decide) .inl⟩ fun fuel r hr => ?_
  rw [Numeral.readValue_chars h hr.endsNumber]
  unfold Numeral.value
  split
  · rw [ints_int, unlessLong, firstLong?, List.findSome?_singleton]
    rfl
  · rw [ints_float]
    rfl

theorem reads_int (n : Int) : Reads limit (.int n) (Text.intText n).toList := by
  obtain ⟨m, hgood, hvalue, hchars⟩ := exists_intText_eq n
  rw [← hvalue, hchars]
  exact reads_numeral hgood

theorem reads_null : Reads limit .null "null".toList := by
  refine reads_of_succ ⟨_, _, rfl, by decide⟩ fun fuel r _ => ?_
  rw [ints_null, unlessLong_nil]
  simp [readValue, readWord?, wordValues, scalarFlaw?]

theorem reads_bool (b : Bool) : Reads limit (.bool b) (if b then "true" else "false").toList := by
  refine reads_of_succ (by cases b <;> exact ⟨_, _, rfl, by decide⟩) fun fuel r _ => ?_
  rw [ints_bool, unlessLong_nil]
  cases b <;> simp [readValue, readWord?, wordValues, scalarFlaw?]

theorem reads_str {s : String} (h : IsStringText s.toList t) :
    Reads limit (.str s) ('"' :: (t ++ ['"'])) := by
  refine reads_of_succ ⟨_, _, rfl, by decide⟩ fun fuel r _ => ?_
  rw [ints_str, unlessLong_nil, List.cons_append, List.append_assoc, List.singleton_append,
    readValue, readString_text h]
  simp only [String.ofList_toList]

theorem reads_arr_nil {b : List Char} (hb : IsBlanks b) :
    Reads limit (.arr []) ('[' :: (b ++ [']'])) := by
  refine reads_of_succ ⟨_, _, rfl, by decide⟩ fun fuel r _ => ?_
  rw [ints_arr, List.flatMap_nil, unlessLong_nil, List.cons_append, List.append_assoc,
    List.singleton_append, readValue, skipSpace_blanks hb (by rfl)]
  rfl

theorem reads_obj_nil {b : List Char} (hb : IsBlanks b) :
    Reads limit (.obj []) ('\x7b' :: (b ++ ['\x7d'])) := by
  refine reads_of_succ ⟨_, _, rfl, by decide⟩ fun fuel r _ => ?_
  rw [ints_obj, List.flatMap_nil, unlessLong_nil, List.cons_append, List.append_assoc,
    List.singleton_append, readValue, skipSpace_blanks hb (by rfl)]
  rfl

theorem readsItems_nil {b : List Char} (hb : IsBlanks b) : ReadsItems limit [] b := by
  intro v t hv fuel r hfuel
  obtain ⟨fuel, rfl⟩ : ∃ k, fuel = k + 1 := ⟨fuel - 1, by omega⟩
  rw [readItems, hv.value fuel _ (by omega) (endsValue_blanks hb r (by decide)), itemInts, itemInts,
    List.append_nil]
  unfold unlessLong
  cases firstLong? limit v.ints with
  | some flaw => rfl
  | none => simp only [Option.elim_none, skipSpace_blanks hb (show isSpace ']' = false by rfl)]

theorem readsItems_cons {b b' : List Char} {w : Json} {ws : List Json} (hb : IsBlanks b)
    (hb' : IsBlanks b') (hw : Reads limit w t) (hws : ReadsItems limit ws u) :
    ReadsItems limit (w :: ws) (b ++ ',' :: (b' ++ (t ++ u))) := by
  intro v s hv fuel r hfuel
  obtain ⟨fuel, rfl⟩ : ∃ k, fuel = k + 1 := ⟨fuel - 1, by omega⟩
  simp only [List.length_append, List.length_cons] at hfuel
  have hrest := hws w t hw fuel r (by omega)
  simp only [List.append_assoc, List.cons_append]
  rw [readItems, hv.value fuel _ (by omega) (endsValue_blanks hb _ (by decide)), itemInts]
  unfold unlessLong at hrest ⊢
  rw [firstLong?_append]
  cases firstLong? limit v.ints with
  | some flaw => rfl
  | none =>
    simp only [Option.elim_none, skipSpace_blanks hb (show isSpace ',' = false by rfl),
      hw.skipSpace hb', hrest, Option.none_or]
    cases firstLong? limit (itemInts (w :: ws)) <;> rfl

/-- A member is read up to the brace or the comma behind it. -/
theorem readMembers_member {key : String} {v : Json} (hv : ReadsMember limit key v t) {fuel : Nat}
    (hfuel : 2 * t.length ≤ fuel) {r rest : List Char} (hr : EndsValue r)
    {ms : List (String × Json)}
    (hrest : (ms = [] ∧ skipSpace r = '\x7d' :: rest) ∨ ∃ s, skipSpace r = ',' :: s ∧
      readMembers limit fuel (skipSpace s) = unlessLong limit (memberInts ms) (ms, rest)) :
    readMembers limit (fuel + 1) (t ++ r) =
      unlessLong limit (memberInts ((key, v) :: ms)) ((key, v) :: ms, rest) := by
  cases hv with
  | @mk k b b' t hk hb hb' hv =>
    simp only [List.length_cons, List.length_append] at hfuel
    simp only [List.cons_append, List.append_assoc]
    rw [readMembers, readString_text hk]
    simp only [skipSpace_blanks hb (show isSpace ':' = false by rfl), hv.skipSpace hb',
      hv.value fuel r (by omega) hr, String.ofList_toList]
    rw [memberInts]
    unfold unlessLong at hrest ⊢
    rw [firstLong?_append]
    cases firstLong? limit v.ints with
    | some flaw => rfl
    | none =>
      obtain ⟨rfl, hclose⟩ | ⟨s, hcomma, hmore⟩ := hrest
      · simp only [Option.elim_none, hclose]
        rfl
      · simp only [Option.elim_none, hcomma, hmore, Option.none_or]
        cases firstLong? limit (memberInts ms) <;> rfl

theorem readsMembers_nil {b : List Char} (hb : IsBlanks b) : ReadsMembers limit [] b := by
  intro key v t hv fuel r hfuel
  obtain ⟨fuel, rfl⟩ : ∃ k, fuel = k + 1 := ⟨fuel - 1, by omega⟩
  exact readMembers_member hv (by omega) (endsValue_blanks hb r (by decide))
    (.inl ⟨rfl, skipSpace_blanks hb (by rfl) r⟩)

theorem readsMembers_cons {b b' : List Char} {k : String} {w : Json} {ws : List (String × Json)}
    (hb : IsBlanks b) (hb' : IsBlanks b') (hw : ReadsMember limit k w t)
    (hws : ReadsMembers limit ws u) :
    ReadsMembers limit ((k, w) :: ws) (b ++ ',' :: (b' ++ (t ++ u))) := by
  intro key v s hv fuel r hfuel
  obtain ⟨fuel, rfl⟩ : ∃ k, fuel = k + 1 := ⟨fuel - 1, by omega⟩
  simp only [List.length_append, List.length_cons] at hfuel
  have hrest := hws k w t hw fuel r (by omega)
  have hskip : skipSpace (b' ++ (t ++ (u ++ '\x7d' :: r))) = t ++ (u ++ '\x7d' :: r) := by
    cases hw
    exact skipSpace_blanks hb' (by rfl) _
  simp only [List.append_assoc, List.cons_append]
  refine readMembers_member hv (by omega) (endsValue_blanks hb _ (by decide))
    (.inr ⟨_, skipSpace_blanks hb (by rfl) _, ?_⟩)
  rw [hskip, hrest]

theorem reads_arr_cons {b : List Char} {v : Json} {vs : List Json} (hb : IsBlanks b)
    (hv : Reads limit v t) (hvs : ReadsItems limit vs u) :
    Reads limit (.arr (v :: vs)) ('[' :: (b ++ (t ++ (u ++ [']'])))) := by
  refine ⟨⟨_, _, rfl, by decide⟩, fun fuel r hfuel _ => ?_⟩
  simp only [List.length_cons, List.length_append, List.length_nil] at hfuel
  obtain ⟨fuel, rfl⟩ : ∃ k, fuel = k + 1 := ⟨fuel - 1, by omega⟩
  have hitems := hvs v t hv fuel r (by omega)
  simp only [List.cons_append, List.append_assoc, List.nil_append]
  rw [readValue, hv.skipSpace hb, ints]
  obtain ⟨c, s, rfl, hc⟩ := hv.head
  rw [List.cons_append] at hitems ⊢
  split
  · next heq =>
    cases heq
    exact absurd hc (by decide)
  · rw [hitems]
    unfold unlessLong
    cases firstLong? limit (itemInts (v :: vs)) <;> rfl

theorem reads_obj_cons {b : List Char} {key : String} {v : Json} {ms : List (String × Json)}
    (hkeys : (((key, v) :: ms).map Prod.fst).Nodup) (hb : IsBlanks b)
    (hv : ReadsMember limit key v t) (hms : ReadsMembers limit ms u) :
    Reads limit (.obj ((key, v) :: ms)) ('\x7b' :: (b ++ (t ++ (u ++ ['\x7d'])))) := by
  refine ⟨⟨_, _, rfl, by decide⟩, fun fuel r hfuel _ => ?_⟩
  simp only [List.length_cons, List.length_append, List.length_nil] at hfuel
  obtain ⟨fuel, rfl⟩ : ∃ k, fuel = k + 1 := ⟨fuel - 1, by omega⟩
  have hmembers := hms key v t hv fuel r (by omega)
  simp only [List.cons_append, List.append_assoc, List.nil_append]
  rw [readValue, ints]
  cases hv with
  | mk hk hb' hb'' hv =>
    rw [List.cons_append] at hmembers ⊢
    rw [skipSpace_blanks hb (by rfl)]
    split
    · next heq => exact absurd (List.cons.inj heq).1 (by decide)
    · rw [hmembers]
      unfold unlessLong
      cases firstLong? limit (memberInts ((key, v) :: ms)) with
      | none => simp only [Option.elim_none, distinct_of_nodup hkeys]
      | some flaw => rfl

variable {floatText : Binary64 → List Char}

mutual

/-- Any text of a value is read as the value. -/
theorem reads_text (limit : Option Nat) : (v : Json) → IsReadable floatText v → ∀ {t},
    IsText floatText v t → Reads limit v t
  | null, _, _, .null => reads_null
  | bool _, _, _, .bool b => reads_bool b
  | int _, _, _, .int n => reads_int n
  | float x, h, _, .float _ => by
    obtain ⟨n, hgood, hvalue, hchars⟩ := (isReadable_float x).1 h
    rw [hchars, ← hvalue]
    exact reads_numeral hgood
  | str _, _, _, .str h => reads_str h
  | arr [], _, _, .arr_nil hb => reads_arr_nil hb
  | arr (v :: vs), h, _, .arr_cons hb hv hvs => by
    unfold IsReadable AreReadable at h
    exact reads_arr_cons hb (reads_text limit v h.1 hv) (readsItems_text limit vs h.2 hvs)
  | obj [], _, _, .obj_nil hb => reads_obj_nil hb
  | obj ((key, v) :: ms), h, _, .obj_cons hb hm hms => by
    unfold IsReadable MembersReadable at h
    obtain ⟨hk, hb', hb'', hv⟩ := hm
    exact reads_obj_cons h.1 hb (.mk hk hb' hb'' (reads_text limit v h.2.1 hv))
      (readsMembers_text limit ms h.2.2 hms)

theorem readsItems_text (limit : Option Nat) : (vs : List Json) → AreReadable floatText vs →
    ∀ {u}, AreItems floatText vs u → ReadsItems limit vs u
  | [], _, _, .nil hb => readsItems_nil hb
  | v :: vs, h, _, .cons hb hb' hv hvs => by
    unfold AreReadable at h
    exact readsItems_cons hb hb' (reads_text limit v h.1 hv) (readsItems_text limit vs h.2 hvs)

theorem readsMembers_text (limit : Option Nat) : (ms : List (String × Json)) →
    MembersReadable floatText ms → ∀ {u}, AreMembers floatText ms u → ReadsMembers limit ms u
  | [], _, _, .nil hb => readsMembers_nil hb
  | (key, v) :: ms, h, _, .cons hb hb' hm hms => by
    unfold MembersReadable at h
    obtain ⟨hk, hb'', hb''', hv⟩ := hm
    exact readsMembers_cons hb hb' (.mk hk hb'' hb''' (reads_text limit v h.1 hv))
      (readsMembers_text limit ms h.2 hms)

end

/-- A value is read back from any of its texts, unless a whole number in it is too long. -/
theorem ofText?_of_isText (limit : Option Nat) {v : Json} (hv : IsReadable floatText v)
    {text : String} (ht : IsText floatText v text.toList) :
    ofText? text limit = unlessLong limit v.ints v := by
  obtain ⟨⟨c, r, hcons, hc⟩, hread⟩ := reads_text limit v hv ht
  have hread := hread (2 * text.toList.length + 2) [] (by omega) (by rintro c ⟨⟩)
  rw [List.append_nil] at hread
  have hskip : skipSpace text.toList = text.toList := by
    rw [hcons, skipSpace_cons (isSpace_of_isHead hc)]
  rw [ofText?]
  split
  · next heq =>
    cases hcons.symm.trans heq
    exact absurd hc (by decide)
  · rw [hskip, hread]
    unfold unlessLong
    cases firstLong? limit v.ints <;> rfl

end Schemata.Json
