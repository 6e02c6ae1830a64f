import Schemata.Document.Standard
import Schemata.Proofs.Document.Library
import Schemata.Proofs.Json.Printer

/-!
# The usual library keeps its promises

`Validation.standard` is a library as it should be: its readers take what they promise to take and give
nothing else (`Validation.isDocumented_standard`), and its printer writes texts
(`Validation.dumpsText_standard`).
-/

namespace Schemata

namespace Checked

variable {α β : Type} {x : Checked α} {y : Checked β}

theorem map_eq_valid {f : α → β} {b : β} : x.map f = .valid b ↔ ∃ a, x = .valid a ∧ f a = b := by
  cases x <;> simp [map]

/-- Two values are valid together if both are. -/
theorem both_eq_valid {a : α} {b : β} : x.both y = .valid (a, b) ↔ x = .valid a ∧ y = .valid b := by
  cases x <;> cases y <;> simp [both]

end Checked

namespace Check

variable {α β : Type} {c : Check α} {path : List Step}

theorem bounded_int {low high : Option Int} {n : Int} (hlow : ∀ k ∈ low, k ≤ n)
    (hhigh : ∀ k ∈ high, n ≤ k) : bounded low high path (.int n) = .valid n := by
  have hnlow : ¬low.any (n < ·) = true := by
    cases low with
    | none => simp
    | some k => simpa using hlow k rfl
  have hnhigh : ¬high.any (· < n) = true := by
    cases high with
    | none => simp
    | some k => simpa using hhigh k rfl
  simp only [bounded, int, if_neg hnlow, if_neg hnhigh]

theorem le_of_bounded {low n : Int} {high : Option Int} (h : (bounded (some low) high).Gives n) :
    low ≤ n := by
  obtain ⟨path, j, h⟩ := h
  unfold bounded at h
  split at h
  · next m _ =>
    by_cases hlow : m < low
    · rw [if_pos (by simpa using hlow)] at h
      cases h
    · rw [if_neg (by simpa using hlow)] at h
      split at h
      · cases h
      · cases h
        exact Int.not_lt.1 hlow
  · next hint => exact absurd h (hint n)

theorem nullable_of_ne {j : Json} (hj : j ≠ .null) :
    nullable c path j = (c path j).map some := by
  cases j with
  | null => exact absurd rfl hj
  | _ => rfl

theorem itemsFrom_of_takes {js : List Json} {as : List α} (h : List.Forall₂ c.Takes js as)
    (i : Nat) : itemsFrom c path i js = .valid as := by
  induction h generalizing i with
  | nil => rfl
  | cons hhead _ ih =>
    rw [itemsFrom, hhead, ih]
    rfl

theorem gives_of_itemsFrom {js : List Json} {i : Nat} {as : List α}
    (h : itemsFrom c path i js = .valid as) : ∀ a ∈ as, c.Gives a := by
  induction js generalizing i as with
  | nil =>
    cases h
    simp
  | cons j js ih =>
    rw [itemsFrom] at h
    obtain ⟨⟨a, r⟩, hboth, rfl⟩ := Checked.map_eq_valid.1 h
    obtain ⟨hhead, htail⟩ := Checked.both_eq_valid.1 hboth
    exact List.forall_mem_cons.2 ⟨⟨_, _, hhead⟩, ih htail⟩

theorem takes_nonempty {js : List Json} {as : List α} (h : List.Forall₂ c.Takes js as)
    (hne : as ≠ []) : (nonempty c).Takes (.arr js) as := by
  intro path
  have hlist : list c path (.arr js) = .valid as := itemsFrom_of_takes h 0
  rw [nonempty, hlist]
  split
  · next heq => exact absurd (Checked.valid.inj heq) hne
  · rfl

theorem ne_nil_of_nonempty {as : List α} (h : (nonempty c).Gives as) : as ≠ [] := by
  obtain ⟨path, j, h⟩ := h
  rintro rfl
  unfold nonempty at h
  split at h
  · cases h
  · next hnonempty => exact hnonempty h

theorem gives_of_list {as : List α} (h : (list c).Gives as) : ∀ a ∈ as, c.Gives a := by
  obtain ⟨path, j, h⟩ := h
  cases j with
  | arr items => exact gives_of_itemsFrom h
  | _ => cases h

theorem takes_nullable {j : Json} {a : α} (h : c.Takes j a) (hj : j ≠ .null) :
    (nullable c).Takes j (some a) := by
  intro path
  rw [nullable_of_ne hj, h path]
  rfl

theorem gives_of_nullable {a : α} (h : (nullable c).Gives (some a)) : c.Gives a := by
  obtain ⟨path, j, h⟩ := h
  cases j with
  | null => cases h
  | _ =>
    obtain ⟨a, ha, heq⟩ := Checked.map_eq_valid.1 h
    exact ⟨path, _, Option.some.inj heq ▸ ha⟩

theorem takes_member {key other : String} {default : Option α} {j v : Json} {a : α}
    (hmember : (j.memberUnder? key other).map Prod.snd = some v) (h : c.Takes v a) :
    (member key other default c).Takes j a := by
  intro path
  obtain ⟨⟨k, v⟩, hunder, rfl⟩ := Option.map_eq_some_iff.1 hmember
  rw [member, hunder]
  exact h _

theorem of_member {key other : String} {default : Option α} {a : α}
    (h : (member key other default c).Gives a) : default = some a ∨ c.Gives a := by
  obtain ⟨path, j, h⟩ := h
  unfold member at h
  split at h
  · exact .inr ⟨_, _, h⟩
  · cases default with
    | none => cases h
    | some d =>
      cases h
      exact .inl rfl

theorem takes_record {parts : Check α} {members : List (String × Json)} {a : α}
    (h : parts.Takes (.obj members) a) (make : α → β) :
    (record parts make).Takes (.obj members) (make a) := by
  intro path
  exact Checked.map_eq_valid.2 ⟨a, h path, rfl⟩

theorem of_record {parts : Check α} {make : α → β} {b : β} (h : (record parts make).Gives b) :
    ∃ a, parts.Gives a ∧ make a = b := by
  obtain ⟨path, j, h⟩ := h
  cases j with
  | obj members =>
    obtain ⟨a, ha, heq⟩ := Checked.map_eq_valid.1 h
    exact ⟨a, ⟨path, _, ha⟩, heq⟩
  | _ => cases h

end Check

namespace Validation

theorem isDocumented_standard : standard.IsDocumented where
  string _ _ := rfl
  bool _ _ := rfl
  float _ _ := rfl
  bounded hlow hhigh _ := Check.bounded_int hlow hhigh
  scalar s _ := by cases s <;> rfl
  named h path := by
    show Option.elim _ _ _ = _
    rw [h, Option.elim_some]
  parsed h path := by
    show Check.parsed _ _ _ = _
    rw [Check.parsed, h]
  nullable_null _ _ := rfl
  nullable := Check.takes_nullable
  list h _ := Check.itemsFrom_of_takes h 0
  nonempty := Check.takes_nonempty
  member := Check.takes_member
  both hc hd path := Checked.both_eq_valid.2 ⟨hc path, hd path⟩
  record := Check.takes_record
  le_of_bounded := Check.le_of_bounded
  of_nullable := Check.gives_of_nullable
  of_list := Check.gives_of_list
  of_nonempty := Check.ne_nil_of_nonempty
  of_member := Check.of_member
  of_both h := by
    obtain ⟨path, j, h⟩ := h
    obtain ⟨hc, hd⟩ := Checked.both_eq_valid.1 h
    exact ⟨⟨path, j, hc⟩, path, j, hd⟩
  of_record := Check.of_record

theorem dumpsText_standard (l : Limits) : standard.DumpsText l where
  floatText negative m e := by
    obtain ⟨n, hgood, hsome, hchars⟩ := Json.exists_floatChars_eq negative m e
    exact ⟨n, hgood, hsome, String.toList_ofList.trans hchars⟩
  exists_dump style j _ := ⟨j.text style, rfl⟩
  isText {style j text} h := by
    cases h
    have hfloat : (fun x => (standard.floatText x).toList) = Json.floatChars :=
      funext fun _ => String.toList_ofList
    rw [hfloat, Json.text, String.toList_ofList]
    exact Json.isText_write style 0 j

end Validation

end Schemata
