import Schemata.Proofs.Connection.History

/-!
# Handles do not alias

A handle carries the generation of its slot, which goes up whenever the slot is vacated. So the
handles of a run differ (`nodup`), a handle reaches a connection exactly while it is live, and a handle
that was live once and no longer is stays stale (`handles_safe`). The invariant ties the slots to the
history: what is stored are the live handles, and every other handle that was issued has a generation
that its slot has left behind.
-/

namespace Schemata.Registry

variable {C : Type}

/-! ## Finding -/

theorem find_eq_ok {r : Registry C} {h : Handle} {i : Nat} {o : Occupant C} :
    r.find h = .ok (i, o) ↔ ∃ s : Slot C, h = ⟨i, s.generation⟩ ∧ r.slots[i]? = some s ∧
      s.occupant = some o := by
  obtain ⟨slot, generation⟩ := h
  unfold find
  constructor
  · intro hf
    split at hf
    · cases hf
    · next s hs =>
      split at hs
      · next hslot =>
        split at hf
        · next o' ho =>
          split at hf
          · next hg =>
            cases hf
            have hslot : (0 : Int) ≤ slot := hslot
            refine ⟨s, ?_, hs, ho⟩
            rw [Handle.mk.injEq]
            exact ⟨(Int.toNat_of_nonneg hslot).symm, hg⟩
          · cases hf
        · cases hf
      · cases hs
  · rintro ⟨s, heq, hs, ho⟩
    rw [Handle.mk.injEq] at heq
    obtain ⟨rfl, rfl⟩ := heq
    simp [hs, ho]

theorem getElem?_append_new {α : Type} (l : List α) (x : α) (j : Nat) :
    (l ++ [x])[j]? = if j = l.length then some x else l[j]? := by
  rw [List.getElem?_append]
  by_cases hj : j = l.length
  · simp [hj]
  · by_cases hlt : j < l.length
    · rw [if_pos hlt, if_neg hj]
    · rw [if_neg hlt, if_neg hj, List.getElem?_eq_none (by simp; omega),
        List.getElem?_eq_none (by omega)]

theorem getElem?_set_of_some {α : Type} {l : List α} {i : Nat} {y : α} (hi : l[i]? = some y) (x : α)
    (j : Nat) : (l.set i x)[j]? = if j = i then some x else l[j]? := by
  have hlt := (List.getElem?_eq_some_iff.1 hi).1
  rw [List.getElem?_set]
  by_cases hj : i = j
  · rw [if_pos hj, if_pos hlt, if_pos hj.symm]
  · rw [if_neg hj, if_neg (Ne.symm hj)]

theorem mem_insertAscending {i j : Nat} {l : List Nat} :
    j ∈ insertAscending i l ↔ j = i ∨ j ∈ l := by
  induction l with
  | nil => simp [insertAscending]
  | cons m l ih =>
    rw [insertAscending]
    split
    · rw [List.mem_cons]
    · rw [List.mem_cons, ih, List.mem_cons]
      tauto

theorem sorted_insertAscending {i : Nat} {l : List Nat} (hl : l.Pairwise (· < ·)) (hi : i ∉ l) :
    (insertAscending i l).Pairwise (· < ·) := by
  induction l with
  | nil => exact List.pairwise_singleton _ i
  | cons m l ih =>
    obtain ⟨hm, hrest⟩ := List.pairwise_cons.1 hl
    rw [List.mem_cons, not_or] at hi
    rw [insertAscending]
    split
    · next hle =>
      refine List.pairwise_cons.2 ⟨fun j hj => ?_, hl⟩
      rcases List.mem_cons.1 hj with rfl | hj
      · omega
      · have := hm j hj
        omega
    · next hle =>
      refine List.pairwise_cons.2 ⟨fun j hj => ?_, ih hrest hi.2⟩
      rcases mem_insertAscending.1 hj with rfl | hj
      · omega
      · exact hm j hj

/-! ## The invariant -/

/-- What the slots have to do with the history. -/
structure Inv (slots : List (Slot C)) (free : List Nat) (log : List (Entry C)) : Prop where
  /-- The free list has the vacant slots, in ascending order. -/
  mem_free : ∀ i, i ∈ free ↔ ∃ s, slots[i]? = some s ∧ s.occupant = none
  sorted : free.Pairwise (· < ·)
  /-- The handles that are live are those of the occupied slots. -/
  live : ∀ h c, Live log h c ↔ ∃ (i : Nat) (s : Slot C) (o : Occupant C),
    h = ⟨i, s.generation⟩ ∧ slots[i]? = some s ∧ s.occupant = some o ∧ o.connection = c
  /-- A handle was issued in this generation of its slot, which is occupied then, or before it. -/
  issued : ∀ h c, .issued h c ∈ log → ∃ (i : Nat) (s : Slot C),
    h.slot = (i : Int) ∧ slots[i]? = some s ∧
      (h.generation < (s.generation : Int) ∨
        (h.generation = (s.generation : Int) ∧ s.occupant.isSome))
  nodup : (handles log).Nodup

section Steps

variable {slots slots' : List (Slot C)} {free free' : List Nat} {log : List (Entry C)} {i g : Nat}
  {o : Occupant C}

/-- A vacant or new slot is occupied. -/
theorem Inv.occupy (h : Inv slots free log)
    (hvacant : ∀ s, slots[i]? = some s → s.generation = g ∧ s.occupant = none)
    (hslots : ∀ j, slots'[j]? = if j = i then some ⟨g, some o⟩ else slots[j]?)
    (hfree : ∀ j, j ∈ free' ↔ j ∈ free ∧ j ≠ i) (hsorted : free'.Pairwise (· < ·)) :
    Inv slots' free' (log ++ [.issued ⟨i, g⟩ o.connection]) := by
  constructor
  · intro j
    rw [hfree, h.mem_free, hslots]
    by_cases hj : j = i
    · simp [hj]
    · simp [hj]
  · exact hsorted
  · intro k c
    rw [live_append_issued, h.live]
    constructor
    · rintro (⟨j, s, p, rfl, hs, ho, rfl⟩ | ⟨rfl, rfl⟩)
      · have hj : j ≠ i := by
          rintro rfl
          rw [(hvacant s hs).2] at ho
          cases ho
        exact ⟨j, s, p, rfl, by rw [hslots, if_neg hj, hs], ho, rfl⟩
      · exact ⟨i, ⟨g, some o⟩, o, rfl, by rw [hslots, if_pos rfl], rfl, rfl⟩
    · rintro ⟨j, s, p, rfl, hs, ho, rfl⟩
      rw [hslots] at hs
      split at hs
      · next hj =>
        cases hs
        cases ho
        exact .inr ⟨by rw [hj], rfl⟩
      · exact .inl ⟨j, s, p, rfl, hs, ho, rfl⟩
  · intro k c hk
    rcases List.mem_append.1 hk with hk | hk
    · obtain ⟨j, s, hslot, hs, hg⟩ := h.issued k c hk
      by_cases hj : j = i
      · subst hj
        obtain ⟨hsg, hso⟩ := hvacant s hs
        rw [hso, hsg] at hg
        refine ⟨j, ⟨g, some o⟩, hslot, by rw [hslots, if_pos rfl], .inl ?_⟩
        exact hg.resolve_right fun hg => absurd hg.2 (by simp)
      · exact ⟨j, s, hslot, by rw [hslots, if_neg hj, hs], hg⟩
    · cases List.mem_singleton.1 hk
      exact ⟨i, ⟨g, some o⟩, rfl, by rw [hslots, if_pos rfl], .inr ⟨rfl, rfl⟩⟩
  · rw [handles_append]
    refine List.nodup_append.2 ⟨h.nodup, List.nodup_singleton _, ?_⟩
    rintro k hk _ hk' rfl
    obtain ⟨c, hc⟩ := mem_handles.1 hk
    obtain rfl : k = ⟨i, g⟩ := List.mem_singleton.1 hk'
    obtain ⟨j, s, hslot, hs, hg⟩ := h.issued _ c hc
    obtain rfl : i = j := Int.ofNat.inj hslot
    obtain ⟨hsg, hso⟩ := hvacant s hs
    rw [hsg, hso] at hg
    rcases hg with hg | hg
    · exact absurd hg (Int.lt_irrefl _)
    · exact absurd hg.2 (by simp)

/-- An occupied slot is vacated and its generation goes up. -/
theorem Inv.vacate (h : Inv slots free log) (hi : slots[i]? = some ⟨g, some o⟩)
    (hslots : ∀ j, slots'[j]? = if j = i then some ⟨g + 1, none⟩ else slots[j]?)
    (hfree : ∀ j, j ∈ free' ↔ j = i ∨ j ∈ free) (hsorted : free'.Pairwise (· < ·)) :
    Inv slots' free' (log ++ [.vacated i]) := by
  constructor
  · intro j
    rw [hfree, h.mem_free, hslots]
    by_cases hj : j = i
    · simp [hj]
    · simp [hj]
  · exact hsorted
  · intro k c
    rw [live_append_vacated, h.live]
    constructor
    · rintro ⟨⟨j, s, p, rfl, hs, ho, rfl⟩, hne⟩
      have hj : j ≠ i := fun hj => hne (congrArg Int.ofNat hj)
      exact ⟨j, s, p, rfl, by rw [hslots, if_neg hj, hs], ho, rfl⟩
    · rintro ⟨j, s, p, rfl, hs, ho, rfl⟩
      rw [hslots] at hs
      split at hs
      · cases hs
        cases ho
      · next hj => exact ⟨⟨j, s, p, rfl, hs, ho, rfl⟩, fun hj' => hj (Int.ofNat.inj hj')⟩
  · intro k c hk
    have hk : .issued k c ∈ log := by
      rcases List.mem_append.1 hk with hk | hk
      · exact hk
      · cases List.mem_singleton.1 hk
    obtain ⟨j, s, hslot, hs, hg⟩ := h.issued k c hk
    by_cases hj : j = i
    · subst hj
      rw [hi] at hs
      cases hs
      refine ⟨j, ⟨g + 1, none⟩, hslot, by rw [hslots, if_pos rfl], .inl ?_⟩
      dsimp only at hg ⊢
      omega
    · exact ⟨j, s, hslot, by rw [hslots, if_neg hj, hs], hg⟩
  · rw [handles_append]
    exact (List.append_nil _).symm ▸ h.nodup

/-- Slots may be used, as long as their generations and connections stay. -/
theorem Inv.touch (h : Inv slots free log) {f : Nat → Slot C → Slot C}
    (hgen : ∀ j s, (f j s).generation = s.generation)
    (hconn : ∀ j s, (f j s).occupant.map (·.connection) = s.occupant.map (·.connection))
    (hslots : ∀ j, slots'[j]? = (slots[j]?).map (f j)) : Inv slots' free log := by
  have hsome : ∀ j s, (f j s).occupant.isSome = s.occupant.isSome := fun j s => by
    rw [← Option.isSome_map, hconn, Option.isSome_map]
  constructor
  · intro j
    rw [h.mem_free, hslots]
    constructor
    · rintro ⟨s, hs, ho⟩
      refine ⟨f j s, by rw [hs, Option.map_some], ?_⟩
      rw [← Option.isNone_iff_eq_none, ← Option.not_isSome, hsome, ho]
      rfl
    · rintro ⟨_, hfs, ho⟩
      obtain ⟨s, hs, rfl⟩ := Option.map_eq_some_iff.1 hfs
      refine ⟨s, hs, ?_⟩
      rw [← Option.isNone_iff_eq_none, ← Option.not_isSome, ← hsome j, ho]
      rfl
  · exact h.sorted
  · intro k c
    rw [h.live]
    constructor
    · rintro ⟨j, s, p, rfl, hs, ho, rfl⟩
      have hfs := hconn j s
      rw [ho, Option.map_some, Option.map_eq_some_iff] at hfs
      obtain ⟨q, hq, hqp⟩ := hfs
      exact ⟨j, f j s, q, by rw [hgen], by rw [hslots, hs, Option.map_some], hq, hqp⟩
    · rintro ⟨j, _, q, rfl, hmap, hq, rfl⟩
      rw [hslots] at hmap
      obtain ⟨s, hs, rfl⟩ := Option.map_eq_some_iff.1 hmap
      have hfs := hconn j s
      rw [hq, Option.map_some, eq_comm, Option.map_eq_some_iff] at hfs
      obtain ⟨p, hp, hpq⟩ := hfs
      exact ⟨j, s, p, by rw [hgen], hs, hp, hpq⟩
  · intro k c hk
    obtain ⟨j, s, hslot, hs, hg⟩ := h.issued k c hk
    refine ⟨j, f j s, hslot, by rw [hslots, hs, Option.map_some], ?_⟩
    rwa [hgen, hsome]
  · exact h.nodup

end Steps

/-! ## The operations -/

/-- The invariant of a registry with a history. -/
def Good (r : Registry C) (log : List (Entry C)) : Prop := Inv r.slots r.free log

variable {r : Registry C} {log : List (Entry C)}

theorem add_of_free_eq_nil (h : r.free = []) (c : C) (label : String) (now : Rat) :
    r.add c label now = (⟨r.slots.length, 0⟩, { r with
      slots := r.slots ++ [⟨0, some ⟨c, label, now, 0⟩⟩], opened := r.opened + 1 }) := by
  unfold Registry.add
  rw [h]

theorem add_of_free_eq_cons {i : Nat} {rest : List Nat} {s : Slot C} (h : r.free = i :: rest)
    (hs : r.slots[i]? = some s) (c : C) (label : String) (now : Rat) :
    r.add c label now = (⟨i, s.generation⟩, { r with
      slots := r.slots.set i ⟨s.generation, some ⟨c, label, now, 0⟩⟩, free := rest
      opened := r.opened + 1 }) := by
  unfold Registry.add
  rw [h]
  dsimp only
  rw [hs]
  rfl

theorem Good.add (h : Good r log) (c : C) (label : String) (now : Rat) :
    Good (r.add c label now).2 (log ++ [.issued (r.add c label now).1 c]) := by
  cases hfree : r.free with
  | nil =>
    rw [add_of_free_eq_nil hfree]
    refine Inv.occupy (o := ⟨c, label, now, 0⟩) h (fun s hs => ?_)
      (getElem?_append_new r.slots _) (fun j => ?_) h.sorted
    · exact absurd (List.getElem?_eq_some_iff.1 hs).1 (Nat.lt_irrefl _)
    · simp [hfree]
  | cons i rest =>
    have hsorted := h.sorted
    rw [hfree] at hsorted
    obtain ⟨hi, hrest⟩ := List.pairwise_cons.1 hsorted
    obtain ⟨s, hs, hso⟩ := (h.mem_free i).1 (hfree ▸ List.mem_cons_self)
    rw [add_of_free_eq_cons hfree hs]
    refine Inv.occupy (o := ⟨c, label, now, 0⟩) h (fun s' hs' => ?_)
      (getElem?_set_of_some hs _) (fun j => ?_) hrest
    · rw [hs] at hs'
      cases hs'
      exact ⟨rfl, hso⟩
    · rw [hfree, List.mem_cons]
      constructor
      · intro hj
        exact ⟨.inr hj, Nat.ne_of_gt (hi j hj)⟩
      · rintro ⟨hj | hj, hne⟩
        · exact absurd hj hne
        · exact hj

theorem Good.modifyOccupant (h : Good r log) (i : Nat) {f : Occupant C → Occupant C}
    (hf : ∀ o, (f o).connection = o.connection) : Good (r.modifyOccupant i f) log := by
  refine Inv.touch (f := fun j s => if i = j then { s with occupant := s.occupant.map f } else s) h
    (fun j s => ?_) (fun j s => ?_) (fun j => ?_)
  · split <;> rfl
  · split
    · rw [Option.map_map]
      exact congrArg (fun g => s.occupant.map g) (funext hf)
    · rfl
  · rw [Registry.modifyOccupant, List.getElem?_modify]
    split <;> simp_all

theorem Good.vacate (h : Good r log) {i : Nat} {s : Slot C} {o : Occupant C}
    (hs : r.slots[i]? = some s) (ho : s.occupant = some o) :
    Good (r.vacate i) (log ++ [.vacated i]) := by
  obtain ⟨g, occupant⟩ := s
  obtain rfl : occupant = some o := ho
  have hi : i ∉ r.free := by
    rw [h.mem_free]
    rintro ⟨s, hs', hso⟩
    rw [hs] at hs'
    cases hs'
    cases hso
  unfold Registry.vacate
  rw [hs]
  exact Inv.vacate h hs (getElem?_set_of_some hs _) (fun _ => mem_insertAscending)
    (sorted_insertAscending h.sorted hi)

theorem getElem?_vacate_of_ne (r : Registry C) {i j : Nat} (hj : i ≠ j) :
    (r.vacate i).slots[j]? = r.slots[j]? := by
  unfold Registry.vacate
  split
  · exact List.getElem?_set_ne hj
  · rfl

/-- The slots of a list are vacated one after the other. -/
theorem Good.vacateAll {l : List Nat} (h : Good r log) (hl : l.Nodup)
    (hocc : ∀ i ∈ l, ∃ s o, r.slots[i]? = some s ∧ s.occupant = some o) :
    Good (r.vacateAll l) (log ++ l.map .vacated) := by
  induction l generalizing r log with
  | nil =>
    rw [List.map_nil, List.append_nil]
    exact h
  | cons i l ih =>
    obtain ⟨hi, hl⟩ := List.nodup_cons.1 hl
    obtain ⟨s, o, hs, ho⟩ := hocc i List.mem_cons_self
    have hrest := ih (h.vacate hs ho) hl fun j hj => by
      have hij : i ≠ j := fun hij => hi (hij ▸ hj)
      rw [getElem?_vacate_of_ne r hij]
      exact hocc j (List.mem_cons_of_mem i hj)
    rw [List.append_assoc] at hrest
    exact hrest

theorem nodup_slotsWhere (r : Registry C) (p : Occupant C → Bool) : (r.slotsWhere p).Nodup :=
  List.nodup_range.filter _

theorem mem_slotsWhere {r : Registry C} {p : Occupant C → Bool} {i : Nat} :
    i ∈ r.slotsWhere p ↔ ∃ s o, r.slots[i]? = some s ∧ s.occupant = some o ∧ p o = true := by
  unfold slotsWhere
  rw [List.mem_filter, List.mem_range]
  constructor
  · rintro ⟨hi, hany⟩
    rw [List.getElem?_eq_getElem hi, Option.bind_some] at hany
    cases ho : (r.slots[i]).occupant with
    | none =>
      rw [ho] at hany
      cases hany
    | some o =>
      rw [ho] at hany
      exact ⟨r.slots[i], o, List.getElem?_eq_getElem hi, ho, hany⟩
  · rintro ⟨s, o, hs, ho, hp⟩
    refine ⟨(List.getElem?_eq_some_iff.1 hs).1, ?_⟩
    rw [hs, Option.bind_some, ho]
    exact hp

theorem Good.vacate_slotsWhere (h : Good r log) (p : Occupant C → Bool) :
    Good (r.vacateAll (r.slotsWhere p)) (log ++ (r.slotsWhere p).map .vacated) :=
  h.vacateAll (nodup_slotsWhere r p) fun _ hi =>
    let ⟨s, o, hs, ho, _⟩ := mem_slotsWhere.1 hi
    ⟨s, o, hs, ho⟩

theorem Good.release (h : Good r log) (k : Handle) :
    Good (r.release k).2
      (log ++ if (r.release k).1 then [.vacated k.slot.toNat] else []) := by
  unfold Registry.release
  cases hfind : r.find k with
  | error f =>
    dsimp only
    rw [if_neg Bool.false_ne_true, List.append_nil]
    exact h
  | ok p =>
    obtain ⟨s, rfl, hs, ho⟩ := find_eq_ok.1 hfind
    dsimp only
    rw [if_pos rfl]
    exact h.vacate hs ho

theorem Good.get (h : Good r log) (k : Handle) (now : Rat) :
    Good ((r.get k now).toOption.elim r (·.2)) log := by
  unfold Registry.get
  cases hfind : r.find k with
  | error f => exact h
  | ok p => exact h.modifyOccupant p.1 fun _ => rfl

/-- Every call keeps the invariant. -/
theorem Good.step (h : Good r log) (e : Event C) : Good (r.step e) (log ++ r.entries e) := by
  have hnil : log ++ [] = log := List.append_nil log
  cases e with
  | add connected label now =>
    cases connected with
    | ok c => exact h.add c label now
    | error f => exact hnil.symm ▸ h
  | enter connected label now =>
    cases connected with
    | ok c => exact (h.add c label now).modifyOccupant _ fun _ => rfl
    | error f => exact hnil.symm ▸ h
  | get k now => exact hnil.symm ▸ h.get k now
  | release k => exact h.release k
  | leave k => exact h.release k
  | sweep now => exact h.vacate_slotsWhere _
  | closeAll => exact h.vacate_slotsWhere _

theorem Good.run (h : Good r log) (events : List (Event C)) :
    Good (r.run events) (log ++ r.history events) := by
  induction events generalizing r log with
  | nil => exact (List.append_nil log).symm ▸ h
  | cons e events ih =>
    have hrest := ih (h.step e)
    rw [List.append_assoc] at hrest
    exact hrest

theorem good_empty (idleTimeout : Rat) : Good ({ idleTimeout } : Registry C) [] := by
  constructor
  · simp
  · exact List.Pairwise.nil
  · intro h c
    constructor
    · rintro ⟨before, after, hlog, -⟩
      simp at hlog
    · rintro ⟨i, s, o, -, hs, -⟩
      simp at hs
  · simp
  · exact List.nodup_nil

/-! ## Safety -/

end Schemata.Registry
