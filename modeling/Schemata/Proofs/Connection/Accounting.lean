import Mathlib.Order.Bounds.Basic
import Mathlib.Order.WellFounded
import Schemata.Proofs.Connection.Handle

/-!
# Accounts of a registry

No slot and no connection is lost. The free list holds the vacant slots, each once; a connection goes
to the lowest of them, and there are only as many slots as connections were ever open together
(`isGreatest_length_slots`). What was connected is stored or closed, each connection in one of the two
places and once (`Balanced.conserved`), and the three counters add up (`Balanced.counted`). How the
closing of a connection ends is not looked at, so `closed` lists the connections that were asked to
close, those that failed to do so among them.

A call stores one connection, or it vacates slots and closes what was stored there: `Stores` and
`Vacates` say what either of the two moves does to the accounts, and every call is one of them or
leaves the accounts alone.
-/

namespace Schemata.Registry

open scoped List

variable {C : Type}

/-! ## What is counted -/

/-- The connection that a call made, if connecting succeeded. -/
def Event.connected? : Event C → Option C
  | .add (.ok c) _ _ | .enter (.ok c) _ _ => some c
  | _ => none

/-- The connections that were made in a run, in order. -/
def returned (events : List (Event C)) : List C := events.filterMap Event.connected?

/-- The connections in the slots, in the order of the slots. -/
def stored (r : Registry C) : List C := r.occupants.map (·.connection)

/-- A slot that holds no connection. -/
def IsVacant (r : Registry C) (i : Nat) : Prop := ∃ s, r.slots[i]? = some s ∧ s.occupant = none

/-- The connection in a slot. -/
def connectionIn (s : Slot C) : Option C := s.occupant.map (·.connection)

theorem stored_eq (r : Registry C) : r.stored = r.slots.filterMap connectionIn :=
  List.map_filterMap

theorem active_eq (r : Registry C) : r.active = r.stored.length := (List.length_map _).symm

theorem active_le (r : Registry C) : r.active ≤ r.slots.length := List.length_filterMap_le _ _

/-! ## Slots that change -/

theorem filterMap_cons_toList {α β : Type} (f : α → Option β) (a : α) (l : List α) :
    (a :: l).filterMap f = (f a).toList ++ l.filterMap f := by
  rw [List.filterMap_cons]
  cases f a <;> rfl

/-- What an item is mapped to moves out of a list when the item is replaced. -/
theorem perm_filterMap_set {α β : Type} (f : α → Option β) {l : List α} {i : Nat} {a : α}
    (ha : l[i]? = some a) (b : α) :
    ((f a).toList ++ (l.set i b).filterMap f).Perm ((f b).toList ++ l.filterMap f) := by
  induction l generalizing i with
  | nil => simp at ha
  | cons x l ih =>
    cases i with
    | zero =>
      obtain rfl : x = a := by simpa using ha
      rw [List.set_cons_zero, filterMap_cons_toList, filterMap_cons_toList]
      exact List.perm_append_comm_assoc _ _ _
    | succ i =>
      rw [List.set_cons_succ, filterMap_cons_toList, filterMap_cons_toList]
      calc (f a).toList ++ ((f x).toList ++ (l.set i b).filterMap f)
          ~ (f x).toList ++ ((f a).toList ++ (l.set i b).filterMap f) :=
          List.perm_append_comm_assoc _ _ _
        _ ~ (f x).toList ++ ((f b).toList ++ l.filterMap f) := (ih (by simpa using ha)).append_left _
        _ ~ (f b).toList ++ ((f x).toList ++ l.filterMap f) := List.perm_append_comm_assoc _ _ _

theorem filterMap_modify {α β : Type} {f : α → Option β} {g : α → α} (h : ∀ a, f (g a) = f a)
    (l : List α) (i : Nat) : (l.modify i g).filterMap f = l.filterMap f := by
  induction l generalizing i with
  | nil => cases i <;> rfl
  | cons a l ih =>
    cases i with
    | zero => rw [List.modify_zero_cons, filterMap_cons_toList, filterMap_cons_toList, h]
    | succ i => rw [List.modify_succ_cons, filterMap_cons_toList, filterMap_cons_toList, ih]

/-! ## Storing -/

/-- One connection was stored in a slot: the lowest vacant one, or a new one if none was vacant. -/
structure Stores (r : Registry C) (c : C) (h : Handle) (r' : Registry C) : Prop where
  stored : r'.stored.Perm (c :: r.stored)
  closed : r'.closed = r.closed
  opened : r'.opened = r.opened + 1
  released : r'.released = r.released
  swept : r'.swept = r.swept
  lowest : ∀ i, IsLeast {i | r.IsVacant i} i → h.slot = i ∧ r'.slots.length = r.slots.length
  new : (∀ i, ¬r.IsVacant i) → h.slot = r.slots.length ∧ r'.slots.length = r.slots.length + 1
  /-- The connection is found in the slot of its handle. -/
  held : (r'.slots[h.slot.toNat]?).bind connectionIn = some c

theorem Good.stores_add {r : Registry C} {log : List (Entry C)} (h : Good r log) (c : C)
    (label : String) (now : Rat) :
    Stores r c (r.add c label now).1 (r.add c label now).2 := by
  cases hfree : r.free with
  | nil =>
    have hnone : ∀ i, ¬r.IsVacant i := by
      intro i hi
      have hmem := (h.mem_free i).2 hi
      rw [hfree] at hmem
      exact absurd hmem List.not_mem_nil
    rw [add_of_free_eq_nil hfree]
    constructor
    · rw [stored_eq, stored_eq, List.filterMap_append]
      exact List.perm_append_comm
    · rfl
    · rfl
    · rfl
    · rfl
    · intro i hi
      exact absurd hi.1 (hnone i)
    · intro _
      exact ⟨rfl, by simp⟩
    · simp [connectionIn]
  | cons i rest =>
    have hsorted := h.sorted
    rw [hfree] at hsorted
    obtain ⟨hi, -⟩ := List.pairwise_cons.1 hsorted
    obtain ⟨s, hs, hso⟩ := (h.mem_free i).1 (hfree ▸ List.mem_cons_self)
    have hleast : IsLeast {i | r.IsVacant i} i := by
      refine ⟨⟨s, hs, hso⟩, ?_⟩
      intro j hj
      have hmem := (h.mem_free j).2 hj
      rw [hfree] at hmem
      rcases List.mem_cons.1 hmem with rfl | hmem
      · exact Nat.le_refl j
      · exact Nat.le_of_lt (hi j hmem)
    rw [add_of_free_eq_cons hfree hs]
    constructor
    · have hperm := perm_filterMap_set connectionIn hs ⟨s.generation, some ⟨c, label, now, 0⟩⟩
      rw [connectionIn, hso] at hperm
      rw [stored_eq, stored_eq]
      exact hperm
    · rfl
    · rfl
    · rfl
    · rfl
    · intro j hj
      exact ⟨congrArg Int.ofNat (hleast.unique hj), List.length_set⟩
    · intro hnone
      exact absurd hleast.1 (hnone i)
    · have hlt := (List.getElem?_eq_some_iff.1 hs).1
      simp [hlt, connectionIn]

theorem connectionIn_map (s : Slot C) {f : Occupant C → Occupant C}
    (hf : ∀ o, (f o).connection = o.connection) :
    connectionIn { s with occupant := s.occupant.map f } = connectionIn s := by
  rw [connectionIn, connectionIn, Option.map_map]
  exact congrArg (fun g => s.occupant.map g) (funext hf)

theorem stored_modifyOccupant (r : Registry C) (i : Nat) {f : Occupant C → Occupant C}
    (hf : ∀ o, (f o).connection = o.connection) : (r.modifyOccupant i f).stored = r.stored := by
  rw [stored_eq, stored_eq]
  exact filterMap_modify (fun s => connectionIn_map s hf) r.slots i

/-- A session stores its connection as any other call does. -/
theorem Good.stores_enter {r : Registry C} {log : List (Entry C)} (h : Good r log) (c : C)
    (label : String) (now : Rat) :
    Stores r c (r.enter c label now).1 (r.enter c label now).2 := by
  have hadd := h.stores_add c label now
  have hlength : (r.enter c label now).2.slots.length = (r.add c label now).2.slots.length :=
    List.length_modify _ _ _
  constructor
  · rw [show (r.enter c label now).2.stored = (r.add c label now).2.stored from
      stored_modifyOccupant _ _ fun _ => rfl]
    exact hadd.stored
  · exact hadd.closed
  · exact hadd.opened
  · exact hadd.released
  · exact hadd.swept
  · rw [hlength]
    exact hadd.lowest
  · rw [hlength]
    exact hadd.new
  · rw [← hadd.held]
    show (((r.add c label now).2.slots.modify (r.add c label now).1.slot.toNat
      _)[(r.add c label now).1.slot.toNat]?).bind _ = _
    rw [List.getElem?_modify_eq]
    cases (r.add c label now).2.slots[(r.add c label now).1.slot.toNat]? with
    | none => rfl
    | some s => exact connectionIn_map s fun _ => rfl

/-! ## Vacating -/

/-- Some slots were vacated, and what was stored there was closed. -/
structure Vacates (r : Registry C) (n : Nat) (r' : Registry C) : Prop where
  conserved : (r'.stored ++ r'.closed).Perm (r.stored ++ r.closed)
  active : r'.active + n = r.active
  opened : r'.opened = r.opened
  released : r'.released = r.released
  swept : r'.swept = r.swept
  length : r'.slots.length = r.slots.length

theorem vacates_vacate {r : Registry C} {i : Nat} {s : Slot C} {o : Occupant C}
    (hs : r.slots[i]? = some s) (ho : s.occupant = some o) : Vacates r 1 (r.vacate i) := by
  obtain ⟨g, occupant⟩ := s
  obtain rfl : occupant = some o := ho
  have hvacate : r.vacate i = { r with
      slots := r.slots.set i ⟨g + 1, none⟩, free := insertAscending i r.free
      closed := r.closed ++ [o.connection] } := by
    rw [Registry.vacate, hs]
  have hstored : (o.connection :: (r.vacate i).stored).Perm r.stored := by
    rw [hvacate, stored_eq, stored_eq]
    exact perm_filterMap_set connectionIn hs ⟨g + 1, none⟩
  constructor
  · rw [show (r.vacate i).closed = r.closed ++ [o.connection] by rw [hvacate], ← List.append_assoc]
    exact (List.perm_append_singleton _ _).trans (hstored.append_right r.closed)
  · rw [active_eq, active_eq]
    exact hstored.length_eq
  · rw [hvacate]
  · rw [hvacate]
  · rw [hvacate]
  · rw [hvacate]
    exact List.length_set

theorem vacates_vacateAll {r : Registry C} {l : List Nat} (hl : l.Nodup)
    (hocc : ∀ i ∈ l, ∃ s o, r.slots[i]? = some s ∧ s.occupant = some o) :
    Vacates r l.length (r.vacateAll l) := by
  induction l generalizing r with
  | nil => exact ⟨List.Perm.refl _, rfl, rfl, rfl, rfl, rfl⟩
  | cons i l ih =>
    obtain ⟨hi, hl⟩ := List.nodup_cons.1 hl
    obtain ⟨s, o, hs, ho⟩ := hocc i List.mem_cons_self
    have hfirst := vacates_vacate hs ho
    have hrest := ih (r := r.vacate i) hl fun j hj => by
      have hij : i ≠ j := fun hij => hi (hij ▸ hj)
      rw [getElem?_vacate_of_ne r hij]
      exact hocc j (List.mem_cons_of_mem i hj)
    have hactive := hrest.active
    have hactive' := hfirst.active
    constructor
    · exact hrest.conserved.trans hfirst.conserved
    · rw [List.length_cons]
      show ((r.vacate i).vacateAll l).active + (l.length + 1) = r.active
      omega
    · exact hrest.opened.trans hfirst.opened
    · exact hrest.released.trans hfirst.released
    · exact hrest.swept.trans hfirst.swept
    · exact hrest.length.trans hfirst.length

theorem vacates_slotsWhere (r : Registry C) (p : Occupant C → Bool) :
    Vacates r (r.slotsWhere p).length (r.vacateAll (r.slotsWhere p)) :=
  vacates_vacateAll (nodup_slotsWhere r p) fun _ hi =>
    let ⟨s, o, hs, ho, _⟩ := mem_slotsWhere.1 hi
    ⟨s, o, hs, ho⟩

/-! ## The accounts -/

/-- The connections that were made are accounted for, and the counters add up. -/
structure Balanced (r : Registry C) (made : List C) : Prop where
  conserved : (r.stored ++ r.closed).Perm made
  counted : r.opened = r.active + r.released + r.swept

variable {r r' : Registry C} {made : List C}

theorem Balanced.stores (h : Balanced r made) {c : C} {k : Handle} (hs : Stores r c k r') :
    Balanced r' (made ++ [c]) := by
  have hcounted := h.counted
  have hactive : r'.active = r.active + 1 := by
    rw [active_eq, active_eq]
    exact hs.stored.length_eq
  constructor
  · rw [hs.closed]
    calc r'.stored ++ r.closed
        ~ c :: (r.stored ++ r.closed) := hs.stored.append_right r.closed
      _ ~ c :: made := h.conserved.cons c
      _ ~ made ++ [c] := (List.perm_append_singleton c made).symm
  · rw [hs.opened, hs.released, hs.swept, hactive]
    omega

/-- Slots that are vacated are counted as released or as swept. -/
theorem Balanced.vacates (h : Balanced r made) {n released swept : Nat} (hv : Vacates r n r')
    (hn : released + swept = r.released + r.swept + n) :
    Balanced { r' with released, swept } made := by
  have hcounted := h.counted
  have hactive := hv.active
  have hopened := hv.opened
  constructor
  · exact hv.conserved.trans h.conserved
  · show r'.opened = r'.active + released + swept
    omega

theorem Balanced.touch (h : Balanced r made) (i : Nat) {f : Occupant C → Occupant C}
    (hf : ∀ o, (f o).connection = o.connection) : Balanced (r.modifyOccupant i f) made := by
  have hstored := stored_modifyOccupant r i hf
  have hactive : (r.modifyOccupant i f).active = r.active := by rw [active_eq, active_eq, hstored]
  constructor
  · rw [hstored]
    exact h.conserved
  · rw [hactive]
    exact h.counted

theorem Balanced.get (h : Balanced r made) (k : Handle) (now : Rat) :
    Balanced ((r.get k now).toOption.elim r (·.2)) made := by
  unfold Registry.get
  cases hfind : r.find k with
  | error f => exact h
  | ok p => exact h.touch p.1 fun _ => rfl

theorem Balanced.release (h : Balanced r made) (k : Handle) : Balanced (r.release k).2 made := by
  unfold Registry.release
  cases hfind : r.find k with
  | error f => exact h
  | ok p =>
    obtain ⟨s, rfl, hs, ho⟩ := find_eq_ok.1 hfind
    have hv := vacates_vacate hs ho
    have hswept := hv.swept
    exact h.vacates hv (by omega)

/-- Every call keeps the accounts. -/
theorem Balanced.step {log : List (Entry C)} (hgood : Good r log) (h : Balanced r made)
    (e : Event C) : Balanced (r.step e) (made ++ e.connected?.toList) := by
  have hnil : made ++ [] = made := List.append_nil made
  cases e with
  | add connected label now =>
    cases connected with
    | ok c => exact h.stores (hgood.stores_add c label now)
    | error f => exact hnil.symm ▸ h
  | enter connected label now =>
    cases connected with
    | ok c => exact h.stores (hgood.stores_enter c label now)
    | error f => exact hnil.symm ▸ h
  | get k now => exact hnil.symm ▸ h.get k now
  | release k => exact hnil.symm ▸ h.release k
  | leave k => exact hnil.symm ▸ h.release k
  | sweep now =>
    have hv := vacates_slotsWhere r (r.isIdle now)
    have hreleased := hv.released
    exact hnil.symm ▸ h.vacates hv (by omega)
  | closeAll =>
    have hv := vacates_slotsWhere r fun _ => true
    have hswept := hv.swept
    exact hnil.symm ▸ h.vacates hv (by omega)

theorem Balanced.run {log : List (Entry C)} (hgood : Good r log) (h : Balanced r made)
    (events : List (Event C)) : Balanced (r.run events) (made ++ returned events) := by
  induction events generalizing r log made with
  | nil => exact (List.append_nil made).symm ▸ h
  | cons e events ih =>
    have hrest := ih (hgood.step e) (Balanced.step hgood h e)
    rw [List.append_assoc, returned, ← filterMap_cons_toList] at hrest
    exact hrest

theorem balanced_empty (idleTimeout : Rat) : Balanced ({ idleTimeout } : Registry C) [] :=
  ⟨List.Perm.refl _, rfl⟩

/-! ## The number of slots -/

/-- If no slot is vacant, as many connections are open as there are slots. -/
theorem active_eq_length (h : ∀ i, ¬r.IsVacant i) : r.active = r.slots.length := by
  refine List.filterMap_length_eq_length.2 fun s hs => ?_
  obtain ⟨i, hi⟩ := List.getElem?_of_mem hs
  cases ho : s.occupant with
  | none => exact absurd ⟨s, hi, ho⟩ (h i)
  | some o => rfl

/-- Storing a connection adds a slot only if all slots are in use, and it is in use then. -/
theorem Stores.length {c : C} {k : Handle} (h : Stores r c k r') :
    r'.slots.length = r.slots.length ∨
      (r'.slots.length = r.slots.length + 1 ∧ r'.active = r'.slots.length) := by
  by_cases hvacant : ∃ i, r.IsVacant i
  · obtain ⟨i, hi, hmin⟩ := Nat.lt_wfRel.wf.has_min {i | r.IsVacant i} hvacant
    exact .inl (h.lowest i ⟨hi, fun j hj => Nat.le_of_not_lt (hmin j hj)⟩).2
  · rw [not_exists] at hvacant
    have hlength := (h.new hvacant).2
    have hfull := active_eq_length hvacant
    have hactive : r'.active = r.active + 1 := by
      rw [active_eq, active_eq]
      exact h.stored.length_eq
    exact .inr ⟨hlength, by omega⟩

theorem Good.length_step {log : List (Entry C)} (hgood : Good r log) (e : Event C) :
    (r.step e).slots.length = r.slots.length ∨
      ((r.step e).slots.length = r.slots.length + 1 ∧
        (r.step e).active = (r.step e).slots.length) := by
  have hrelease : ∀ k, (r.release k).2.slots.length = r.slots.length := by
    intro k
    unfold Registry.release
    cases hfind : r.find k with
    | error f => rfl
    | ok p =>
      obtain ⟨s, rfl, hs, ho⟩ := find_eq_ok.1 hfind
      exact (vacates_vacate hs ho).length
  cases e with
  | add connected label now =>
    cases connected with
    | ok c => exact (hgood.stores_add c label now).length
    | error f => exact .inl rfl
  | enter connected label now =>
    cases connected with
    | ok c => exact (hgood.stores_enter c label now).length
    | error f => exact .inl rfl
  | get k now =>
    left
    show ((r.get k now).toOption.elim r (·.2)).slots.length = r.slots.length
    unfold Registry.get
    cases r.find k with
    | error f => rfl
    | ok p => exact List.length_modify _ _ _
  | release k => exact .inl (hrelease k)
  | leave k => exact .inl (hrelease k)
  | sweep now => exact .inl (vacates_slotsWhere r (r.isIdle now)).length
  | closeAll => exact .inl (vacates_slotsWhere r fun _ => true).length

/-- There are as many slots as connections were open together at some point of the run, and never
were there more. -/
theorem isGreatest_length_slots (idleTimeout : Rat) (events : List (Event C)) :
    let start : Registry C := { idleTimeout }
    IsGreatest {n | ∃ before, before <+: events ∧ n = (start.run before).active}
      (start.run events).slots.length := by
  intro start
  induction events using List.reverseRecOn with
  | nil =>
    refine ⟨⟨[], List.prefix_rfl, rfl⟩, ?_⟩
    rintro n ⟨before, hbefore, rfl⟩
    obtain rfl := List.prefix_nil.1 hbefore
    exact Nat.le_refl 0
  | append_singleton events e ih =>
    obtain ⟨⟨peak, hpeak, hactive⟩, hbound⟩ := ih
    have hrun : start.run (events ++ [e]) = (start.run events).step e := by
      rw [run, run, List.foldl_append]
      rfl
    have hgood : Good (start.run events) (start.history events) := (good_empty idleTimeout).run events
    have hlength := hgood.length_step e
    constructor
    · rcases hlength with hlength | ⟨-, hfull⟩
      · refine ⟨peak, hpeak.trans (List.prefix_append _ _), ?_⟩
        rw [hrun, hlength]
        exact hactive
      · refine ⟨events ++ [e], List.prefix_rfl, ?_⟩
        rw [hrun]
        exact hfull.symm
    · rintro n ⟨before, hbefore, rfl⟩
      rcases List.prefix_concat_iff.1 hbefore with rfl | hbefore
      · exact active_le _
      · have hle := hbound ⟨before, hbefore, rfl⟩
        rw [hrun]
        omega

/-! ## Every run -/

/-- Nothing is lost in any run: the free list has each vacant slot once and no other; a connection
goes to the lowest vacant slot, and to a new one only if there is none; there are as many slots as
connections were ever open together; what was connected is stored or closed, a connection that was
made once in exactly one of the two places and once; and the counters add up. -/
theorem slots_accounted [DecidableEq C] (idleTimeout : Rat) (events : List (Event C)) :
    let start : Registry C := { idleTimeout }
    let r := start.run events
    (r.free.Nodup ∧ ∀ i, i ∈ r.free ↔ r.IsVacant i) ∧
      (∀ c label now, Stores r c (r.add c label now).1 (r.add c label now).2 ∧
        Stores r c (r.enter c label now).1 (r.enter c label now).2) ∧
      IsGreatest {n | ∃ before, before <+: events ∧ n = (start.run before).active} r.slots.length ∧
      (returned events).Perm (r.stored ++ r.closed) ∧
      (∀ c, (returned events).count c = 1 →
        (r.stored.count c = 1 ∧ r.closed.count c = 0) ∨
          (r.stored.count c = 0 ∧ r.closed.count c = 1)) ∧
      r.opened = r.active + r.released + r.swept := by
  intro start r
  have hgood : Good r (start.history events) := (good_empty idleTimeout).run events
  have hbalanced : Balanced r (returned events) :=
    (balanced_empty idleTimeout).run (good_empty idleTimeout) events
  refine ⟨⟨hgood.sorted.imp Nat.ne_of_lt, hgood.mem_free⟩, fun c label now => ?_,
    isGreatest_length_slots idleTimeout events, hbalanced.conserved.symm, fun c hc => ?_,
    hbalanced.counted⟩
  · exact ⟨hgood.stores_add c label now, hgood.stores_enter c label now⟩
  · have hcount := hbalanced.conserved.count_eq c
    rw [List.count_append, hc] at hcount
    omega

end Schemata.Registry
