import Schemata.Proofs.Connection.Handle

/-!
# Sessions

A session stores its connection in a slot that was vacant or new and vacates that slot at the end. So
what the other slots hold stays as it was, no slot holds anything more, and of all connections just
the one of the session was closed (`Good.leave_enter`).
-/

namespace Schemata.Registry

variable {C : Type} {r : Registry C} {log : List (Entry C)}

/-- What a slot holds and the generation under which it holds it, if it is occupied. -/
def holding (r : Registry C) (i : Nat) : Option (Nat × Occupant C) :=
  r.slots[i]?.bind fun s => s.occupant.map fun o => (s.generation, o)

/-- The slot of a new session: it was not occupied before, and nothing else has changed. -/
structure Enters (r : Registry C) (c : C) (h : Handle) (r' : Registry C) : Prop where
  vacant : r.holding h.slot.toNat = none
  others : ∀ i : Nat, i ≠ h.slot.toNat → r'.slots[i]? = r.slots[i]?
  closed : r'.closed = r.closed
  held : ∃ o, r'.find h = .ok (h.slot.toNat, o) ∧ o.connection = c

/-- A connection goes to a slot that is vacant or new. -/
theorem Good.exists_add (h : Good r log) (c : C) (label : String) (now : Rat) :
    ∃ i g : Nat, (r.add c label now).1 = ⟨i, g⟩ ∧ r.holding i = none ∧
      (r.add c label now).2.closed = r.closed ∧
      ∀ j : Nat, (r.add c label now).2.slots[j]? =
        if j = i then some ⟨g, some ⟨c, label, now, 0⟩⟩ else r.slots[j]? := by
  cases hfree : r.free with
  | nil =>
    rw [add_of_free_eq_nil hfree]
    refine ⟨r.slots.length, 0, rfl, ?_, rfl, getElem?_append_new r.slots _⟩
    rw [holding, List.getElem?_eq_none (Nat.le_refl _), Option.bind_none]
  | cons i rest =>
    obtain ⟨s, hs, hso⟩ := (h.mem_free i).1 (hfree ▸ List.mem_cons_self)
    rw [add_of_free_eq_cons hfree hs]
    refine ⟨i, s.generation, rfl, ?_, rfl, getElem?_set_of_some hs _⟩
    rw [holding, hs, Option.bind_some, hso, Option.map_none]

/-- The connection of a session goes to such a slot and is held there. -/
theorem Good.exists_enter (h : Good r log) (c : C) (label : String) (now : Rat) :
    ∃ i g : Nat, (r.enter c label now).1 = ⟨i, g⟩ ∧ r.holding i = none ∧
      (r.enter c label now).2.closed = r.closed ∧
      ∀ j : Nat, (r.enter c label now).2.slots[j]? =
        if j = i then some ⟨g, some ⟨c, label, now, 1⟩⟩ else r.slots[j]? := by
  obtain ⟨i, g, hhandle, hvacant, hclosed, hslots⟩ := h.exists_add c label now
  refine ⟨i, g, hhandle, hvacant, hclosed, fun j => ?_⟩
  have hslot : (r.add c label now).1.slot.toNat = i := by
    rw [hhandle]
    rfl
  show ((r.add c label now).2.slots.modify (r.add c label now).1.slot.toNat _)[j]? = _
  rw [hslot, List.getElem?_modify, hslots]
  by_cases hj : j = i
  · simp [hj]
  · simp [hj, Ne.symm hj]

theorem Good.enters (h : Good r log) (c : C) (label : String) (now : Rat) :
    Enters r c (r.enter c label now).1 (r.enter c label now).2 := by
  obtain ⟨i, g, hhandle, hvacant, hclosed, hslots⟩ := h.exists_enter c label now
  have hslot : (r.enter c label now).1.slot.toNat = i := by
    rw [hhandle]
    rfl
  constructor
  · rw [hslot]
    exact hvacant
  · intro j hj
    rw [hslot] at hj
    rw [hslots, if_neg hj]
  · exact hclosed
  · rw [hslot, hhandle]
    exact ⟨_, find_eq_ok.2 ⟨_, rfl, by rw [hslots]; exact if_pos rfl, rfl⟩, rfl⟩

/-- At its end the slot of a session is vacated, and what it held is closed. -/
theorem Enters.leave {r r' : Registry C} {c : C} {h : Handle} (he : Enters r c h r') :
    (∀ i, (r'.leave h).holding i = r.holding i) ∧ (r'.leave h).closed = r.closed ++ [c] := by
  obtain ⟨o, hfind, rfl⟩ := he.held
  obtain ⟨⟨g, occupant⟩, -, hs, ho⟩ := find_eq_ok.1 hfind
  obtain rfl : occupant = some o := ho
  have hleave : r'.leave h = { r'.vacate h.slot.toNat with released := r'.released + 1 } := by
    unfold Registry.leave Registry.release
    rw [hfind]
  have hvacate : r'.vacate h.slot.toNat = { r' with
      slots := r'.slots.set h.slot.toNat ⟨g + 1, none⟩
      free := insertAscending h.slot.toNat r'.free
      closed := r'.closed ++ [o.connection] } := by
    unfold Registry.vacate
    rw [hs]
  rw [hleave, hvacate]
  refine ⟨fun i => ?_, congrArg (· ++ _) he.closed⟩
  show ((r'.slots.set h.slot.toNat ⟨g + 1, none⟩)[i]?).bind _ = _
  rw [getElem?_set_of_some hs]
  by_cases hi : i = h.slot.toNat
  · rw [if_pos hi, hi, he.vacant]
    rfl
  · rw [if_neg hi, he.others i hi]
    rfl

theorem Good.leave_enter (h : Good r log) (c : C) (label : String) (now : Rat) :
    let entered := r.enter c label now
    (∀ i, (entered.2.leave entered.1).holding i = r.holding i) ∧
      (entered.2.leave entered.1).closed = r.closed ++ [c] :=
  (h.enters c label now).leave

end Schemata.Registry
