import Schemata.Proofs.Connection.Session

/-!
# Uses and sessions

Which connections were used when, and which of them are held by sessions, can be told from a run
alone: `uses` lists the uses of its handles and `sessions` the handles that were given to sessions.
The slots keep both for what they hold. `Tracked` says that they keep it right, and every call keeps
it so (`Tracked.step`): a slot gets a new occupant only under a handle that was never issued before.
-/

namespace Schemata.Registry

variable {C : Type}

/-! ## What a run tells -/

/-- A use of a connection: the handle that led to it, and the moment. -/
abbrev Use := Handle × Rat

/-- The use that a call makes: a connection is used when it is stored and when it is got. -/
def use? (r : Registry C) : Event C → Option Use
  | .add (.ok c) label now => some ((r.add c label now).1, now)
  | .enter (.ok c) label now => some ((r.enter c label now).1, now)
  | .get h now => if (r.get h now).toOption.isSome then some (h, now) else none
  | _ => none

/-- The handle of the session that a call begins. -/
def session? (r : Registry C) : Event C → Option Handle
  | .enter (.ok c) label now => some (r.enter c label now).1
  | _ => none

/-- The uses in a run, in order. -/
def uses (r : Registry C) : List (Event C) → List Use
  | [] => []
  | e :: events => (r.use? e).toList ++ (r.step e).uses events

/-- The handles that were given to sessions in a run, in order. -/
def sessions (r : Registry C) : List (Event C) → List Handle
  | [] => []
  | e :: events => (r.session? e).toList ++ (r.step e).sessions events

/-- The moment at which a handle was used last. -/
def lastUse? (uses : List Use) (h : Handle) : Option Rat := uses.reverse.lookup h

theorem lastUse?_append (uses : List Use) (h k : Handle) (now : Rat) :
    lastUse? (uses ++ [(k, now)]) h = if h = k then some now else lastUse? uses h := by
  unfold lastUse?
  rw [List.reverse_append, List.reverse_singleton, List.singleton_append, List.lookup_cons]
  by_cases hk : h = k
  · simp [hk]
  · simp [hk, beq_eq_false_iff_ne.2 hk]

/-! ## What the slots keep -/

/-- The slots know when their connections were used last and which of them sessions hold. -/
structure Tracked (r : Registry C) (log : List (Entry C)) (sessions : List Handle)
    (uses : List Use) : Prop where
  good : Good r log
  sessions_subset : sessions ⊆ handles log
  lastUsed : ∀ (i g : Nat) o, r.slots[i]? = some ⟨g, some o⟩ → lastUse? uses ⟨i, g⟩ = some o.lastUsed
  checkouts : ∀ (i g : Nat) o, r.slots[i]? = some ⟨g, some o⟩ →
    (o.checkouts = 0 ↔ (⟨i, g⟩ : Handle) ∉ sessions)

theorem occupied_of_vacate {r : Registry C} {i j g : Nat} {o : Occupant C}
    (h : (r.vacate i).slots[j]? = some ⟨g, some o⟩) : r.slots[j]? = some ⟨g, some o⟩ := by
  by_cases hij : i = j
  · subst hij
    unfold Registry.vacate at h
    split at h
    · next hi =>
      rw [getElem?_set_of_some hi, if_pos rfl] at h
      cases h
    · exact h
  · rwa [getElem?_vacate_of_ne r hij] at h

theorem occupied_of_vacateAll {r : Registry C} {l : List Nat} {j g : Nat} {o : Occupant C}
    (h : (r.vacateAll l).slots[j]? = some ⟨g, some o⟩) : r.slots[j]? = some ⟨g, some o⟩ := by
  induction l generalizing r with
  | nil => exact h
  | cons i l ih => exact occupied_of_vacate (ih h)

theorem occupied_of_release {r : Registry C} {k : Handle} {j g : Nat} {o : Occupant C}
    (h : (r.release k).2.slots[j]? = some ⟨g, some o⟩) : r.slots[j]? = some ⟨g, some o⟩ := by
  unfold Registry.release at h
  split at h
  · exact occupied_of_vacate h
  · exact h

section Steps

variable {r r' : Registry C} {log log' : List (Entry C)} {sessions : List Handle} {uses : List Use}

/-- Slots may be vacated. -/
theorem Tracked.vacates (h : Tracked r log sessions uses) (hgood : Good r' (log ++ log'))
    (hslots : ∀ {j g : Nat} {o}, r'.slots[j]? = some ⟨g, some o⟩ → r.slots[j]? = some ⟨g, some o⟩) :
    Tracked r' (log ++ log') sessions uses where
  good := hgood
  sessions_subset := by
    rw [handles_append]
    exact List.subset_append_of_subset_left _ h.sessions_subset
  lastUsed i g o hi := h.lastUsed i g o (hslots hi)
  checkouts i g o hi := h.checkouts i g o (hslots hi)

/-- A connection is stored under a new handle, for a session or for none. -/
theorem Tracked.occupies (h : Tracked r log sessions uses) {i g : Nat} {o : Occupant C}
    {begun : List Handle} (hgood : Good r' (log ++ [.issued ⟨i, g⟩ o.connection]))
    (hslots : ∀ j : Nat, r'.slots[j]? = if j = i then some ⟨g, some o⟩ else r.slots[j]?)
    (hbegun : begun = if o.checkouts = 0 then [] else [⟨i, g⟩]) :
    Tracked r' (log ++ [.issued ⟨i, g⟩ o.connection]) (sessions ++ begun)
      (uses ++ [(⟨i, g⟩, o.lastUsed)]) := by
  have hnodup := hgood.nodup
  rw [handles_append] at hnodup
  have hfresh : (⟨i, g⟩ : Handle) ∉ sessions := fun hmem =>
    (List.nodup_append.1 hnodup).2.2 _ (h.sessions_subset hmem) _ (List.mem_singleton_self _) rfl
  have hother : ∀ j g' : Nat, j ≠ i → (⟨j, g'⟩ : Handle) ≠ ⟨i, g⟩ := by
    intro j g' hj heq
    exact hj (Int.ofNat.inj (Handle.mk.inj heq).1)
  constructor
  · exact hgood
  · rw [handles_append]
    refine List.append_subset.2 ⟨List.subset_append_of_subset_left _ h.sessions_subset, ?_⟩
    intro k hk
    rw [hbegun] at hk
    split at hk
    · cases hk
    · exact List.mem_append_right _ hk
  · intro j g' o' hj
    rw [hslots] at hj
    rw [lastUse?_append]
    split at hj
    · next hji =>
      cases hj
      rw [hji, if_pos rfl]
    · next hji =>
      rw [if_neg (hother j g' hji)]
      exact h.lastUsed j g' o' hj
  · intro j g' o' hj
    rw [hslots] at hj
    rw [List.mem_append, hbegun]
    split at hj
    · next hji =>
      cases hj
      rw [hji]
      by_cases hcheck : o.checkouts = 0
      · simp [hcheck, hfresh]
      · simp [hcheck]
    · next hji =>
      rw [h.checkouts j g' o' hj]
      have hne := hother j g' hji
      split <;> simp [hne]

/-- A use leaves its moment in the slot. -/
theorem Tracked.get (h : Tracked r log sessions uses) (k : Handle) (now : Rat) :
    Tracked (r.step (.get k now)) log sessions (uses ++ (r.use? (.get k now)).toList) := by
  have hgood : Good (r.step (.get k now)) log := h.good.get k now
  cases hfind : r.find k with
  | error f =>
    have hget : r.get k now = .error f := by
      unfold Registry.get
      rw [hfind]
      rfl
    have hstep : r.step (.get k now) = r := by
      show (r.get k now).toOption.elim r (·.2) = r
      rw [hget]
      rfl
    have huse : r.use? (.get k now) = none := by
      unfold use?
      dsimp only
      rw [hget]
      rfl
    rw [hstep, huse, Option.toList_none, List.append_nil]
    exact h
  | ok p =>
    obtain ⟨i, o⟩ := p
    obtain ⟨⟨g, occupant⟩, rfl, hs, ho⟩ := find_eq_ok.1 hfind
    obtain rfl : occupant = some o := ho
    have hget : r.get ⟨i, g⟩ now =
        .ok (o.connection, r.modifyOccupant i fun o => { o with lastUsed := now }) := by
      unfold Registry.get
      rw [hfind]
      rfl
    have huse : r.use? (.get ⟨i, g⟩ now) = some (⟨i, g⟩, now) := by
      unfold use?
      dsimp only
      rw [hget]
      rfl
    have hslots : ∀ j : Nat, (r.step (.get ⟨i, g⟩ now)).slots[j]? =
        if j = i then some ⟨g, some { o with lastUsed := now }⟩ else r.slots[j]? := by
      intro j
      show ((r.get ⟨i, g⟩ now).toOption.elim r (·.2)).slots[j]? = _
      rw [hget]
      show (r.slots.modify i _)[j]? = _
      rw [List.getElem?_modify]
      by_cases hj : j = i
      · simp [hj, hs]
      · simp [hj, Ne.symm hj]
    rw [huse]
    constructor
    · exact hgood
    · exact h.sessions_subset
    · intro j g' o' hj
      rw [hslots] at hj
      rw [Option.toList_some, lastUse?_append]
      split at hj
      · next hji =>
        cases hj
        rw [hji, if_pos rfl]
      · next hji =>
        have hne : (⟨j, g'⟩ : Handle) ≠ ⟨i, g⟩ := fun heq =>
          hji (Int.ofNat.inj (Handle.mk.inj heq).1)
        rw [if_neg hne]
        exact h.lastUsed j g' o' hj
    · intro j g' o' hj
      rw [hslots] at hj
      split at hj
      · next hji =>
        cases hj
        rw [hji]
        exact h.checkouts i g o hs
      · exact h.checkouts j g' o' hj

/-- Every call leaves the slots with the right account of uses and sessions. -/
theorem Tracked.step (h : Tracked r log sessions uses) (e : Event C) :
    Tracked (r.step e) (log ++ r.entries e) (sessions ++ (r.session? e).toList)
      (uses ++ (r.use? e).toList) := by
  have hgood := h.good.step e
  have hnil : ∀ {α : Type} (l : List α), l ++ [] = l := List.append_nil
  cases e with
  | add connected label now =>
    cases connected with
    | ok c =>
      obtain ⟨i, g, hhandle, -, -, hslots⟩ := h.good.exists_add c label now
      have hentries : r.entries (.add (.ok c) label now) = [.issued ⟨i, g⟩ c] := by
        rw [← hhandle]
        rfl
      have huse : r.use? (.add (.ok c) label now) = some (⟨i, g⟩, now) := by
        rw [← hhandle]
        rfl
      rw [hentries] at hgood ⊢
      rw [huse]
      exact h.occupies (o := ⟨c, label, now, 0⟩) hgood hslots rfl
    | error f =>
      simp only [entries, session?, use?, Option.toList_none, hnil]
      exact h
  | enter connected label now =>
    cases connected with
    | ok c =>
      obtain ⟨i, g, hhandle, -, -, hslots⟩ := h.good.exists_enter c label now
      have hentries : r.entries (.enter (.ok c) label now) = [.issued ⟨i, g⟩ c] := by
        rw [← hhandle]
        rfl
      have huse : r.use? (.enter (.ok c) label now) = some (⟨i, g⟩, now) := by
        rw [← hhandle]
        rfl
      have hsession : r.session? (.enter (.ok c) label now) = some ⟨i, g⟩ := by
        rw [← hhandle]
        rfl
      rw [hentries] at hgood ⊢
      rw [huse, hsession]
      exact h.occupies (o := ⟨c, label, now, 1⟩) hgood hslots rfl
    | error f =>
      simp only [entries, session?, use?, Option.toList_none, hnil]
      exact h
  | get k now =>
    have hget := h.get k now
    rw [← hnil log, ← hnil sessions] at hget
    exact hget
  | release k =>
    simp only [session?, use?, Option.toList_none, hnil]
    exact h.vacates hgood occupied_of_release
  | leave k =>
    simp only [session?, use?, Option.toList_none, hnil]
    exact h.vacates hgood occupied_of_release
  | sweep now =>
    simp only [session?, use?, Option.toList_none, hnil]
    exact h.vacates hgood occupied_of_vacateAll
  | closeAll =>
    simp only [session?, use?, Option.toList_none, hnil]
    exact h.vacates hgood occupied_of_vacateAll

end Steps

theorem Tracked.run {r : Registry C} {log : List (Entry C)} {sessions : List Handle}
    {uses : List Use} (h : Tracked r log sessions uses) (events : List (Event C)) :
    Tracked (r.run events) (log ++ r.history events) (sessions ++ r.sessions events)
      (uses ++ r.uses events) := by
  induction events generalizing r log sessions uses with
  | nil =>
    show Tracked r (log ++ []) (sessions ++ []) (uses ++ [])
    rw [List.append_nil, List.append_nil, List.append_nil]
    exact h
  | cons e events ih =>
    have hrest := ih (h.step e)
    rw [List.append_assoc, List.append_assoc, List.append_assoc] at hrest
    exact hrest

theorem tracked_empty (idleTimeout : Rat) : Tracked ({ idleTimeout } : Registry C) [] [] [] where
  good := good_empty idleTimeout
  sessions_subset := List.nil_subset _
  lastUsed i g o hi := by simp at hi
  checkouts i g o hi := by simp at hi

end Schemata.Registry
