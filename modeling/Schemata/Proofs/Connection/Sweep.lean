import Schemata.Proofs.Connection.Accounting
import Schemata.Proofs.Connection.Usage
import Schemata.Proofs.Number.Rounding

/-!
# Sweeps are exact

A connection is due at a moment if no session was ever given its handle and its last use lies too far
back; this is told from the run alone. A sweep evicts the connections that are due and leaves all else
as it was, and what a session holds ends only when the session does, when its handle is released, or
when everything is closed (`sweep_exact`).
-/

namespace Schemata.Registry

variable {C : Type}

/-! ## Vacating many slots -/

/-- What becomes of a slot that is vacated. -/
def vacated (s : Slot C) : Slot C := if s.occupant.isSome then ⟨s.generation + 1, none⟩ else s

theorem vacated_vacated (s : Slot C) : vacated (vacated s) = vacated s := by
  unfold vacated
  by_cases h : s.occupant.isSome
  · rw [if_pos h]
    rfl
  · rw [if_neg h, if_neg h]

theorem getElem?_vacate (r : Registry C) (i j : Nat) :
    (r.vacate i).slots[j]? = if j = i then r.slots[j]?.map vacated else r.slots[j]? := by
  by_cases hj : j = i
  · subst hj
    rw [if_pos rfl]
    unfold Registry.vacate
    split
    · next g o hs =>
      rw [getElem?_set_of_some hs, if_pos rfl, hs]
      rfl
    · next hs =>
      cases hslot : r.slots[j]? with
      | none => rfl
      | some s =>
        obtain ⟨g, _ | o⟩ := s
        · rfl
        · exact absurd hslot (hs g o)
  · rw [if_neg hj, getElem?_vacate_of_ne r (Ne.symm hj)]

theorem getElem?_vacateAll (r : Registry C) (l : List Nat) (j : Nat) :
    (r.vacateAll l).slots[j]? = if j ∈ l then r.slots[j]?.map vacated else r.slots[j]? := by
  induction l generalizing r with
  | nil => rfl
  | cons i l ih =>
    show ((r.vacate i).vacateAll l).slots[j]? = _
    rw [ih, getElem?_vacate]
    by_cases hj : j = i
    · have hvacated : (vacated ∘ vacated : Slot C → Slot C) = vacated := funext vacated_vacated
      simp [hj, hvacated]
    · simp [hj]

theorem closed_vacate (r : Registry C) (i : Nat) :
    (r.vacate i).closed = r.closed ++ (r.slots[i]?.bind connectionIn).toList := by
  unfold Registry.vacate
  split
  · next g o hs =>
    rw [hs]
    rfl
  · next hs =>
    cases hslot : r.slots[i]? with
    | none => exact (List.append_nil _).symm
    | some s =>
      obtain ⟨g, _ | o⟩ := s
      · exact (List.append_nil _).symm
      · exact absurd hslot (hs g o)

theorem closed_vacateAll (r : Registry C) {l : List Nat} (hl : l.Nodup) :
    (r.vacateAll l).closed = r.closed ++ l.filterMap fun i => r.slots[i]?.bind connectionIn := by
  induction l generalizing r with
  | nil => exact (List.append_nil _).symm
  | cons i l ih =>
    obtain ⟨hi, hl⟩ := List.nodup_cons.1 hl
    have hrest : (l.filterMap fun j => (r.vacate i).slots[j]?.bind connectionIn) =
        l.filterMap fun j => r.slots[j]?.bind connectionIn := by
      refine List.filterMap_congr fun j hj => ?_
      have hij : i ≠ j := fun hij => hi (hij ▸ hj)
      rw [getElem?_vacate_of_ne r hij]
    show ((r.vacate i).vacateAll l).closed = _
    rw [ih (r.vacate i) hl, closed_vacate, hrest, List.append_assoc, filterMap_cons_toList]

theorem idleTimeout_vacateAll (r : Registry C) (l : List Nat) :
    (r.vacateAll l).idleTimeout = r.idleTimeout := by
  induction l generalizing r with
  | nil => rfl
  | cons i l ih =>
    refine (ih (r.vacate i)).trans ?_
    unfold Registry.vacate
    split <;> rfl

/-! ## What is evicted -/

/-- The connection that a handle reaches. -/
def reached? (r : Registry C) (h : Handle) : Option C :=
  (r.find h).toOption.map fun p => p.2.connection

theorem reached?_eq_some {r : Registry C} {h : Handle} {c : C} :
    r.reached? h = some c ↔
      ∃ (i g : Nat) (o : Occupant C), h = ⟨i, g⟩ ∧ r.slots[i]? = some ⟨g, some o⟩ ∧
        o.connection = c := by
  unfold reached?
  constructor
  · intro hc
    cases hfind : r.find h with
    | error f =>
      rw [hfind] at hc
      cases hc
    | ok p =>
      rw [hfind] at hc
      obtain ⟨⟨g, occupant⟩, hh, hs, ho⟩ := find_eq_ok.1 hfind
      obtain rfl : occupant = some p.2 := ho
      exact ⟨p.1, g, p.2, hh, hs, Option.some.inj hc⟩
  · rintro ⟨i, g, o, rfl, hs, rfl⟩
    rw [find_eq_ok.2 ⟨_, rfl, hs, rfl⟩]
    rfl

theorem Good.reached?_iff {r : Registry C} {log : List (Entry C)} (hgood : Good r log) {h : Handle}
    {c : C} : r.reached? h = some c ↔ Live log h c := by
  rw [reached?_eq_some, hgood.live]
  constructor
  · rintro ⟨i, g, o, rfl, hs, rfl⟩
    exact ⟨i, _, o, rfl, hs, rfl, rfl⟩
  · rintro ⟨i, ⟨g, occupant⟩, o, rfl, hs, ho, rfl⟩
    obtain rfl : occupant = some o := ho
    exact ⟨i, g, o, rfl, hs, rfl⟩

/-- Whole seconds are told exactly. -/
theorem elapsed_intCast {m n : Int} (h : (m - n).natAbs < 2 ^ 53) : elapsed m n = m - n := by
  rw [elapsed, ← Int.cast_sub, Binary64.toRat?_ofRat_intCast h, Option.getD_some]

-- Two readings of the clock that lie half an hour and a little more apart: rounded, half an hour.
example : elapsed (mkRat 7919562352544973 4398046511104) (mkRat 3152519739159347 4503599627370496) =
    1800 := by decide +kernel

/-- A handle whose connection is due after a run: it is open, no session was given it, and its last
use lies more than the timeout before the moment, as the clock tells it. -/
structure Due (start : Registry C) (events : List (Event C)) (now : Rat) (h : Handle) : Prop where
  isOpen : ((start.run events).reached? h).isSome
  unheld : h ∉ start.sessions events
  idle : ∃ t, lastUse? (start.uses events) h = some t ∧ start.idleTimeout < elapsed now t

/-- The connections of some handles were closed and their slots vacated, `n` of them, and nothing else
has changed. -/
structure Evicts (r : Registry C) (due : List Handle) (n : Nat) (r' : Registry C) : Prop where
  count : n = due.length
  swept : r'.swept = r.swept + due.length
  vacated : ∀ i g : Nat, (⟨i, g⟩ : Handle) ∈ due → r'.slots[i]? = some ⟨g + 1, none⟩
  kept : ∀ i : Nat, (∀ h ∈ due, h.slot ≠ i) → r'.slots[i]? = r.slots[i]?
  closed : r'.closed = r.closed ++ due.filterMap r.reached?
  sorted : r'.free.Pairwise (· < ·)
  mem_free : ∀ i : Nat, i ∈ r'.free ↔ i ∈ r.free ∨ ∃ h ∈ due, h.slot = i
  opened : r'.opened = r.opened
  released : r'.released = r.released
  idleTimeout : r'.idleTimeout = r.idleTimeout

/-- The handle of a slot. -/
def handleAt (r : Registry C) (i : Nat) : Handle := ⟨i, (r.slots[i]?.elim 0 (·.generation) : Nat)⟩

theorem mem_handleAt_slotsWhere {r : Registry C} {p : Occupant C → Bool} {h : Handle} :
    h ∈ (r.slotsWhere p).map r.handleAt ↔
      ∃ (i g : Nat) (o : Occupant C), h = ⟨i, g⟩ ∧ r.slots[i]? = some ⟨g, some o⟩ ∧ p o = true := by
  rw [List.mem_map]
  constructor
  · rintro ⟨i, hi, rfl⟩
    obtain ⟨⟨g, occupant⟩, o, hs, ho, hp⟩ := mem_slotsWhere.1 hi
    obtain rfl : occupant = some o := ho
    refine ⟨i, g, o, ?_, hs, hp⟩
    rw [handleAt, hs]
    rfl
  · rintro ⟨i, g, o, rfl, hs, hp⟩
    refine ⟨i, mem_slotsWhere.2 ⟨_, o, hs, rfl, hp⟩, ?_⟩
    rw [handleAt, hs]
    rfl

/-- A sweep evicts the connections that are idle. -/
theorem Good.evicts_sweep {r : Registry C} {log : List (Entry C)} (hgood : Good r log) (now : Rat) :
    Evicts r ((r.slotsWhere (r.isIdle now)).map r.handleAt) (r.sweep now).1 (r.sweep now).2 := by
  let idle := r.slotsWhere (r.isIdle now)
  have hvacates := vacates_slotsWhere r (r.isIdle now)
  have hlength : (idle.map r.handleAt).length = idle.length := List.length_map _
  have hafter : Good (r.vacateAll idle) _ := hgood.vacate_slotsWhere (r.isIdle now)
  have hslots := getElem?_vacateAll r idle
  have hslot : ∀ i : Nat, (∃ h ∈ idle.map r.handleAt, h.slot = i) ↔ i ∈ idle := by
    intro i
    constructor
    · rintro ⟨h, hh, hi⟩
      obtain ⟨j, hj, rfl⟩ := List.mem_map.1 hh
      obtain rfl : j = i := Int.ofNat.inj hi
      exact hj
    · intro hi
      exact ⟨_, List.mem_map_of_mem hi, rfl⟩
  constructor
  · exact hlength.symm
  · show r.swept + idle.length = _
    rw [hlength]
  · intro i g hmem
    obtain ⟨j, g', o, heq, hs, hidle⟩ := mem_handleAt_slotsWhere.1 hmem
    rw [Handle.mk.injEq] at heq
    obtain rfl : i = j := Int.ofNat.inj heq.1
    obtain rfl : g = g' := Int.ofNat.inj heq.2
    have hi : i ∈ idle := mem_slotsWhere.2 ⟨_, o, hs, rfl, hidle⟩
    show (r.vacateAll idle).slots[i]? = _
    rw [hslots, if_pos hi, hs]
    rfl
  · intro i hi
    have hi : i ∉ idle := fun hmem => by
      obtain ⟨h, hh, heq⟩ := (hslot i).2 hmem
      exact hi h hh heq
    show (r.vacateAll idle).slots[i]? = _
    rw [hslots, if_neg hi]
  · show (r.vacateAll idle).closed = _
    rw [closed_vacateAll r (nodup_slotsWhere r _), List.filterMap_map]
    congr 1
    refine List.filterMap_congr fun i hi => ?_
    obtain ⟨⟨g, occupant⟩, o, hs, ho, -⟩ := mem_slotsWhere.1 hi
    obtain rfl : occupant = some o := ho
    have hreached : r.reached? ⟨i, g⟩ = some o.connection :=
      reached?_eq_some.2 ⟨i, g, o, rfl, hs, rfl⟩
    rw [Function.comp_apply, handleAt, hs]
    exact hreached.symm
  · exact hafter.sorted
  · -- a slot is vacant after the sweep if it was so before or if the sweep vacated it
    intro i
    show i ∈ (r.vacateAll idle).free ↔ _
    rw [hafter.mem_free, hgood.mem_free, hslot, hslots]
    by_cases hi : i ∈ idle
    · obtain ⟨⟨g, occupant⟩, o, hs, ho, -⟩ := mem_slotsWhere.1 hi
      obtain rfl : occupant = some o := ho
      simp [hi, hs, Registry.vacated]
    · simp [hi]
  · exact hvacates.opened
  · exact hvacates.released
  · exact idleTimeout_vacateAll r idle

theorem sorted_handleAt_slotsWhere (r : Registry C) (p : Occupant C → Bool) :
    ((r.slotsWhere p).map r.handleAt).Pairwise (·.slot < ·.slot) := by
  rw [List.pairwise_map]
  exact (List.pairwise_lt_range.filter _).imp Int.ofNat_lt.2

/-! ## What a session holds -/

/-- The calls that end the connection of a handle. -/
def Event.Ends (h : Handle) (e : Event C) : Prop := e = .leave h ∨ e = .release h ∨ e = .closeAll

theorem live_append_vacatedAll {log : List (Entry C)} {h : Handle} {c : C} (l : List Nat) :
    Live (log ++ l.map .vacated) h c ↔ Live log h c ∧ ∀ i ∈ l, h.slot ≠ i := by
  induction l generalizing log with
  | nil => simp
  | cons i l ih =>
    rw [List.map_cons, List.append_cons, ih, live_append_vacated, List.forall_mem_cons, and_assoc]

section Steps

variable {r : Registry C} {log : List (Entry C)} {sessions : List Handle} {uses : List Use}
  {h : Handle} {c : C}

/-- A handle that was issued before gets no other connection when a new one is issued. -/
theorem live_append_of_mem {k : Handle} {d : C} (hnodup : (handles (log ++ [.issued k d])).Nodup)
    (hmem : h ∈ handles log) : Live (log ++ [.issued k d]) h c ↔ Live log h c := by
  rw [live_append_issued]
  constructor
  · rintro (hlive | ⟨rfl, -⟩)
    · exact hlive
    · rw [handles_append] at hnodup
      exact absurd rfl ((List.nodup_append.1 hnodup).2.2 h hmem h (List.mem_singleton_self h))
  · exact .inl

theorem Good.live_release (hgood : Good r log) (k : Handle) :
    Live (log ++ if (r.release k).1 then [.vacated k.slot.toNat] else []) h c ↔
      Live log h c ∧ h ≠ k := by
  unfold Registry.release
  cases hfind : r.find k with
  | error f =>
    dsimp only
    rw [if_neg Bool.false_ne_true, List.append_nil]
    refine ⟨fun hlive => ⟨hlive, ?_⟩, And.left⟩
    rintro rfl
    obtain ⟨i, s, o, rfl, hs, ho, -⟩ := (hgood.live h c).1 hlive
    rw [find_eq_ok.2 ⟨s, rfl, hs, ho⟩] at hfind
    cases hfind
  | ok p =>
    obtain ⟨s, rfl, hs, ho⟩ := find_eq_ok.1 hfind
    dsimp only
    rw [if_pos rfl, live_append_vacated]
    refine and_congr_right fun hlive => not_congr ?_
    obtain ⟨i, s', o', rfl, hs', ho', -⟩ := (hgood.live h c).1 hlive
    constructor
    · intro heq
      obtain rfl : i = p.1 := Int.ofNat.inj heq
      rw [hs] at hs'
      cases hs'
      rfl
    · intro heq
      rw [heq]
      rfl

/-- The connection that a session holds lives through every call but those that end it. -/
theorem Tracked.live_step (ht : Tracked r log sessions uses) (hmem : h ∈ sessions) (e : Event C) :
    Live (log ++ r.entries e) h c ↔ Live log h c ∧ ¬e.Ends h := by
  have hnodup := (ht.good.step e).nodup
  have hissued := ht.sessions_subset hmem
  cases e with
  | add connected label now =>
    rw [and_iff_left (by simp [Event.Ends])]
    cases connected with
    | ok d => exact live_append_of_mem hnodup hissued
    | error f => rw [entries, List.append_nil]
  | enter connected label now =>
    rw [and_iff_left (by simp [Event.Ends])]
    cases connected with
    | ok d => exact live_append_of_mem hnodup hissued
    | error f => rw [entries, List.append_nil]
  | get k now => simp [entries, Event.Ends]
  | release k =>
    have hends : (Event.release k : Event C).Ends h ↔ h = k := by
      simp [Event.Ends, eq_comm (a := k)]
    rw [hends]
    exact ht.good.live_release k
  | leave k =>
    have hends : (Event.leave k : Event C).Ends h ↔ h = k := by
      simp [Event.Ends, eq_comm (a := k)]
    rw [hends]
    exact ht.good.live_release k
  | sweep now =>
    rw [entries, live_append_vacatedAll]
    refine and_congr_right fun hlive => ?_
    obtain ⟨i, ⟨g, occupant⟩, o, rfl, hs, ho, -⟩ := (ht.good.live h c).1 hlive
    obtain rfl : occupant = some o := ho
    have hheld : ¬o.checkouts = 0 := fun hzero => (ht.checkouts i g o hs).1 hzero hmem
    simp only [Event.Ends, reduceCtorEq, or_self, not_false_eq_true, iff_true]
    intro j hj heq
    obtain rfl : i = j := Int.ofNat.inj heq
    obtain ⟨s, o', hs', ho', hidle⟩ := mem_slotsWhere.1 hj
    rw [hs] at hs'
    cases hs'
    cases ho'
    simp [isIdle, hheld] at hidle
  | closeAll =>
    rw [entries, live_append_vacatedAll]
    refine and_congr_right fun hlive => ?_
    obtain ⟨i, s, o, rfl, hs, ho, -⟩ := (ht.good.live h c).1 hlive
    have hocc : i ∈ r.slotsWhere fun _ => true := mem_slotsWhere.2 ⟨s, o, hs, ho, rfl⟩
    simp only [Event.Ends, or_true, not_true, iff_false]
    exact fun hall => hall i hocc rfl

/-- It lives through every run without such a call, and through no other. -/
theorem Tracked.live_run (ht : Tracked r log sessions uses) (hmem : h ∈ sessions)
    (more : List (Event C)) :
    Live (log ++ r.history more) h c ↔ Live log h c ∧ ∀ e ∈ more, ¬e.Ends h := by
  induction more generalizing r log sessions uses with
  | nil => simp [history]
  | cons e more ih =>
    have hrest := ih (ht.step e) (List.mem_append_left _ hmem)
    rw [List.append_assoc] at hrest
    rw [history, hrest, ht.live_step hmem, List.forall_mem_cons, and_assoc]

end Steps

/-! ## Every run -/

theorem idleTimeout_step (r : Registry C) (e : Event C) : (r.step e).idleTimeout = r.idleTimeout := by
  have hvacate : ∀ i, (r.vacate i).idleTimeout = r.idleTimeout := fun i =>
    idleTimeout_vacateAll r [i]
  have hadd : ∀ c label now, (r.add c label now).2.idleTimeout = r.idleTimeout := by
    intro c label now
    unfold Registry.add
    split <;> rfl
  have hrelease : ∀ k, (r.release k).2.idleTimeout = r.idleTimeout := by
    intro k
    unfold Registry.release
    split
    · exact hvacate _
    · rfl
  cases e with
  | add connected label now =>
    cases connected with
    | ok c => exact hadd c label now
    | error f => rfl
  | enter connected label now =>
    cases connected with
    | ok c => exact hadd c label now
    | error f => rfl
  | get k now =>
    show ((r.get k now).toOption.elim r (·.2)).idleTimeout = _
    unfold Registry.get
    cases r.find k <;> rfl
  | release k => exact hrelease k
  | leave k => exact hrelease k
  | sweep now => exact idleTimeout_vacateAll r _
  | closeAll => exact idleTimeout_vacateAll r _

theorem idleTimeout_run (r : Registry C) (events : List (Event C)) :
    (r.run events).idleTimeout = r.idleTimeout := by
  induction events generalizing r with
  | nil => rfl
  | cons e events ih => exact (ih (r.step e)).trans (idleTimeout_step r e)

/-- The slots that a sweep finds idle are those whose connections are due. -/
theorem due_iff (start : Registry C) (events : List (Event C)) {log : List (Entry C)}
    (ht : Tracked (start.run events) log (start.sessions events) (start.uses events)) (now : Rat)
    (h : Handle) :
    Due start events now h ↔ ∃ (i g : Nat) (o : Occupant C), h = ⟨i, g⟩ ∧
      (start.run events).slots[i]? = some ⟨g, some o⟩ ∧ (start.run events).isIdle now o = true := by
  have hidle : ∀ o : Occupant C, (start.run events).isIdle now o = true ↔
      o.checkouts = 0 ∧ start.idleTimeout < elapsed now o.lastUsed := by
    intro o
    rw [isIdle, idleTimeout_run, Bool.and_eq_true, decide_eq_true_iff, decide_eq_true_iff]
  constructor
  · rintro ⟨hopen, hunheld, t, ht', hlate⟩
    obtain ⟨c, hc⟩ := Option.isSome_iff_exists.1 hopen
    obtain ⟨i, g, o, rfl, hs, -⟩ := reached?_eq_some.1 hc
    rw [ht.lastUsed i g o hs] at ht'
    obtain rfl := Option.some.inj ht'
    exact ⟨i, g, o, rfl, hs, (hidle o).2 ⟨(ht.checkouts i g o hs).2 hunheld, hlate⟩⟩
  · rintro ⟨i, g, o, rfl, hs, ho⟩
    obtain ⟨hcheckouts, hlate⟩ := (hidle o).1 ho
    constructor
    · rw [reached?_eq_some.2 ⟨i, g, o, rfl, hs, rfl⟩]
      rfl
    · exact (ht.checkouts i g o hs).1 hcheckouts
    · exact ⟨_, ht.lastUsed i g o hs, hlate⟩

/-- A sweep evicts exactly the connections that are due, in the order of their slots, and changes
nothing else; and the connection that a session was given stays open exactly as long as no call ends
it. -/
theorem sweep_exact (idleTimeout : Rat) (events : List (Event C)) :
    let start : Registry C := { idleTimeout }
    let r := start.run events
    (∀ now, ∃ due : List Handle, due.Pairwise (·.slot < ·.slot) ∧
      (∀ h, h ∈ due ↔ Due start events now h) ∧ Evicts r due (r.sweep now).1 (r.sweep now).2) ∧
    ∀ h ∈ start.sessions events, ∀ c, r.reached? h = some c →
      ∀ more, (r.run more).reached? h = some c ↔ ∀ e ∈ more, ¬e.Ends h := by
  intro start r
  have ht : Tracked r (start.history events) (start.sessions events) (start.uses events) :=
    (tracked_empty idleTimeout).run events
  constructor
  · intro now
    refine ⟨(r.slotsWhere (r.isIdle now)).map r.handleAt, sorted_handleAt_slotsWhere r _,
      fun h => ?_, ht.good.evicts_sweep now⟩
    rw [mem_handleAt_slotsWhere]
    exact (due_iff start events ht now h).symm
  · intro h hmem c hc more
    have hlive : Live (start.history events) h c := ht.good.reached?_iff.1 hc
    rw [(ht.good.run more).reached?_iff, ht.live_run hmem]
    exact and_iff_right hlive

end Schemata.Registry
