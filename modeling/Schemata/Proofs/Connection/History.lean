import Mathlib.Data.List.Induction
import Mathlib.Data.List.Nodup
import Mathlib.Tactic.Common
import Schemata.Connection.Registry

/-!
# Histories of a registry

A run of events leads a registry from state to state and writes a history: which handle was issued
for which connection, and which slots were vacated. A handle is `Live` in a history if it was issued
there and its slot has not been vacated since.
-/

namespace Schemata.Registry

variable {C : Type}

/-- A call of a registry. What comes of connecting is part of the call. -/
inductive Event (C : Type)
  | add (connected : Except Failure C) (label : String) (now : Rat)
  | enter (connected : Except Failure C) (label : String) (now : Rat)
  | get (h : Handle) (now : Rat)
  | release (h : Handle)
  | leave (h : Handle)
  | sweep (now : Rat)
  | closeAll

/-- A line of a history. -/
inductive Entry (C : Type)
  | issued (h : Handle) (c : C)
  | vacated (slot : Nat)

/-- The registry after a call. -/
def step (r : Registry C) : Event C → Registry C
  | .add (.ok c) label now => (r.add c label now).2
  | .enter (.ok c) label now => (r.enter c label now).2
  | .add (.error _) _ _ | .enter (.error _) _ _ => r
  | .get h now => (r.get h now).toOption.elim r (·.2)
  | .release h => (r.release h).2
  | .leave h => r.leave h
  | .sweep now => (r.sweep now).2
  | .closeAll => r.closeAll.2

/-- What a call adds to the history. -/
def entries (r : Registry C) : Event C → List (Entry C)
  | .add (.ok c) label now => [.issued (r.add c label now).1 c]
  | .enter (.ok c) label now => [.issued (r.enter c label now).1 c]
  | .add (.error _) _ _ | .enter (.error _) _ _ | .get _ _ => []
  | .release h | .leave h => if (r.release h).1 then [.vacated h.slot.toNat] else []
  | .sweep now => (r.slotsWhere (r.isIdle now)).map .vacated
  | .closeAll => (r.slotsWhere fun _ => true).map .vacated

/-- The registry after some calls. -/
def run (r : Registry C) (events : List (Event C)) : Registry C := events.foldl step r

/-- The history of some calls. -/
def history (r : Registry C) : List (Event C) → List (Entry C)
  | [] => []
  | e :: events => r.entries e ++ (r.step e).history events

/-- The handle of a line that issues one. -/
def Entry.handle? : Entry C → Option Handle
  | .issued h _ => some h
  | .vacated _ => none

/-- The handles that were issued, in order. -/
def handles (log : List (Entry C)) : List Handle := log.filterMap Entry.handle?

theorem handles_append (log more : List (Entry C)) :
    handles (log ++ more) = handles log ++ handles more := List.filterMap_append

theorem mem_handles {log : List (Entry C)} {h : Handle} :
    h ∈ handles log ↔ ∃ c, .issued h c ∈ log := by
  unfold handles
  rw [List.mem_filterMap]
  constructor
  · rintro ⟨e, he, heh⟩
    cases e with
    | issued k c =>
      cases heh
      exact ⟨c, he⟩
    | vacated slot => cases heh
  · rintro ⟨c, hc⟩
    exact ⟨.issued h c, hc, rfl⟩

/-- A handle that was issued for a connection, and whose slot was not vacated after that. -/
def Live (log : List (Entry C)) (h : Handle) (c : C) : Prop :=
  ∃ before after, log = before ++ .issued h c :: after ∧
    ∀ slot : Nat, .vacated slot ∈ after → h.slot ≠ slot

theorem live_append_singleton {log : List (Entry C)} {e : Entry C} {h : Handle} {c : C} :
    Live (log ++ [e]) h c ↔
      (Live log h c ∧ ∀ slot : Nat, e = .vacated slot → h.slot ≠ slot) ∨ e = .issued h c := by
  constructor
  · rintro ⟨before, after, hlog, hafter⟩
    rcases List.eq_nil_or_concat after with rfl | ⟨after, z, rfl⟩
    · exact .inr (List.singleton_inj.1 (List.append_inj' hlog rfl).2)
    · rw [List.concat_eq_append] at hafter hlog
      rw [← List.cons_append, ← List.append_assoc] at hlog
      obtain ⟨rfl, hz⟩ := List.append_inj' hlog rfl
      obtain rfl := List.singleton_inj.1 hz
      refine .inl ⟨⟨before, after, rfl, fun slot hslot => ?_⟩, fun slot he => ?_⟩
      · exact hafter slot (List.mem_append_left _ hslot)
      · exact hafter slot (he ▸ List.mem_append_right _ (List.mem_singleton_self _))
  · rintro (⟨⟨before, after, rfl, hafter⟩, he⟩ | rfl)
    · refine ⟨before, after ++ [e], by simp, fun slot hslot => ?_⟩
      rcases List.mem_append.1 hslot with hslot | hslot
      · exact hafter slot hslot
      · exact he slot (List.mem_singleton.1 hslot).symm
    · exact ⟨log, [], rfl, fun _ hslot => absurd hslot List.not_mem_nil⟩

theorem live_append_issued {log : List (Entry C)} {h k : Handle} {c d : C} :
    Live (log ++ [.issued k d]) h c ↔ Live log h c ∨ (h = k ∧ c = d) := by
  rw [live_append_singleton, Entry.issued.injEq]
  simp [eq_comm]

theorem live_append_vacated {log : List (Entry C)} {h : Handle} {c : C} {slot : Nat} :
    Live (log ++ [.vacated slot]) h c ↔ Live log h c ∧ h.slot ≠ slot := by
  rw [live_append_singleton]
  simp

/-- A handle that is live was live before, or it was issued since. -/
theorem Live.of_append {log more : List (Entry C)} {h : Handle} {c : C}
    (hl : Live (log ++ more) h c) : Live log h c ∨ .issued h c ∈ more := by
  induction more using List.reverseRecOn with
  | nil => exact .inl ((List.append_nil log) ▸ hl)
  | append_singleton more e ih =>
    rw [← List.append_assoc, live_append_singleton] at hl
    rcases hl with ⟨hl, -⟩ | rfl
    · exact (ih hl).imp_right (List.mem_append_left _)
    · exact .inr (List.mem_append_right _ (List.mem_singleton_self _))

end Schemata.Registry
