import Schemata.Fault
import Schemata.Plan.Instant

/-!
# Sequence clocks

A clock hands out ticks, counted from zero, each with the moment that lies that many steps after the
base of the clock. The moments, not the ticks, make up the names of generated files.
-/

namespace Schemata

/-- A tick and its moment. -/
structure Stamp where
  tick : Nat
  instant : Instant
  deriving DecidableEq

/-- The text that a stamp puts in front of a file name. -/
def Stamp.token (s : Stamp) : String := s.instant.civil.token

/-- A base and the seconds from tick to tick. -/
structure Clock where
  base : Instant
  step : Nat
  step_pos : 0 < step
  deriving DecidableEq

namespace Clock

/-- A clock, if its step is positive. -/
def start (base : Instant) (step : Int) : Except Fault Clock :=
  if h : 0 < step.toNat then .ok ⟨base, step.toNat, h⟩ else .error .badStep

/-- The stamp of a tick, if its moment is in the calendar. -/
def stamp (c : Clock) (tick : Nat) : Except Fault Stamp :=
  match Instant.ofSeconds? (c.base.seconds + tick * c.step) with
  | some i => .ok ⟨tick, i⟩
  | none => .error .instantOutOfRange

/-- The values of a list, each with a stamp, the first with a given tick. -/
def stampFrom {α : Type} (c : Clock) (tick : Nat) : List α → Except Fault (List (α × Stamp))
  | [] => .ok []
  | x :: r => do
    let s ← c.stamp tick
    return (x, s) :: (← c.stampFrom (tick + 1) r)

theorem tick_of_stamp {c : Clock} {n : Nat} {s : Stamp} (h : c.stamp n = .ok s) : s.tick = n := by
  unfold stamp at h
  split at h
  · cases h; rfl
  · cases h

end Clock

end Schemata
