import Schemata.Connection.Failure
import Schemata.Number.Binary64

/-!
# Registries of open connections

A registry keeps connections in numbered slots. A handle names a slot and the generation in which it
was given out; when a slot is vacated its generation goes up, so that no handle given out before can
reach what is stored there later. Free slots are used again, lowest first. A sweep vacates the slots
that have been idle for too long, except those that a session holds. Times are in seconds; the clock
reads double-precision numbers, which are given here by their values, and the time between two readings
is their rounded difference.
-/

namespace Schemata

/-- A stored connection. -/
structure Occupant (C : Type) where
  connection : C
  label : String
  lastUsed : Rat
  /-- How many sessions hold the connection. -/
  checkouts : Nat := 0
  deriving DecidableEq

/-- A slot; its generation counts how often it was vacated. -/
structure Slot (C : Type) where
  generation : Nat := 0
  occupant : Option (Occupant C) := none
  deriving DecidableEq

/-- The connections that are open, and what has become of the others. -/
structure Registry (C : Type) where
  idleTimeout : Rat
  slots : List (Slot C) := []
  /-- The vacant slots in ascending order. -/
  free : List Nat := []
  opened : Nat := 0
  released : Nat := 0
  swept : Nat := 0
  /-- The connections that were closed, in order. -/
  closed : List C := []

namespace Registry

variable {C : Type}

def occupants (r : Registry C) : List (Occupant C) := r.slots.filterMap (·.occupant)

def active (r : Registry C) : Nat := r.occupants.length

/-- Puts a number into its place in an ascending list. -/
def insertAscending (n : Nat) : List Nat → List Nat
  | [] => [n]
  | m :: ms => if n ≤ m then n :: m :: ms else m :: insertAscending n ms

/-- Stores a connection in the lowest free slot, or else in a new one. -/
def add (r : Registry C) (c : C) (label : String) (now : Rat) : Handle × Registry C :=
  let o : Occupant C := { connection := c, label, lastUsed := now }
  match r.free with
  | i :: rest =>
    let generation : Nat := (r.slots[i]?.map (·.generation)).getD 0
    (⟨i, generation⟩, { r with
      slots := r.slots.set i ⟨generation, some o⟩, free := rest, opened := r.opened + 1 })
  | [] =>
    (⟨r.slots.length, 0⟩, { r with slots := r.slots ++ [⟨0, some o⟩], opened := r.opened + 1 })

/-- The slot that a handle names and what is stored there, if the handle is still good. -/
def find (r : Registry C) (h : Handle) : Except Failure (Nat × Occupant C) :=
  match if 0 ≤ h.slot then r.slots[h.slot.toNat]? else none with
  | none => .error (.unknownHandle h)
  | some s =>
    match s.occupant with
    | some o =>
      if h.generation = s.generation then .ok (h.slot.toNat, o)
      else .error (.staleHandle h s.generation)
    | none => .error (.staleHandle h s.generation)

def modifyOccupant (r : Registry C) (i : Nat) (f : Occupant C → Occupant C) : Registry C :=
  { r with slots := r.slots.modify i fun s => { s with occupant := s.occupant.map f } }

/-- The connection that a handle names; it counts as used. -/
def get (r : Registry C) (h : Handle) (now : Rat) : Except Failure (C × Registry C) := do
  let (i, o) ← r.find h
  return (o.connection, r.modifyOccupant i fun o => { o with lastUsed := now })

/-- Vacates a slot and closes the connection that was stored there. -/
def vacate (r : Registry C) (i : Nat) : Registry C :=
  match r.slots[i]? with
  | some ⟨generation, some o⟩ =>
    { r with
      slots := r.slots.set i ⟨generation + 1, none⟩, free := insertAscending i r.free
      closed := r.closed ++ [o.connection] }
  | _ => r

/-- Closes the connection that a handle names; says whether the handle was still good. -/
def release (r : Registry C) (h : Handle) : Bool × Registry C :=
  match r.find h with
  | .ok (i, _) => (true, { r.vacate i with released := r.released + 1 })
  | .error _ => (false, r)

/-! ## Sessions -/

/-- Stores a connection for a session, which holds it until it leaves. -/
def enter (r : Registry C) (c : C) (label : String) (now : Rat) : Handle × Registry C :=
  let (h, r) := r.add c label now
  (h, r.modifyOccupant h.slot.toNat fun o =>
    { o with checkouts := o.checkouts + 1, lastUsed := now })

/-- Ends the session that a handle was given to. -/
def leave (r : Registry C) (h : Handle) : Registry C := (r.release h).2

/-! ## Many slots at once -/

/-- The slots that hold a connection of some kind, in order. -/
def slotsWhere (r : Registry C) (p : Occupant C → Bool) : List Nat :=
  (List.range r.slots.length).filter fun i => (r.slots[i]?.bind (·.occupant)).any p

def vacateAll (r : Registry C) (slots : List Nat) : Registry C := slots.foldl vacate r

/-- The time between two readings of the clock: the double-precision number that is nearest to the
difference. A difference that is too large for one is left as it is. -/
def elapsed (now since : Rat) : Rat := ((Binary64.ofRat (now - since)).toRat?).getD (now - since)

/-- Whether a connection that no session holds was last used too long ago. -/
def isIdle (r : Registry C) (now : Rat) (o : Occupant C) : Bool :=
  o.checkouts = 0 && r.idleTimeout < elapsed now o.lastUsed

/-- Closes the connections that are idle; gives their number. -/
def sweep (r : Registry C) (now : Rat) : Nat × Registry C :=
  let idle := r.slotsWhere (r.isIdle now)
  (idle.length, { r.vacateAll idle with swept := r.swept + idle.length })

/-- Sweeps some times. -/
def sweepRounds (r : Registry C) (now : Rat) : (rounds : Nat) → Registry C
  | 0 => r
  | n + 1 => (r.sweep now).2.sweepRounds now n

def closeAll (r : Registry C) : Nat × Registry C :=
  let occupied := r.slotsWhere fun _ => true
  (occupied.length, { r.vacateAll occupied with released := r.released + occupied.length })

/-! ## Statistics -/

/-- The longest time since a use of an open connection; zero if none is open. -/
def oldestIdle (r : Registry C) (now : Rat) : Rat :=
  match r.occupants.map fun o => elapsed now o.lastUsed with
  | [] => 0
  | t :: ts => ts.foldl (fun longest t => if longest < t then t else longest) t

/-- How many connections are open with each label, in the order of the slots. -/
def byLabel (r : Registry C) : List (String × Nat) :=
  let labels := r.occupants.map (·.label)
  labels.eraseDups.map fun l => (l, labels.count l)

end Registry

/-! ## The sweeper -/

/-- A background task that sweeps a registry from time to time; there is at most one. -/
structure Sweeper where
  /-- The number of the running task. -/
  running : Option Nat := none
  started : Nat := 0

namespace Sweeper

def taskName : String := "connection-sweeper"

/-- The task does not keep a program from ending. -/
def isDaemon : Bool := true

def start (s : Sweeper) : Sweeper :=
  if s.running.isSome then s else ⟨some s.started, s.started + 1⟩

def stop (s : Sweeper) : Sweeper := { s with running := none }

end Sweeper

end Schemata
