/-!
# Orders of a graph

Every node of a graph may need others to come first. `Kahn.order` counts for each node how many of
them are missing. The nodes that miss none stand in a queue, the one with the least position in
front; the first of the queue comes next, and is taken off the count of each of its dependents. A
node whose count comes down to zero joins the queue. Nodes that never join it are left out.
-/

namespace Schemata.Kahn

/-- Nodes with their positions, the least position first. -/
abbrev Queue := List (Nat × String)

def Queue.push : Queue → Nat × String → Queue
  | [], entry => [entry]
  | e :: q, entry => if entry.1 ≤ e.1 then entry :: e :: q else e :: push q entry

theorem Queue.length_push (q : Queue) (entry : Nat × String) :
    (q.push entry).length = q.length + 1 := by
  induction q with
  | nil => rfl
  | cons e q ih =>
    rw [push]
    split
    · rfl
    · rw [List.length_cons, ih, List.length_cons]

def Queue.ofNodes (position : String → Nat) (nodes : List String) : Queue :=
  (nodes.map fun x => (position x, x)).foldl push []

/-- How many of the nodes that a node needs are missing. -/
abbrev Counts := List (String × Int)

/-- Takes one off the count of a node. -/
def Counts.lower (x : String) : Counts → Counts :=
  List.map fun (y, n) => (y, if y = x then n - 1 else n)

def Counts.total : Counts → Nat
  | [] => 0
  | e :: c => e.2.toNat + total c

@[simp] theorem Counts.lower_cons (x y : String) (n : Int) (c : Counts) :
    Counts.lower x ((y, n) :: c) = (y, if y = x then n - 1 else n) :: Counts.lower x c := rfl

@[simp] theorem Counts.total_cons (e : String × Int) (c : Counts) :
    Counts.total (e :: c) = e.2.toNat + c.total := rfl

theorem Counts.total_lower_le (x : String) (c : Counts) : (c.lower x).total ≤ c.total := by
  induction c with
  | nil => exact Nat.le_refl _
  | cons e c ih =>
    rw [lower_cons, total_cons, total_cons]
    split <;> omega

/-- A count that comes down to zero was part of the total. -/
theorem Counts.total_lower_lt {x : String} {c : Counts} (h : (c.lower x).lookup x = some 0) :
    (c.lower x).total < c.total := by
  induction c with
  | nil => cases h
  | cons e c ih =>
    obtain ⟨y, n⟩ := e
    rw [lower_cons, total_cons, total_cons]
    rw [lower_cons, List.lookup_cons] at h
    by_cases hy : y = x
    · subst hy
      have hle := total_lower_le y c
      simp only [beq_self_eq_true, if_true, Option.some.injEq] at h ⊢
      omega
    · have hx : (x == y) = false := beq_eq_false_iff_ne.2 (Ne.symm hy)
      rw [hx] at h
      have hlt := ih h
      simp only [hy, if_false]
      omega

/-- The counts and the queue of a search, and the order found so far. -/
structure State where
  counts : Counts
  queue : Queue
  ordered : List String

namespace State

/-- Takes a node off the count of a dependent, which joins the queue if nothing else is missing. -/
def release (position : String → Nat) (s : State) (dependent : String) : State :=
  let counts := s.counts.lower dependent
  if counts.lookup dependent = some 0 then
    { s with counts, queue := s.queue.push (position dependent, dependent) }
  else { s with counts }

def work (s : State) : Nat := s.counts.total + s.queue.length

theorem work_release_le (position : String → Nat) (s : State) (x : String) :
    (s.release position x).work ≤ s.work := by
  unfold release
  simp only
  split
  · next h =>
    have hlt := Counts.total_lower_lt h
    simp only [work, Queue.length_push]
    omega
  · exact Nat.add_le_add_right (Counts.total_lower_le x s.counts) _

theorem work_foldl_release_le (position : String → Nat) (l : List String) (s : State) :
    (l.foldl (release position) s).work ≤ s.work := by
  induction l generalizing s with
  | nil => exact Nat.le_refl _
  | cons x l ih => exact Nat.le_trans (ih _) (work_release_le position s x)

/-- Brings out the first of the queue and releases its dependents, until the queue is empty. -/
def run (position : String → Nat) (dependents : String → List String) : State → State
  | ⟨counts, [], ordered⟩ => ⟨counts, [], ordered⟩
  | ⟨counts, (_, x) :: queue, ordered⟩ =>
    run position dependents
      ((dependents x).foldl (release position) ⟨counts, queue, ordered ++ [x]⟩)
termination_by s => s.work
decreasing_by
  refine Nat.lt_of_le_of_lt (work_foldl_release_le position _ _) ?_
  simp [work]

end State

/-- Where an order starts: the nodes that need no others stand in the queue. -/
def start (position : String → Nat) (nodes : List String) (needs : String → List String) : State :=
  let counts : Counts := nodes.map fun x => (x, (needs x).length)
  ⟨counts, .ofNodes position ((counts.filter (·.2 = 0)).map (·.1)), []⟩

/-- The nodes, each after those that it needs, and otherwise by their positions. -/
def order (position : String → Nat) (nodes : List String) (needs dependents : String → List String) :
    List String :=
  ((start position nodes needs).run position dependents).ordered

end Schemata.Kahn
