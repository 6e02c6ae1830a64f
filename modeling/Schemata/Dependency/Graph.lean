/-!
# Cycles in a graph

A depth-first search that follows successors in their order. `Graph.cycle?` gives the first cycle it
closes, as the nodes from its first one on the way to the one that leads back. Successors that are
no nodes of the graph are passed over.
-/

namespace Schemata.Graph

abbrev Adjacency := List (String × List String)

/-- The successors of a node. -/
def Adjacency.of (a : Adjacency) (node : String) : List String := (a.lookup node).getD []

/-- The way from a root to the current node, the current node first, each with the successors that
are still to be followed. -/
abbrev Path := List (String × List String)

/-- The nodes of a path from its root on. -/
def Path.nodes (p : Path) : List String := (p.map (·.1)).reverse

/-- The work that is left on a path. -/
def Path.work : Path → Nat
  | [] => 0
  | (_, successors) :: rest => successors.length + 1 + work rest

/-- How many nodes have not been seen. -/
def unseen (nodes seen : List String) : Nat := nodes.countP (· ∉ seen)

theorem unseen_cons_le (l : List String) (c : String) (seen : List String) :
    unseen l (c :: seen) ≤ unseen l seen := by
  apply List.countP_mono_left
  intro x _ hx
  simp_all

theorem unseen_cons (x : String) (l seen : List String) :
    unseen (x :: l) seen = unseen l seen + if x ∈ seen then 0 else 1 := by
  unfold unseen
  rw [List.countP_cons]
  by_cases h : x ∈ seen <;> simp [h]

/-- Seeing a node leaves fewer nodes to be seen. -/
theorem unseen_cons_lt {nodes seen : List String} {c : String} (hc : c ∈ nodes) (hs : c ∉ seen) :
    unseen nodes (c :: seen) < unseen nodes seen := by
  induction nodes with
  | nil => simp at hc
  | cons x r ih =>
    rw [unseen_cons, unseen_cons]
    by_cases hx : x = c
    · subst hx
      have h := unseen_cons_le r x seen
      simp [hs]
      omega
    · have hr : c ∈ r := by
        rcases List.mem_cons.1 hc with h | h
        · exact absurd h.symm hx
        · exact h
      have h := ih hr
      simp [hx]
      omega

/-- How a search from one root ends. -/
inductive Outcome
  | cycle (nodes : List String)
  | done (seen : List String)

/-- Follows a path to its end: to a cycle, or until all that can be reached has been seen. -/
def walk (nodes : List String) (a : Adjacency) (seen : List String) (path : Path) : Outcome :=
  match path with
  | [] => .done seen
  | (_, []) :: rest => walk nodes a seen rest
  | (n, c :: cs) :: rest =>
    if c ∈ path.nodes then .cycle (path.nodes.dropWhile (· ≠ c))
    else if _h : c ∈ nodes ∧ c ∉ seen then
      walk nodes a (c :: seen) ((c, a.of c) :: (n, cs) :: rest)
    else walk nodes a seen ((n, cs) :: rest)
termination_by (unseen nodes seen, path.work)
decreasing_by
  · apply Prod.Lex.right; simp [Path.work]
  · apply Prod.Lex.left; exact unseen_cons_lt _h.1 _h.2
  · apply Prod.Lex.right; simp [Path.work]

/-- Searches from each root that has not been seen. -/
def search (nodes : List String) (a : Adjacency) (seen : List String) :
    (roots : List String) → Option (List String)
  | [] => none
  | r :: rest =>
    if r ∈ seen then search nodes a seen rest
    else
      match walk nodes a (r :: seen) [(r, a.of r)] with
      | .cycle c => some c
      | .done seen => search nodes a seen rest

/-- The first cycle that a search from the nodes in their order closes. -/
def cycle? (nodes : List String) (a : Adjacency) : Option (List String) := search nodes a [] nodes

end Schemata.Graph
