import Mathlib.Logic.Relation
import Schemata.Proofs.Dependency.Cycle

/-!
# Graphs without cycles

A search for a cycle ends for every list of nodes and all successors, which may stand twice, lead back
to their own node or be no nodes of the graph. It has no answer exactly when no node leads back to
itself along the edges between the nodes (`cycle?_spec`). One direction follows from the order in which
the nodes are finished: what lies on a closed way is a ring, and no ring is ever finished. The other
one walks once around the cycle that is the answer.
-/

namespace Schemata.Graph

variable {nodes : List String} {a : Adjacency}

/-- An edge of the graph on some nodes. -/
def Leads (nodes : List String) (a : Adjacency) (x y : String) : Prop :=
  x ∈ nodes ∧ y ∈ nodes ∧ y ∈ a.of x

/-- A node of a cycle leads back to itself. -/
theorem IsCycle.exists_transGen {c : List String} (h : IsCycle nodes a c) :
    ∃ x, Relation.TransGen (Leads nodes a) x x := by
  have hchain : c.IsChain (Leads nodes a) :=
    h.chain.imp_of_mem_imp fun x y hx hy hxy => ⟨h.subset hx, h.subset hy, hxy⟩
  have hlast : Leads nodes a (c.getLast h.ne_nil) (c.head h.ne_nil) :=
    ⟨h.subset (List.getLast_mem h.ne_nil), h.subset (List.head_mem h.ne_nil),
      h.closed _ (List.getLast_mem_getLast? h.ne_nil) _ (List.head_mem_head? h.ne_nil)⟩
  exact ⟨_, .tail' (List.relationReflTransGen_of_exists_isChain c hchain h.ne_nil) hlast⟩

/-- Nodes that can be finished lie on no closed way. -/
theorem Finished.not_transGen {fin : List String} (hfin : Finished nodes a fin) (hall : nodes ⊆ fin)
    (x : String) : ¬Relation.TransGen (Leads nodes a) x x := by
  classical
  intro hx
  -- the nodes that lead back to themselves are a ring
  obtain ⟨ring, hmem⟩ : ∃ ring : List String,
      ∀ y, y ∈ ring ↔ y ∈ nodes ∧ Relation.TransGen (Leads nodes a) y y :=
    ⟨nodes.filter fun y => Relation.TransGen (Leads nodes a) y y, fun y => by simp⟩
  have hring : ∀ y ∈ ring, ∃ z ∈ ring, z ∈ nodes ∧ z ∈ a.of y := by
    intro y hy
    obtain ⟨z, hyz, hzy⟩ := Relation.TransGen.head'_iff.1 ((hmem y).1 hy).2
    exact ⟨z, (hmem z).2 ⟨hyz.2.1, .tail' hzy hyz⟩, hyz.2.1, hyz.2.2⟩
  obtain ⟨y, hxy, -⟩ := Relation.TransGen.head'_iff.1 hx
  exact hfin.notMem_of_ring hring x ((hmem x).2 ⟨hxy.1, hx⟩) (hall hxy.1)

/-- A search has no answer exactly when the graph on the nodes has no cycle, and its answer is a cycle:
different nodes, each of which leads to the next one and the last to the first. -/
theorem cycle?_spec (nodes : List String) (a : Adjacency) :
    (cycle? nodes a = none ↔ ∀ x, ¬Relation.TransGen (Leads nodes a) x x) ∧
      ∀ c, cycle? nodes a = some c → IsCycle nodes a c := by
  refine ⟨⟨fun hnone => ?_, fun hacyclic => ?_⟩, fun c => isCycle_of_cycle?⟩
  · obtain ⟨fin, hfin, hall⟩ := finished_of_cycle?_eq_none hnone
    exact hfin.not_transGen hall
  · cases hc : cycle? nodes a with
    | none => rfl
    | some c =>
      obtain ⟨x, hx⟩ := (isCycle_of_cycle? hc).exists_transGen
      exact absurd hx (hacyclic x)

/-- Of the way over `a`, `b` and `c` only the node that leads back to itself is left; `z` is no node. -/
example : cycle? ["a", "b", "c"] [("a", ["z", "b", "b"]), ("b", ["c"]), ("c", ["c", "a"])] =
    some ["c"] := by cbv

end Schemata.Graph
