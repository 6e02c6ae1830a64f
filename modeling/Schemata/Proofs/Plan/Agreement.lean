import Schemata.Proofs.Dependency.Resolve
import Schemata.Proofs.Plan.Order

/-!
# Cycles and orders agree

A depth-first search over all tables and Kahn's loop over those that hold keys look at different
graphs. Every cycle of the first lies in the second, because a table that leads to another one holds a
key; so its tables are never ordered. When there is no cycle, the nodes have a finished order, and a
table that Kahn's loop left out would need one that comes later in it and was left out as well.
-/

namespace Schemata.Plan

open Schemata.Graph (Finished IsCycle)

/-- Every table of a cycle holds keys, and needs another one of the cycle. -/
theorem exists_needs_of_isCycle {s : Schema} {edges : List Edge} {c : List String}
    (hc : IsCycle (s.tables.map (·.id)) (Edge.graph edges) c) {x : String} (hx : x ∈ c) :
    x ∈ (Groups.ofEdges edges).owners ∧ ∃ y ∈ (Groups.ofEdges edges).needs x, y ∈ c := by
  have howner : ∀ z ∈ c, ∃ e ∈ edges, e.owner.id = z := by
    intro z hz
    obtain ⟨y, _, hy⟩ := hc.exists_succ hz
    obtain ⟨_, e, he, ho, _⟩ := Edge.mem_of_graph.1 hy
    exact ⟨e, he, ho⟩
  obtain ⟨y, hy, hxy⟩ := hc.exists_succ hx
  obtain ⟨hne, hedge⟩ := Edge.mem_of_graph.1 hxy
  exact ⟨Groups.mem_owners_ofEdges.2 (howner x hx), y,
    Groups.mem_needs_ofEdges.2 ⟨Ne.symm hne, howner y hy, hedge⟩, hy⟩

section

variable {s : Schema} {edges : List Edge} (hfits : s.Fits edges)

include hfits

theorem owner_mem_of_fits : ∀ e ∈ edges, ∃ t ∈ s.tables, t.id = e.owner.id := fun e he =>
  ⟨e.owner, (hfits.ends_mem e he).1, rfl⟩

theorem checkEnds_of_fits : checkEnds s.tables edges = .ok () :=
  checkEnds_eq_ok.2 fun e he =>
    ⟨⟨e.owner, (hfits.ends_mem e he).1, rfl⟩, ⟨e.target, (hfits.ends_mem e he).2, rfl⟩⟩

variable {arrange : String → List String → List String}
  (harrange : ∀ id l, (arrange id l).Perm l)

include harrange

/-- No table of a cycle can be attached. -/
theorem notMem_attachable_of_isCycle {c : List String}
    (hc : IsCycle (s.tables.map (·.id)) (Edge.graph edges) c) :
    ∀ x ∈ c, x ∉ attachable arrange s.tables (.ofEdges edges) :=
  (Kahn.greedy_order (graph_ofEdges s.nodup_tables (owner_mem_of_fits hfits) harrange)).notMem_of_ring
    fun _ hx => (exists_needs_of_isCycle hc hx).2

/-- All owners that are finished can be attached. -/
theorem mem_attachable_of_finished {fin : List String}
    (hfin : Finished (s.tables.map (·.id)) (Edge.graph edges) fin) :
    ∀ x ∈ fin, x ∈ (Groups.ofEdges edges).owners →
      x ∈ attachable arrange s.tables (.ofEdges edges) := by
  have hin := owner_mem_of_fits hfits
  induction fin with
  | nil => exact fun x hx => absurd hx List.not_mem_nil
  | cons z fin ih =>
    intro x hx howner
    rcases List.mem_cons.1 hx with rfl | hx
    · by_contra hleft
      obtain ⟨y, hy, hyleft⟩ := Kahn.exists_needs_of_notMem_order
        (graph_ofEdges s.nodup_tables hin harrange) howner hleft
      obtain ⟨hne, ⟨f, hf, hfy⟩, hedge⟩ := Groups.mem_needs_ofEdges.1 hy
      obtain ⟨t, ht, hid⟩ := hin f hf
      have hnode : y ∈ s.tables.map (·.id) := List.mem_map.2 ⟨t, ht, hid.trans hfy⟩
      have hyfin := hfin.1 y (Edge.mem_of_graph.2 ⟨Ne.symm hne, hedge⟩) hnode
      exact hyleft (ih hfin.2 y hyfin (Groups.mem_owners_ofEdges.2 ⟨f, hf, hfy⟩))
    · exact ih hfin.2 x hx howner

/-- The order is complete when there is no cycle. -/
theorem length_attachable_iff :
    (attachable arrange s.tables (.ofEdges edges)).length = (Groups.ofEdges edges).length ↔
      s.cycle? edges = none := by
  have hin := owner_mem_of_fits hfits
  have hg := graph_ofEdges s.nodup_tables hin harrange
  constructor
  · intro hlen
    cases hc : s.cycle? edges with
    | none => rfl
    | some c =>
      have hcycle := Graph.isCycle_of_cycle? hc
      obtain ⟨x, hx⟩ := List.exists_mem_of_ne_nil c hcycle.ne_nil
      have howner := (exists_needs_of_isCycle hcycle hx).1
      have hmem := (perm_owners_of_length s.nodup_tables hin harrange hlen).mem_iff.2 howner
      exact absurd hmem (notMem_attachable_of_isCycle hfits harrange hcycle x hx)
  · intro hnone
    obtain ⟨fin, hfin, hall⟩ := Graph.finished_of_cycle?_eq_none hnone
    have hsub : (Groups.ofEdges edges).owners ⊆ attachable arrange s.tables (.ofEdges edges) := by
      intro x hx
      obtain ⟨e, he, rfl⟩ := Groups.mem_owners_ofEdges.1 hx
      refine mem_attachable_of_finished hfits harrange hfin _ (hall ?_) hx
      exact List.mem_map_of_mem (hfits.ends_mem e he).1
    have hgreedy := Kahn.greedy_order hg
    have hle := (List.subperm_of_subset hgreedy.nodup hgreedy.subset_nodes).length_le
    have hge := (List.subperm_of_subset hg.nodup_nodes hsub).length_le
    rw [Groups.length_ofEdges]
    exact Nat.le_antisymm hle hge

/-- The order fails exactly when there is a cycle. -/
theorem attachOrder_of_fits : attachOrder arrange s.tables (.ofEdges edges) =
    if s.cycle? edges = none then .ok (attachable arrange s.tables (.ofEdges edges))
    else .error (.unorderable ((tablesOf s.tables (stuck s.tables (.ofEdges edges)
      (attachable arrange s.tables (.ofEdges edges)))).map (·.name))) := by
  unfold attachOrder
  simp only [length_attachable_iff hfits harrange]

/-- The tables of a cycle are among those that the order leaves out. -/
theorem ring_subset_stuck {c : List String} (hc : s.cycle? edges = some c) :
    c.filterMap s.tableById? ≠ [] ∧
      c.filterMap s.tableById? ⊆ tablesOf s.tables (stuck s.tables (.ofEdges edges)
        (attachable arrange s.tables (.ofEdges edges))) := by
  have hcycle := Graph.isCycle_of_cycle? hc
  constructor
  · obtain ⟨x, hx⟩ := List.exists_mem_of_ne_nil c hcycle.ne_nil
    obtain ⟨t, ht, rfl⟩ := List.mem_map.1 (hcycle.subset hx)
    have hsome : (s.tableById? t.id).isSome = true :=
      List.find?_isSome.2 ⟨t, ht, decide_eq_true rfl⟩
    obtain ⟨u, hu⟩ := Option.isSome_iff_exists.1 hsome
    exact List.ne_nil_of_mem (List.mem_filterMap.2 ⟨t.id, hx, hu⟩)
  · intro t ht
    obtain ⟨id, hid, ht⟩ := List.mem_filterMap.1 ht
    have hmem : t ∈ s.tables := List.mem_of_find?_eq_some ht
    have hfound := List.find?_some ht
    obtain rfl : t.id = id := of_decide_eq_true hfound
    refine List.mem_filterMap.2 ⟨t.id, ?_, ?_⟩
    · rw [stuck, Kahn.Queue.mem_ofNodes, List.mem_filter]
      exact ⟨(exists_needs_of_isCycle hcycle hid).1,
        decide_eq_true (notMem_attachable_of_isCycle hfits harrange hcycle t.id hid)⟩
    · rw [(find?_of_mem s.nodup_tables hmem).1]
      rfl

end

/-- Resolving a schema whose references fit breaks off at a cycle exactly when the attachments cannot
be ordered, and then the order leaves out all tables of the cycle. So a plan for a schema that has
been resolved can only fail for its clock. -/
theorem circular_iff_unorderable (s : Schema) {arrange : String → List String → List String}
    (harrange : ∀ id l, (arrange id l).Perm l) :
    (∀ edges, s.Fits edges →
      ((∃ path, s.resolve.outcome = .error (.circular path)) ↔
        ∃ names, attachOrder arrange s.tables (.ofEdges edges) = .error (.unorderable names)) ∧
      ∀ path names, s.resolve.outcome = .error (.circular path) →
        attachOrder arrange s.tables (.ofEdges edges) = .error (.unorderable names) →
        ∃ ring stuck : List Table, path = ring.map (·.name) ∧ names = stuck.map (·.name) ∧
          ring ≠ [] ∧ ring ⊆ stuck) ∧
    ∀ edges, s.resolve.outcome = .ok edges → ∀ base step f,
      orderBy arrange s.tables edges base step = .error f →
        f = .badStep ∨ f = .instantOutOfRange := by
  refine ⟨fun edges hfits => ?_, fun edges hok base step f hf => ?_⟩
  · have hresolve := Schema.outcome_resolve hfits
    have hattach := attachOrder_of_fits hfits harrange
    cases hc : s.cycle? edges with
    | none =>
      rw [hc] at hresolve
      rw [if_pos hc] at hattach
      simp [hresolve, hattach]
    | some c =>
      rw [hc] at hresolve
      rw [if_neg (by simp [hc])] at hattach
      refine ⟨⟨fun _ => ⟨_, hattach⟩, fun _ => ⟨_, hresolve⟩⟩, fun path names hp hn => ?_⟩
      rw [hresolve, Except.error.injEq, Fault.circular.injEq] at hp
      rw [hattach, Except.error.injEq, Fault.unorderable.injEq] at hn
      obtain ⟨hne, hsub⟩ := ring_subset_stuck hfits harrange hc
      refine ⟨_, _, ?_, hn.symm, hne, hsub⟩
      rw [← hp, List.map_filterMap]
      rfl
  · have hfits := Schema.fits_of_resolve hok
    have hnone : s.cycle? edges = none := by
      cases hc : s.cycle? edges with
      | none => rfl
      | some c =>
        rw [Schema.outcome_resolve hfits, hc] at hok
        cases hok
    have hattach := attachOrder_of_fits hfits harrange
    rw [if_pos hnone] at hattach
    unfold orderBy at hf
    obtain hf | ⟨c, _, hf⟩ := bind_eq_error.1 hf
    · exact .inl (Clock.eq_of_start_eq_error hf)
    obtain hf | ⟨created, _, hf⟩ := bind_eq_error.1 hf
    · exact .inr (Clock.eq_of_stampFrom_eq_error hf)
    rw [checkEnds_of_fits hfits] at hf
    obtain hf | ⟨_, _, hf⟩ := bind_eq_error.1 hf
    · cases hf
    dsimp only at hf
    rw [hattach] at hf
    obtain hf | ⟨ids, _, hf⟩ := bind_eq_error.1 hf
    · cases hf
    obtain hf | ⟨attached, _, hf⟩ := bind_eq_error.1 hf
    · exact .inr (Clock.eq_of_stampFrom_eq_error hf)
    · cases hf

def circleEdges : List Edge :=
  [edgeBetween "r1" likes posts, edgeBetween "r2" posts users, edgeBetween "r3" posts posts,
    edgeBetween "r4" users posts]

/-- Posts and users point to each other, and likes to posts. -/
def circle : Schema where
  tables := [likes, users, posts]
  references := circleEdges.map (·.reference)
  nodup_tables := by decide

/-- The order leaves out all three tables, and the circle is made of some of them. -/
theorem circular_iff_unorderable_circle : circle.Fits circleEdges ∧
    attachOrder (fun _ l => l.reverse) circle.tables (.ofEdges circleEdges) =
      .error (.unorderable ["likes", "users", "posts"]) ∧
    ∃ path, circle.resolve.outcome = .error (.circular path) ∧ path ≠ [] ∧
      path ⊆ ["likes", "users", "posts"] := by
  have hfits : circle.Fits circleEdges := by
    constructor <;> decide +kernel
  have hunorderable : attachOrder (fun _ l => l.reverse) circle.tables (.ofEdges circleEdges) =
      .error (.unorderable ["likes", "users", "posts"]) := by decide +kernel
  obtain ⟨hiff, hnames⟩ := (circular_iff_unorderable circle fun _ l => l.reverse_perm).1 _ hfits
  obtain ⟨path, hcircular⟩ := hiff.2 ⟨_, hunorderable⟩
  obtain ⟨ring, stuck, rfl, hstuck, hne, hsub⟩ := hnames _ _ hcircular hunorderable
  refine ⟨hfits, hunorderable, _, hcircular, ?_, ?_⟩
  · rwa [Ne, List.map_eq_nil_iff]
  · rw [hstuck]
    exact List.map_subset _ hsub

end Schemata.Plan
