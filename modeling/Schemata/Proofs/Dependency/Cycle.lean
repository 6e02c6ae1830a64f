import Mathlib.Data.List.Chain
import Mathlib.Data.List.Nodup
import Mathlib.Tactic.Common
import Schemata.Dependency.Graph

/-!
# Cycles that a search closes

`Graph.cycle?` answers with a cycle (`isCycle_of_cycle?`), or else all nodes can be put in a
`Finished` order, in which the successors of a node come after it, so that no nodes lead to each other
in a ring (`notMem_of_ring`). Both are read off an invariant of the walk: its path is a chain of
edges, and the successors of a node that are no longer to be followed are finished or lie on the way
that leads on from it.
-/

namespace Schemata.Graph

variable {nodes : List String} {a : Adjacency}

/-- Different nodes each of which leads to the next one, and the last to the first. -/
structure IsCycle (nodes : List String) (a : Adjacency) (c : List String) : Prop where
  ne_nil : c ≠ []
  nodup : c.Nodup
  subset : c ⊆ nodes
  chain : c.IsChain fun x y => y ∈ a.of x
  closed : ∀ x ∈ c.getLast?, ∀ y ∈ c.head?, y ∈ a.of x

/-- Nodes whose successors, as far as they are nodes of the graph, come after them. -/
def Finished (nodes : List String) (a : Adjacency) : List String → Prop
  | [] => True
  | x :: fin => (∀ y ∈ a.of x, y ∈ nodes → y ∈ fin) ∧ Finished nodes a fin

/-- Every node of a cycle leads to one of them. -/
theorem IsCycle.exists_succ {c : List String} (h : IsCycle nodes a c) {x : String} (hx : x ∈ c) :
    ∃ y ∈ c, y ∈ a.of x := by
  obtain ⟨before, after, rfl⟩ := List.append_of_mem hx
  cases after with
  | nil =>
    obtain ⟨y, hy⟩ : ∃ y, (before ++ [x]).head? = some y := by
      cases before <;> simp
    exact ⟨y, List.mem_of_head? hy, h.closed x (by simp) y hy⟩
  | cons y after =>
    refine ⟨y, by simp, ?_⟩
    exact (List.isChain_cons_cons.1 h.chain.right_of_append).1

/-- Nodes that lead to each other in a ring are never finished. -/
theorem Finished.notMem_of_ring {fin ring : List String} (hfin : Finished nodes a fin)
    (hring : ∀ x ∈ ring, ∃ y ∈ ring, y ∈ nodes ∧ y ∈ a.of x) : ∀ x ∈ ring, x ∉ fin := by
  induction fin with
  | nil => exact fun _ _ => List.not_mem_nil
  | cons z fin ih =>
    intro x hx hmem
    rcases List.mem_cons.1 hmem with rfl | hmem
    · obtain ⟨y, hy, hyn, hyx⟩ := hring x hx
      exact ih hfin.2 y hy (hfin.1 y hyx hyn)
    · exact ih hfin.2 x hx hmem

/-! ## The walk -/

/-- Every successor of a node of a path is still to be followed, or it is done; a node that lies
above another one on the path counts as done for it. -/
def Pending (nodes : List String) (a : Adjacency) : (done : List String) → Path → Prop
  | _, [] => True
  | done, (n, cs) :: rest =>
    (∀ y ∈ a.of n, y ∈ nodes → y ∈ cs ∨ y ∈ done) ∧ Pending nodes a (n :: done) rest

theorem Pending.mono {done done' : List String} {path : Path} (h : Pending nodes a done path)
    (hsub : done ⊆ done') : Pending nodes a done' path := by
  induction path generalizing done done' with
  | nil => trivial
  | cons f path ih =>
    obtain ⟨n, cs⟩ := f
    refine ⟨fun y hy hyn => (h.1 y hy hyn).imp_right fun hd => hsub hd, ih h.2 ?_⟩
    exact List.cons_subset_cons n hsub

/-- What holds on a walk: the path is a chain of edges between different nodes, the nodes that have
been seen are those of the path and the finished ones. -/
structure Walking (nodes : List String) (a : Adjacency) (seen fin : List String) (path : Path) :
    Prop where
  nodup : path.nodes.Nodup
  subset : path.nodes ⊆ nodes
  chain : path.nodes.IsChain fun x y => y ∈ a.of x
  successors : ∀ f ∈ path, f.2 ⊆ a.of f.1
  mem_seen : ∀ x, x ∈ seen ↔ x ∈ fin ∨ x ∈ path.nodes
  finished : Finished nodes a fin
  pending : Pending nodes a fin path

@[simp] theorem Path.nodes_cons (n : String) (cs : List String) (rest : Path) :
    Path.nodes ((n, cs) :: rest) = Path.nodes rest ++ [n] := by
  simp [Path.nodes]

variable {seen fin : List String} {n c : String} {cs : List String} {rest : Path}

/-- A node whose successors have all been followed is finished. -/
theorem Walking.finish (h : Walking nodes a seen fin ((n, []) :: rest)) :
    Walking nodes a seen (n :: fin) rest := by
  have hnodes := Path.nodes_cons n [] rest
  constructor
  · exact (List.nodup_append.1 (hnodes ▸ h.nodup)).1
  · exact fun x hx => h.subset (hnodes ▸ List.mem_append_left _ hx)
  · exact (hnodes ▸ h.chain).left_of_append
  · exact fun f hf => h.successors f (List.mem_cons_of_mem _ hf)
  · intro x
    rw [h.mem_seen, hnodes, List.mem_append, List.mem_singleton, List.mem_cons]
    tauto
  · exact ⟨fun y hy hyn => (h.pending.1 y hy hyn).resolve_left List.not_mem_nil, h.finished⟩
  · exact h.pending.2

/-- A successor on the path closes a cycle. -/
theorem Walking.isCycle (h : Walking nodes a seen fin ((n, c :: cs) :: rest))
    (hc : c ∈ Path.nodes ((n, c :: cs) :: rest)) :
    IsCycle nodes a ((Path.nodes ((n, c :: cs) :: rest)).dropWhile (· ≠ c)) := by
  have hlast : (Path.nodes ((n, c :: cs) :: rest)).getLast? = some n := by simp
  obtain ⟨before, after, hsplit⟩ := List.append_of_mem hc
  have hnodup := h.nodup
  have hchain := h.chain
  rw [hsplit] at hnodup hchain hlast
  have hfresh : ∀ x ∈ before, decide (x ≠ c) = true := fun x hx =>
    decide_eq_true ((List.nodup_append.1 hnodup).2.2 x hx c List.mem_cons_self)
  have hdrop : (before ++ c :: after).dropWhile (· ≠ c) = c :: after := by
    rw [List.dropWhile_append_of_pos hfresh]
    simp
  rw [hsplit, hdrop]
  constructor
  · exact List.cons_ne_nil c after
  · exact (List.nodup_append.1 hnodup).2.1
  · exact fun x hx => h.subset (hsplit ▸ List.mem_append_right _ hx)
  · exact hchain.right_of_append
  · intro x hx y hy
    rw [List.getLast?_append_cons] at hlast
    obtain rfl : n = x := Option.some.inj (hlast.symm.trans hx)
    obtain rfl : c = y := Option.some.inj hy
    exact h.successors _ List.mem_cons_self List.mem_cons_self

/-- A successor that is new is next on the path. -/
theorem Walking.push (h : Walking nodes a seen fin ((n, c :: cs) :: rest))
    (hpath : c ∉ Path.nodes ((n, c :: cs) :: rest)) (hc : c ∈ nodes) :
    Walking nodes a (c :: seen) fin ((c, a.of c) :: (n, cs) :: rest) := by
  have hnodes : Path.nodes ((c, a.of c) :: (n, cs) :: rest) =
      Path.nodes ((n, c :: cs) :: rest) ++ [c] := by simp
  have hedge : c ∈ a.of n := h.successors _ List.mem_cons_self List.mem_cons_self
  constructor
  · rw [hnodes]
    refine List.nodup_append.2 ⟨h.nodup, List.nodup_singleton c, ?_⟩
    rintro x hx _ hxc rfl
    exact hpath (List.mem_singleton.1 hxc ▸ hx)
  · rw [hnodes]
    exact List.append_subset.2 ⟨h.subset, List.cons_subset.2 ⟨hc, List.nil_subset _⟩⟩
  · rw [hnodes]
    apply h.chain.append (List.isChain_singleton c)
    intro x hx y hy
    rw [Path.nodes_cons, List.getLast?_append_cons] at hx
    obtain rfl : n = x := Option.some.inj hx
    obtain rfl : c = y := Option.some.inj hy
    exact hedge
  · intro f hf
    rcases List.mem_cons.1 hf with rfl | hf
    · exact List.Subset.refl _
    rcases List.mem_cons.1 hf with rfl | hf
    · exact fun x hx => h.successors _ List.mem_cons_self (List.mem_cons_of_mem c hx)
    · exact h.successors f (List.mem_cons_of_mem _ hf)
  · intro x
    rw [List.mem_cons, h.mem_seen, hnodes, List.mem_append, List.mem_singleton]
    tauto
  · exact h.finished
  · refine ⟨fun y hy _ => .inl hy, fun y hy hyn => ?_, h.pending.2.mono ?_⟩
    · rcases h.pending.1 y hy hyn with hy | hy
      · rcases List.mem_cons.1 hy with rfl | hy
        · exact .inr List.mem_cons_self
        · exact .inl hy
      · exact .inr (List.mem_cons_of_mem c hy)
    · exact List.cons_subset_cons n (List.subset_cons_self c fin)

/-- A successor that is finished or outside of the graph is passed over. -/
theorem Walking.skip (h : Walking nodes a seen fin ((n, c :: cs) :: rest))
    (hpath : c ∉ Path.nodes ((n, c :: cs) :: rest)) (hc : ¬ (c ∈ nodes ∧ c ∉ seen)) :
    Walking nodes a seen fin ((n, cs) :: rest) := by
  have hnodes : Path.nodes ((n, cs) :: rest) = Path.nodes ((n, c :: cs) :: rest) := by simp
  constructor
  · exact hnodes ▸ h.nodup
  · exact hnodes ▸ h.subset
  · exact hnodes ▸ h.chain
  · intro f hf
    rcases List.mem_cons.1 hf with rfl | hf
    · exact fun x hx => h.successors _ List.mem_cons_self (List.mem_cons_of_mem c hx)
    · exact h.successors f (List.mem_cons_of_mem _ hf)
  · exact hnodes ▸ h.mem_seen
  · exact h.finished
  · refine ⟨fun y hy hyn => ?_, h.pending.2⟩
    rcases h.pending.1 y hy hyn with hycs | hy
    · rcases List.mem_cons.1 hycs with rfl | hycs
      · have hseen : y ∈ seen := by
          by_contra hs
          exact hc ⟨hyn, hs⟩
        exact .inr (((h.mem_seen y).1 hseen).resolve_right hpath)
      · exact .inl hycs
    · exact .inr hy

/-- A walk ends with a cycle, or with everything finished that has been seen. -/
theorem walk_spec {path : Path} (h : Walking nodes a seen fin path) :
    match walk nodes a seen path with
    | .cycle c => IsCycle nodes a c
    | .done seen' => seen ⊆ seen' ∧ ∃ fin', Walking nodes a seen' fin' [] := by
  induction seen, path using walk.induct nodes a generalizing fin with
  | case1 seen =>
    rw [walk]
    exact ⟨List.Subset.refl _, fin, h⟩
  | case2 seen n rest ih =>
    rw [walk]
    exact ih h.finish
  | case3 seen n c cs rest hpath =>
    rw [walk, if_pos hpath]
    exact h.isCycle hpath
  | case4 seen n c cs rest hc hpath ih =>
    rw [walk, if_neg hpath, dif_pos hc]
    have hrest := ih (h.push hpath hc.1)
    split
    · next heq => rwa [heq] at hrest
    · next heq =>
      rw [heq] at hrest
      exact ⟨fun x hx => hrest.1 (List.mem_cons_of_mem c hx), hrest.2⟩
  | case5 seen n c cs rest hc hpath ih =>
    rw [walk, if_neg hpath, dif_neg hc]
    exact ih (h.skip hpath hc)

/-! ## The search -/

/-- A walk starts at a root that has not been seen. -/
theorem Walking.root {r : String} (h : Walking nodes a seen fin []) (hr : r ∈ nodes) :
    Walking nodes a (r :: seen) fin [(r, a.of r)] := by
  constructor
  · simp [Path.nodes]
  · simpa [Path.nodes] using hr
  · simp [Path.nodes]
  · simp
  · intro x
    have := h.mem_seen x
    simp [Path.nodes] at this ⊢
    tauto
  · exact h.finished
  · exact ⟨fun y hy _ => .inl hy, trivial⟩

/-- A search ends with a cycle, or with all its roots finished. -/
theorem search_spec {roots : List String} (h : Walking nodes a seen fin []) (hroots : roots ⊆ nodes) :
    match search nodes a seen roots with
    | some c => IsCycle nodes a c
    | none => ∃ fin', Finished nodes a fin' ∧ seen ⊆ fin' ∧ roots ⊆ fin' := by
  induction roots generalizing seen fin with
  | nil =>
    exact ⟨fin, h.finished, fun x hx => ((h.mem_seen x).1 hx).resolve_right List.not_mem_nil,
      List.nil_subset fin⟩
  | cons r roots ih =>
    obtain ⟨hr, hroots⟩ := List.cons_subset.1 hroots
    rw [search]
    by_cases hseen : r ∈ seen
    · rw [if_pos hseen]
      have hrest := ih h hroots
      split
      · next heq => rwa [heq] at hrest
      · next heq =>
        rw [heq] at hrest
        obtain ⟨fin', hfin, hsub, hall⟩ := hrest
        exact ⟨fin', hfin, hsub, List.cons_subset.2 ⟨hsub hseen, hall⟩⟩
    · rw [if_neg hseen]
      have hwalk := walk_spec (h.root hr)
      cases hend : walk nodes a (r :: seen) [(r, a.of r)] with
      | cycle c =>
        rw [hend] at hwalk
        exact hwalk
      | done seen' =>
        rw [hend] at hwalk
        obtain ⟨hgrow, fin', hfin⟩ := hwalk
        have hrest := ih hfin hroots
        dsimp only
        split
        · next heq => rwa [heq] at hrest
        · next heq =>
          rw [heq] at hrest
          obtain ⟨fin', hfin, hsub, hall⟩ := hrest
          exact ⟨fin', hfin, fun x hx => hsub (hgrow (List.mem_cons_of_mem r hx)),
            List.cons_subset.2 ⟨hsub (hgrow List.mem_cons_self), hall⟩⟩

theorem walking_nil : Walking nodes a [] [] [] := by
  constructor <;> simp [Path.nodes, Finished, Pending]

/-- The answer of a search is a cycle. -/
theorem isCycle_of_cycle? {c : List String} (h : cycle? nodes a = some c) : IsCycle nodes a c := by
  have hspec := search_spec (walking_nil : Walking nodes a [] [] []) (List.Subset.refl nodes)
  rw [cycle?] at h
  rwa [h] at hspec

/-- There is no cycle where every edge leads to a node that leads to none. -/
theorem cycle?_eq_none_of_sinks (h : ∀ x ∈ nodes, ∀ y ∈ a.of x, a.of y = []) :
    cycle? nodes a = none := by
  cases hc : cycle? nodes a with
  | none => rfl
  | some c =>
    have hcycle := isCycle_of_cycle? hc
    obtain ⟨x, hx⟩ := List.exists_mem_of_ne_nil c hcycle.ne_nil
    obtain ⟨y, hy, hxy⟩ := hcycle.exists_succ hx
    obtain ⟨z, -, hyz⟩ := hcycle.exists_succ hy
    rw [h x (hcycle.subset hx) y hxy] at hyz
    exact absurd hyz List.not_mem_nil

/-- Without an answer, all nodes can be finished. -/
theorem finished_of_cycle?_eq_none (h : cycle? nodes a = none) :
    ∃ fin, Finished nodes a fin ∧ nodes ⊆ fin := by
  have hspec := search_spec (walking_nil : Walking nodes a [] [] []) (List.Subset.refl nodes)
  rw [cycle?] at h
  rw [h] at hspec
  obtain ⟨fin, hfin, -, hall⟩ := hspec
  exact ⟨fin, hfin, hall⟩

end Schemata.Graph
