import Mathlib.Data.List.Induction
import Mathlib.Data.List.Nodup
import Mathlib.Data.List.Perm.Basic
import Mathlib.Tactic.Common
import Schemata.Dependency.Kahn

/-!
# Kahn's loop takes the first node that is ready

A node is `Ready` when all that it needs has come, and `Next` when it is the ready node of least
position. The state of the loop satisfies an invariant: the counts say what each node misses, and the
queue holds the ready nodes by their positions. So every node of `Kahn.order` is the next one after
those before it (`greedy_order`), no node that was left out is ready (`not_ready_order`), and neither
depends on the order in which dependents are released.
-/

namespace Schemata.Kahn

/-! ## Queues and counts -/

theorem Queue.perm_push (q : Queue) (e : Nat × String) : (q.push e).Perm (e :: q) := by
  induction q with
  | nil => exact .refl _
  | cons f q ih =>
    rw [push]
    split
    · exact .refl _
    · exact (ih.cons f).trans (.swap e f q)

/-- Entries by their positions, which may repeat. -/
def Queue.Sorted (q : Queue) : Prop := q.Pairwise (·.1 ≤ ·.1)

theorem Queue.Sorted.push {q : Queue} (h : q.Sorted) (e : Nat × String) : (q.push e).Sorted := by
  induction q with
  | nil => exact List.pairwise_singleton _ e
  | cons f q ih =>
    obtain ⟨hf, hq⟩ := List.pairwise_cons.1 h
    rw [Queue.push]
    split
    · next hle =>
      refine List.pairwise_cons.2 ⟨fun g hg => ?_, h⟩
      rcases List.mem_cons.1 hg with rfl | hg
      · exact hle
      · exact Nat.le_trans hle (hf g hg)
    · next hle =>
      refine List.pairwise_cons.2 ⟨fun g hg => ?_, ih hq⟩
      rcases List.mem_cons.1 ((Queue.perm_push q e).mem_iff.1 hg) with rfl | hg
      · exact Nat.le_of_not_le hle
      · exact hf g hg

theorem Queue.perm_foldl_push (l : List (Nat × String)) (q : Queue) :
    (l.foldl Queue.push q).Perm (l ++ q) := by
  induction l generalizing q with
  | nil => exact .refl _
  | cons e l ih => exact ((ih _).trans ((Queue.perm_push q e).append_left l)).trans List.perm_middle

theorem Queue.sorted_foldl_push (l : List (Nat × String)) {q : Queue} (h : q.Sorted) :
    (l.foldl Queue.push q).Sorted := by
  induction l generalizing q with
  | nil => exact h
  | cons e l ih => exact ih (h.push e)

theorem Queue.perm_ofNodes (position : String → Nat) (l : List String) :
    (Queue.ofNodes position l).Perm (l.map fun x => (position x, x)) := by
  have h := Queue.perm_foldl_push (l.map fun x => (position x, x)) []
  rwa [List.append_nil] at h

theorem Queue.mem_ofNodes {position : String → Nat} {l : List String} {x : String} :
    x ∈ (Queue.ofNodes position l).map (·.2) ↔ x ∈ l := by
  rw [((Queue.perm_ofNodes position l).map _).mem_iff, List.map_map]
  simp

theorem Counts.lookup_lower (c : Counts) (x y : String) :
    (c.lower x).lookup y = if y = x then (c.lookup y).map (· - 1) else c.lookup y := by
  induction c with
  | nil => exact (ite_self _).symm
  | cons e c ih =>
    obtain ⟨z, n⟩ := e
    rw [lower_cons, List.lookup_cons, List.lookup_cons, ih]
    by_cases hz : y = z
    · subst hz
      by_cases hx : y = x <;> simp [hx]
    · have hyz : (y == z) = false := beq_eq_false_iff_ne.2 hz
      rw [hyz]

/-! ## Releasing dependents -/

namespace State

variable (position : String → Nat)

@[simp] theorem release_counts (s : State) (x : String) :
    (s.release position x).counts = s.counts.lower x := by
  unfold release
  dsimp only
  split <;> rfl

@[simp] theorem release_ordered (s : State) (x : String) :
    (s.release position x).ordered = s.ordered := by
  unfold release
  dsimp only
  split <;> rfl

theorem release_queue (s : State) (x : String) :
    (s.release position x).queue =
      if s.counts.lookup x = some 1 then s.queue.push (position x, x) else s.queue := by
  have hone : (s.counts.lower x).lookup x = some 0 ↔ s.counts.lookup x = some 1 := by
    rw [Counts.lookup_lower, if_pos rfl, Option.map_eq_some_iff]
    constructor
    · rintro ⟨n, hn, h⟩
      rw [hn, show n = 1 by omega]
    · intro h
      exact ⟨1, h, rfl⟩
  unfold release
  dsimp only
  simp only [hone]
  split <;> rfl

theorem ordered_foldl_release (l : List String) (s : State) :
    (l.foldl (release position) s).ordered = s.ordered := by
  induction l generalizing s with
  | nil => rfl
  | cons x l ih => rw [List.foldl_cons, ih, release_ordered]

theorem sorted_foldl_release (l : List String) {s : State} (h : s.queue.Sorted) :
    (l.foldl (release position) s).queue.Sorted := by
  induction l generalizing s with
  | nil => exact h
  | cons x l ih =>
    apply ih
    rw [release_queue]
    split
    · exact h.push _
    · exact h

/-- Each dependent is taken off its count once. -/
theorem lookup_foldl_release {l : List String} (hl : l.Nodup) (s : State) (y : String) :
    (l.foldl (release position) s).counts.lookup y =
      if y ∈ l then (s.counts.lookup y).map (· - 1) else s.counts.lookup y := by
  induction l generalizing s with
  | nil => simp
  | cons x l ih =>
    obtain ⟨hx, hl⟩ := List.nodup_cons.1 hl
    rw [List.foldl_cons, ih hl, release_counts, Counts.lookup_lower]
    by_cases hyx : y = x
    · subst hyx
      simp [hx]
    · simp [hyx]

/-- The dependents that missed one node only join the queue. -/
theorem queue_foldl_release {l : List String} (hl : l.Nodup) (s : State) :
    (l.foldl (release position) s).queue.Perm
      ((l.filter fun y => s.counts.lookup y = some 1).map (fun y => (position y, y)) ++
        s.queue) := by
  induction l generalizing s with
  | nil => exact .refl _
  | cons x l ih =>
    obtain ⟨hx, hl⟩ := List.nodup_cons.1 hl
    have hsame : (l.filter fun y => (s.release position x).counts.lookup y = some 1) =
        l.filter fun y => s.counts.lookup y = some 1 := by
      apply List.filter_congr
      intro y hy
      have hyx : y ≠ x := fun h => hx (h ▸ hy)
      rw [release_counts, Counts.lookup_lower, if_neg hyx]
    have hrest := ih hl (s.release position x)
    rw [hsame, release_queue] at hrest
    rw [List.foldl_cons]
    apply hrest.trans
    by_cases hone : s.counts.lookup x = some 1
    · rw [if_pos hone, List.filter_cons_of_pos (by simpa using hone), List.map_cons]
      exact ((Queue.perm_push _ _).append_left _).trans List.perm_middle
    · rw [if_neg hone, List.filter_cons_of_neg (by simpa using hone)]

end State

/-! ## Which node comes next -/

/-- A node that has not come while all that it needs has. -/
def Ready (nodes : List String) (needs : String → List String) (done : List String) (x : String) :
    Prop :=
  x ∈ nodes ∧ x ∉ done ∧ ∀ y ∈ needs x, y ∈ done

/-- The ready node of least position. -/
def Next (position : String → Nat) (nodes : List String) (needs : String → List String)
    (done : List String) (x : String) : Prop :=
  Ready nodes needs done x ∧ ∀ y, Ready nodes needs done y → position x ≤ position y

/-- Orders in which each node is the next one after those before it. -/
def Greedy (position : String → Nat) (nodes : List String) (needs : String → List String)
    (l : List String) : Prop :=
  ∀ before x after, l = before ++ x :: after → Next position nodes needs before x

/-- How many of the nodes that a node needs have not come. -/
def missing (needs : String → List String) (done : List String) (x : String) : Nat :=
  ((needs x).filter (· ∉ done)).length

/-- A graph as the loop reads it: the dependents of a node are the nodes that need it, in any order,
and positions tell nodes apart. -/
structure Graph (position : String → Nat) (nodes : List String)
    (needs dependents : String → List String) : Prop where
  nodup_nodes : nodes.Nodup
  nodup_needs : ∀ x, (needs x).Nodup
  nodup_dependents : ∀ x, (dependents x).Nodup
  mem_dependents : ∀ x y, y ∈ dependents x ↔ y ∈ nodes ∧ x ∈ needs y
  position_injective : ∀ x ∈ nodes, ∀ y ∈ nodes, position x = position y → x = y

theorem missing_eq_zero {needs : String → List String} {done : List String} {x : String} :
    missing needs done x = 0 ↔ ∀ y ∈ needs x, y ∈ done := by
  unfold missing
  rw [List.length_eq_zero_iff, List.filter_eq_nil_iff]
  simp

theorem length_filter_notMem_append {l done : List String} {x : String} (hl : l.Nodup)
    (hx : x ∉ done) :
    (l.filter (· ∉ done)).length =
      (l.filter (· ∉ done ++ [x])).length + if x ∈ l then 1 else 0 := by
  induction l with
  | nil => rfl
  | cons y l ih =>
    obtain ⟨hy, hl⟩ := List.nodup_cons.1 hl
    have ih := ih hl
    by_cases hyx : y = x
    · subst hyx
      rw [if_neg hy, Nat.add_zero] at ih
      simp only [hx, ih, List.filter_cons, not_false_eq_true, decide_true, if_true, List.mem_append,
        List.mem_cons, true_or, or_true, not_true_eq_false, decide_false, Bool.false_eq_true, if_false,
        List.length_cons]
    · by_cases hyd : y ∈ done <;> simp [hyd, hyx, Ne.symm hyx] at ih ⊢ <;> omega

theorem missing_append {needs : String → List String} {done : List String} {x y : String}
    (hn : (needs y).Nodup) (hx : x ∉ done) :
    missing needs done y = missing needs (done ++ [x]) y + if x ∈ needs y then 1 else 0 :=
  length_filter_notMem_append hn hx

variable {position : String → Nat} {nodes : List String} {needs dependents : String → List String}

theorem Greedy.append {l : List String} {x : String} (hl : Greedy position nodes needs l)
    (hx : Next position nodes needs l x) : Greedy position nodes needs (l ++ [x]) := by
  intro before y after h
  rcases List.eq_nil_or_concat after with rfl | ⟨after, z, rfl⟩
  · obtain ⟨rfl, hxy⟩ := List.append_inj' h rfl
    obtain rfl := List.singleton_inj.1 hxy
    exact hx
  · rw [List.concat_eq_append, ← List.cons_append, ← List.append_assoc] at h
    exact hl before y after (List.append_inj' h rfl).1

/-- What a node needs came before it. -/
theorem Greedy.needs_subset {l : List String} (hl : Greedy position nodes needs l) {x y : String}
    (hx : x ∈ l) (hy : y ∈ needs x) : y ∈ l := by
  obtain ⟨before, after, rfl⟩ := List.append_of_mem hx
  exact List.mem_append_left _ ((hl before x after rfl).1.2.2 y hy)

theorem Greedy.of_append {l r : List String} (h : Greedy position nodes needs (l ++ r)) :
    Greedy position nodes needs l := by
  rintro before x after rfl
  exact h before x (after ++ r) (by simp)

theorem Greedy.nodup {l : List String} (hl : Greedy position nodes needs l) : l.Nodup := by
  induction l using List.reverseRecOn with
  | nil => exact List.nodup_nil
  | append_singleton l x ih =>
    have hx : x ∉ l := (hl l x [] rfl).1.2.1
    exact List.nodup_append.2 ⟨ih hl.of_append, List.nodup_singleton x, by
      rintro y hy z hz rfl
      exact hx (List.mem_singleton.1 hz ▸ hy)⟩

theorem Greedy.subset_nodes {l : List String} (hl : Greedy position nodes needs l) : l ⊆ nodes := by
  intro x hx
  obtain ⟨before, after, rfl⟩ := List.append_of_mem hx
  exact (hl before x after rfl).1.1

/-! ## The loop -/

/-- What holds whenever the loop starts a round: the counts say what each node misses, and the queue
holds each ready node once. -/
structure Inv (position : String → Nat) (nodes : List String) (needs : String → List String)
    (s : State) : Prop where
  greedy : Greedy position nodes needs s.ordered
  counts : ∀ x ∈ nodes, s.counts.lookup x = some (missing needs s.ordered x : Int)
  sorted : s.queue.Sorted
  nodup : s.queue.Nodup
  mem_queue : ∀ e, e ∈ s.queue ↔ e.1 = position e.2 ∧ Ready nodes needs s.ordered e.2

/-- The first of the queue is the next node. -/
theorem Inv.next {c : Counts} {e : Nat × String} {q : Queue} {done : List String}
    (h : Inv position nodes needs ⟨c, e :: q, done⟩) : Next position nodes needs done e.2 := by
  obtain ⟨hp, hready⟩ := (h.mem_queue e).1 List.mem_cons_self
  refine ⟨hready, fun y hy => ?_⟩
  rcases List.mem_cons.1 ((h.mem_queue (position y, y)).2 ⟨rfl, hy⟩) with rfl | hmem
  · exact Nat.le_refl _
  · rw [← hp]
    exact (List.pairwise_cons.1 h.sorted).1 _ hmem

/-- After a node has come, the ready nodes are the others that were and the dependents that missed
only it. -/
theorem ready_append_iff (hg : Graph position nodes needs dependents) {done : List String}
    {x y : String} (hd : Greedy position nodes needs done) (hx : Ready nodes needs done x) :
    Ready nodes needs (done ++ [x]) y ↔
      (Ready nodes needs done y ∧ y ≠ x) ∨ (y ∈ dependents x ∧ missing needs done y = 1) := by
  have hmiss : y ∈ nodes → missing needs done y =
      missing needs (done ++ [x]) y + if x ∈ needs y then 1 else 0 := fun _ =>
    missing_append (hg.nodup_needs y) hx.2.1
  rw [hg.mem_dependents]
  constructor
  · rintro ⟨hy, hyd, hyn⟩
    have hzero := missing_eq_zero.2 hyn
    have hcount := hmiss hy
    rw [List.mem_append, List.mem_singleton, not_or] at hyd
    by_cases hxy : x ∈ needs y
    · rw [if_pos hxy] at hcount
      exact .inr ⟨⟨hy, hxy⟩, by omega⟩
    · rw [if_neg hxy] at hcount
      exact .inl ⟨⟨hy, hyd.1, missing_eq_zero.1 (by omega)⟩, hyd.2⟩
  · rintro (⟨⟨hy, hyd, hyn⟩, hyx⟩ | ⟨⟨hy, hxy⟩, hone⟩)
    · refine ⟨hy, ?_, fun z hz => List.mem_append_left _ (hyn z hz)⟩
      rw [List.mem_append, List.mem_singleton, not_or]
      exact ⟨hyd, hyx⟩
    · have hcount := hmiss hy
      rw [if_pos hxy] at hcount
      refine ⟨hy, ?_, missing_eq_zero.1 (by omega)⟩
      rw [List.mem_append, List.mem_singleton, not_or]
      constructor
      · intro hyd
        exact hx.2.1 (hd.needs_subset hyd hxy)
      · rintro rfl
        exact hx.2.1 (hx.2.2 y hxy)

/-- A round of the loop keeps the invariant. -/
theorem Inv.step (hg : Graph position nodes needs dependents) {c : Counts} {p : Nat} {x : String}
    {q : Queue} {done : List String} (h : Inv position nodes needs ⟨c, (p, x) :: q, done⟩) :
    Inv position nodes needs
      ((dependents x).foldl (State.release position) ⟨c, q, done ++ [x]⟩) := by
  have hnext : Next position nodes needs done x := h.next
  have hcounts : ∀ y ∈ nodes, c.lookup y = some (missing needs done y : Int) := h.counts
  have hpx := (h.mem_queue (p, x)).1 List.mem_cons_self
  obtain ⟨hfresh, hq⟩ := List.nodup_cons.1 h.nodup
  have hrest : ∀ e, e ∈ q ↔ (e.1 = position e.2 ∧ Ready nodes needs done e.2) ∧ e.2 ≠ x := by
    intro e
    rw [← h.mem_queue e, List.mem_cons]
    constructor
    · intro he
      refine ⟨.inr he, fun hex => hfresh ?_⟩
      have hpos := ((h.mem_queue e).1 (List.mem_cons_of_mem _ he)).1
      rwa [show (p, x) = e from Prod.ext (by rw [hpx.1, hpos, hex]) hex.symm]
    · rintro ⟨rfl | he, hex⟩
      · exact absurd rfl hex
      · exact he
  have hperm := State.queue_foldl_release position (hg.nodup_dependents x) ⟨c, q, done ++ [x]⟩
  have hone : ∀ y ∈ dependents x, (c.lookup y = some 1 ↔ missing needs done y = 1) := by
    intro y hy
    rw [hcounts y ((hg.mem_dependents x y).1 hy).1, Option.some.injEq]
    omega
  constructor
  · rw [State.ordered_foldl_release]
    exact h.greedy.append hnext
  · intro y hy
    have hcount : missing needs done y = _ := missing_append (hg.nodup_needs y) hnext.1.2.1
    rw [State.ordered_foldl_release, State.lookup_foldl_release position (hg.nodup_dependents x)]
    show _ = some (missing needs (done ++ [x]) y : Int)
    by_cases hxy : x ∈ needs y
    · rw [if_pos ((hg.mem_dependents x y).2 ⟨hy, hxy⟩), hcounts y hy, Option.map_some,
        Option.some.injEq]
      rw [if_pos hxy] at hcount
      omega
    · rw [if_neg fun hm => hxy ((hg.mem_dependents x y).1 hm).2, hcounts y hy, Option.some.injEq]
      rw [if_neg hxy] at hcount
      omega
  · exact State.sorted_foldl_release position _ (List.pairwise_cons.1 h.sorted).2
  · rw [hperm.nodup_iff]
    refine List.nodup_append.2 ⟨?_, hq, ?_⟩
    · apply List.Nodup.map (fun y z hyz => (Prod.mk.inj hyz).2)
      exact (hg.nodup_dependents x).filter _
    · rintro e he f hf rfl
      obtain ⟨y, hy, rfl⟩ := List.mem_map.1 he
      obtain ⟨hdep, hy⟩ := List.mem_filter.1 hy
      have hready := ((hrest _).1 hf).1.2
      have hzero : missing needs done y = 0 := missing_eq_zero.2 hready.2.2
      have hmiss := (hone y hdep).1 (of_decide_eq_true hy)
      omega
  · intro e
    rw [hperm.mem_iff, State.ordered_foldl_release, List.mem_append, hrest,
      ready_append_iff hg h.greedy hnext.1]
    constructor
    · rintro (he | ⟨⟨hp, hready⟩, hex⟩)
      · obtain ⟨y, hy, rfl⟩ := List.mem_map.1 he
        obtain ⟨hdep, hy⟩ := List.mem_filter.1 hy
        exact ⟨rfl, .inr ⟨hdep, (hone y hdep).1 (of_decide_eq_true hy)⟩⟩
      · exact ⟨hp, .inl ⟨hready, hex⟩⟩
    · rintro ⟨hp, ⟨hready, hex⟩ | ⟨hdep, hmiss⟩⟩
      · exact .inr ⟨⟨hp, hready⟩, hex⟩
      · refine .inl (List.mem_map.2 ⟨e.2, List.mem_filter.2 ⟨hdep, ?_⟩, Prod.ext hp.symm rfl⟩)
        exact decide_eq_true ((hone e.2 hdep).2 hmiss)

/-- The loop keeps the invariant and ends with an empty queue. -/
theorem Inv.run (hg : Graph position nodes needs dependents) (s : State)
    (h : Inv position nodes needs s) :
    Inv position nodes needs (s.run position dependents) ∧
      (s.run position dependents).queue = [] := by
  induction s using State.run.induct position dependents with
  | case1 counts ordered => rw [State.run]; exact ⟨h, rfl⟩
  | case2 counts p x queue ordered ih => rw [State.run]; exact ih (h.step hg)

/-- In the beginning nothing has come, and every node misses all that it needs. -/
theorem inv_start (hg : Graph position nodes needs dependents) :
    Inv position nodes needs (start position nodes needs) := by
  have hmissing : ∀ x, missing needs [] x = (needs x).length := by
    intro x
    simp [missing]
  have hperm : (start position nodes needs).queue.Perm
      ((nodes.filter fun x => ((needs x).length : Int) = 0).map fun x => (position x, x)) := by
    apply (Queue.perm_ofNodes position _).trans
    rw [List.filter_map, List.map_map, List.map_map]
    exact .refl _
  constructor
  · intro before x after h
    simp [start] at h
  · intro x hx
    show _ = some (missing needs [] x : Int)
    rw [hmissing]
    exact List.lookup_graph (fun x => ((needs x).length : Int)) hx
  · exact Queue.sorted_foldl_push _ List.Pairwise.nil
  · refine hperm.nodup_iff.2 (List.Nodup.map (fun x y hxy => (Prod.mk.inj hxy).2) ?_)
    exact hg.nodup_nodes.filter _
  · intro e
    show _ ↔ _ ∧ Ready nodes needs [] e.2
    rw [hperm.mem_iff, List.mem_map]
    unfold Ready
    rw [← missing_eq_zero, hmissing]
    constructor
    · rintro ⟨x, hx, rfl⟩
      obtain ⟨hx, hzero⟩ := List.mem_filter.1 hx
      exact ⟨rfl, hx, List.not_mem_nil, Int.ofNat_eq_zero.1 (of_decide_eq_true hzero)⟩
    · rintro ⟨hp, hx, -, hzero⟩
      exact ⟨e.2, List.mem_filter.2 ⟨hx, decide_eq_true (Int.ofNat_eq_zero.2 hzero)⟩,
        Prod.ext hp.symm rfl⟩

/-! ## Orders -/

/-- Each node of an order is the next one after those before it. -/
theorem greedy_order (hg : Graph position nodes needs dependents) :
    Greedy position nodes needs (order position nodes needs dependents) :=
  (Inv.run hg _ (inv_start hg)).1.greedy

/-- An order leaves out no node that is ready. -/
theorem not_ready_order (hg : Graph position nodes needs dependents) (x : String) :
    ¬ Ready nodes needs (order position nodes needs dependents) x := by
  intro h
  obtain ⟨hinv, hempty⟩ := Inv.run hg _ (inv_start hg)
  have hmem := (hinv.mem_queue (position x, x)).2 ⟨rfl, h⟩
  rw [hempty] at hmem
  cases hmem

/-- A node that was left out needs another one that was. -/
theorem exists_needs_of_notMem_order (hg : Graph position nodes needs dependents) {x : String}
    (hx : x ∈ nodes) (hleft : x ∉ order position nodes needs dependents) :
    ∃ y ∈ needs x, y ∉ order position nodes needs dependents := by
  by_contra hall
  push Not at hall
  exact not_ready_order hg x ⟨hx, hleft, hall⟩

/-- Nodes that need each other in a ring are all left out. -/
theorem Greedy.notMem_of_ring {ring l : List String}
    (hring : ∀ x ∈ ring, ∃ y ∈ needs x, y ∈ ring) (hl : Greedy position nodes needs l) :
    ∀ x ∈ ring, x ∉ l := by
  induction l using List.reverseRecOn with
  | nil => exact fun _ _ => List.not_mem_nil
  | append_singleton l z ih =>
    have ih := ih hl.of_append
    intro x hx hmem
    rcases List.mem_append.1 hmem with hmem | hmem
    · exact ih x hx hmem
    · obtain rfl := List.mem_singleton.1 hmem
      obtain ⟨y, hy, hyr⟩ := hring x hx
      exact ih y hyr ((hl l x [] rfl).1.2.2 y hy)

/-- A list in which each node is the next one, with no ready node left, is the only one. -/
theorem Greedy.eq_of_maximal
    (hinj : ∀ x ∈ nodes, ∀ y ∈ nodes, position x = position y → x = y) {l m : List String}
    (hl : Greedy position nodes needs l) (hlm : ∀ x, ¬ Ready nodes needs l x)
    (hm : Greedy position nodes needs m) (hmm : ∀ x, ¬ Ready nodes needs m x) : l = m := by
  suffices h : ∀ rest done other, l = done ++ rest → m = done ++ other → rest = other by
    simpa using h l [] m rfl rfl
  intro rest
  induction rest with
  | nil =>
    rintro done (_ | ⟨y, other⟩) hl' hm'
    · rfl
    · rw [List.append_nil] at hl'
      exact absurd (hl' ▸ (hm done y other hm').1) (hlm y)
  | cons x rest ih =>
    rintro done (_ | ⟨y, other⟩) hl' hm'
    · rw [List.append_nil] at hm'
      exact absurd (hm' ▸ (hl done x rest hl').1) (hmm x)
    · have hx := hl done x rest hl'
      have hy := hm done y other hm'
      obtain rfl : x = y :=
        hinj x hx.1.1 y hy.1.1 (Nat.le_antisymm (hx.2 y hy.1) (hy.2 x hx.1))
      rw [ih (done ++ [x]) other (by simp [hl']) (by simp [hm'])]

/-- It does not matter in which order the dependents of a node are released. -/
theorem order_eq_order {dependents' : String → List String}
    (hg : Graph position nodes needs dependents) (hg' : Graph position nodes needs dependents') :
    order position nodes needs dependents = order position nodes needs dependents' :=
  (greedy_order hg).eq_of_maximal hg.position_injective (not_ready_order hg) (greedy_order hg')
    (not_ready_order hg')

end Schemata.Kahn
