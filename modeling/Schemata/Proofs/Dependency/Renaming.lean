import Schemata.Dependency.Kahn
import Schemata.Proofs.Dependency.Resolve
import Schemata.Proofs.Schema.Renaming

/-!
# Resolving a schema with other ids

The search for a cycle and the order of a graph only compare nodes, so under new names that differ they
take the same steps (`cycle?_rename`, `Kahn.order_rename`). A schema with other ids is resolved with
the same findings, and its edges are those of the schema with other ids (`resolve_rename`).
-/

namespace Schemata

/-- What is found under a new key in a list with new keys. -/
theorem lookup_map_injective {α β : Type} {g : String → String} (hg : Function.Injective g)
    (h : α → β) (l : List (String × α)) (x : String) :
    (l.map fun p => (g p.1, h p.2)).lookup (g x) = (l.lookup x).map h := by
  induction l with
  | nil => rfl
  | cons p l ih =>
    obtain ⟨k, v⟩ := p
    have hkey : (g x == g k) = (x == k) := by
      rw [Bool.eq_iff_iff, beq_iff_eq, beq_iff_eq, hg.eq_iff]
    rw [List.map_cons, List.lookup_cons, List.lookup_cons, hkey, ih]
    cases x == k <;> rfl

/-! ## Searching for a cycle -/

namespace Graph

variable (g : String → String)

def Adjacency.rename (a : Adjacency) : Adjacency := a.map fun p => (g p.1, p.2.map g)

def Path.rename (p : Path) : Path := p.map fun f => (g f.1, f.2.map g)

def Outcome.rename : Outcome → Outcome
  | cycle nodes => cycle (nodes.map g)
  | done seen => done (seen.map g)

theorem Path.nodes_rename (p : Path) : (p.rename g).nodes = p.nodes.map g := by
  unfold nodes rename
  rw [List.map_map, List.map_reverse, List.map_map]
  rfl

theorem Path.nodes_rename_cons (n : String) (cs : List String) (rest : Path) (c : String) :
    Path.nodes ((g n, g c :: cs.map g) :: rest.rename g) =
      (Path.nodes ((n, c :: cs) :: rest)).map g :=
  Path.nodes_rename g ((n, c :: cs) :: rest)

variable {g} (hg : Function.Injective g)

include hg

theorem Adjacency.of_rename (a : Adjacency) (x : String) : (a.rename g).of (g x) = (a.of x).map g := by
  unfold of rename
  rw [lookup_map_injective hg]
  cases a.lookup x <;> rfl

theorem mem_rename {x : String} {l : List String} : g x ∈ l.map g ↔ x ∈ l :=
  List.mem_map_of_injective hg

/-- A walk takes the same way under new names. -/
theorem walk_rename (nodes : List String) (a : Adjacency) (seen : List String) (path : Path) :
    walk (nodes.map g) (a.rename g) (seen.map g) (path.rename g) =
      (walk nodes a seen path).rename g := by
  induction seen, path using walk.induct nodes a with
  | case1 seen =>
    rw [walk]
    show walk _ _ _ [] = _
    rw [walk]
    rfl
  | case2 seen n rest ih =>
    rw [walk]
    show walk _ _ _ ((g n, []) :: Path.rename g rest) = _
    rw [walk]
    exact ih
  | case3 seen n c cs rest hc =>
    have hsame : ((fun x => decide (x ≠ g c)) ∘ g) = fun x => decide (x ≠ c) :=
      funext fun x => decide_eq_decide.2 (not_congr hg.eq_iff)
    rw [walk, if_pos hc]
    show walk _ _ _ ((g n, g c :: cs.map g) :: Path.rename g rest) = _
    rw [walk, Path.nodes_rename_cons, if_pos ((mem_rename hg).2 hc), List.dropWhile_map, hsame]
    rfl
  | case4 seen n c cs rest hnew hc ih =>
    have hnew' : g c ∈ nodes.map g ∧ g c ∉ seen.map g := by
      rw [mem_rename hg, mem_rename hg]
      exact hnew
    rw [walk, if_neg hc, dif_pos hnew, ← ih]
    show walk _ _ _ ((g n, g c :: cs.map g) :: Path.rename g rest) =
      walk _ _ (g c :: seen.map g) ((g c, (a.of c).map g) :: (g n, cs.map g) :: Path.rename g rest)
    rw [walk, Path.nodes_rename_cons, if_neg (mt (mem_rename hg).1 hc), dif_pos hnew',
      Adjacency.of_rename hg]
  | case5 seen n c cs rest hold hc ih =>
    have hold' : ¬(g c ∈ nodes.map g ∧ g c ∉ seen.map g) := by
      rw [mem_rename hg, mem_rename hg]
      exact hold
    rw [walk, if_neg hc, dif_neg hold, ← ih]
    show walk _ _ _ ((g n, g c :: cs.map g) :: Path.rename g rest) =
      walk _ _ (seen.map g) ((g n, cs.map g) :: Path.rename g rest)
    rw [walk, Path.nodes_rename_cons, if_neg (mt (mem_rename hg).1 hc), dif_neg hold']

theorem search_rename (nodes : List String) (a : Adjacency) (seen roots : List String) :
    search (nodes.map g) (a.rename g) (seen.map g) (roots.map g) =
      (search nodes a seen roots).map (List.map g) := by
  induction roots generalizing seen with
  | nil => rfl
  | cons r roots ih =>
    rw [List.map_cons, search, search]
    by_cases hr : r ∈ seen
    · rw [if_pos hr, if_pos ((mem_rename hg).2 hr), ih]
    · have hwalk := walk_rename hg nodes a (r :: seen) [(r, a.of r)]
      rw [if_neg hr, if_neg (mt (mem_rename hg).1 hr), Adjacency.of_rename hg]
      show (match walk _ _ ((r :: seen).map g) (Path.rename g [(r, a.of r)]) with
        | .cycle c => some c
        | .done seen => search _ _ seen _) = _
      rw [hwalk]
      cases walk nodes a (r :: seen) [(r, a.of r)] with
      | cycle c => rfl
      | done seen' => exact ih seen'

/-- The same cycle is found under new names. -/
theorem cycle?_rename (nodes : List String) (a : Adjacency) :
    cycle? (nodes.map g) (a.rename g) = (cycle? nodes a).map (List.map g) :=
  search_rename hg nodes a [] nodes

end Graph

/-! ## Ordering -/

namespace Kahn

variable {g : String → String} {position position' : String → Nat}
  {needs dependents needs' dependents' : String → List String}

def Queue.rename (g : String → String) (q : Queue) : Queue := q.map fun e => (e.1, g e.2)

def Counts.rename (g : String → String) (c : Counts) : Counts := c.map fun e => (g e.1, e.2)

def State.rename (g : String → String) (s : State) : State :=
  ⟨s.counts.rename g, s.queue.rename g, s.ordered.map g⟩

theorem Queue.push_rename (q : Queue) (e : Nat × String) :
    (q.rename g).push (e.1, g e.2) = (q.push e).rename g := by
  induction q with
  | nil => rfl
  | cons f q ih =>
    show Queue.push ((f.1, g f.2) :: Queue.rename g q) (e.1, g e.2) = _
    rw [push, push, ih]
    split <;> rfl

theorem Queue.ofNodes_rename (hposition : ∀ x, position' (g x) = position x) (nodes : List String) :
    Queue.ofNodes position' (nodes.map g) = (Queue.ofNodes position nodes).rename g := by
  have hfold : ∀ (l : List (Nat × String)) (q : Queue),
      (l.map fun e => (e.1, g e.2)).foldl push (q.rename g) = (l.foldl push q).rename g := by
    intro l
    induction l with
    | nil => exact fun _ => rfl
    | cons e l ih =>
      intro q
      rw [List.map_cons, List.foldl_cons, push_rename, ih, List.foldl_cons]
  have hentries : (nodes.map g).map (fun x => (position' x, x)) =
      (nodes.map fun x => (position x, x)).map fun e => (e.1, g e.2) := by
    rw [List.map_map, List.map_map]
    refine List.map_congr_left fun x _ => ?_
    rw [Function.comp_apply, hposition]
    rfl
  rw [ofNodes, hentries]
  exact hfold _ []

variable (hg : Function.Injective g)

include hg

theorem Counts.lower_rename (c : Counts) (x : String) :
    (c.rename g).lower (g x) = (c.lower x).rename g := by
  unfold lower rename
  rw [List.map_map, List.map_map]
  refine List.map_congr_left fun e _ => ?_
  rw [Function.comp_apply, Function.comp_apply]
  simp only [hg.eq_iff]

theorem Counts.lookup_rename (c : Counts) (x : String) :
    (c.rename g).lookup (g x) = c.lookup x := by
  have hlookup := lookup_map_injective hg (fun n : Int => n) c x
  rw [Option.map_id'] at hlookup
  exact hlookup

variable (hposition : ∀ x, position' (g x) = position x)

include hposition

theorem State.release_rename (s : State) (x : String) :
    (s.rename g).release position' (g x) = (s.release position x).rename g := by
  have hpush : (s.queue.rename g).push (position x, g x) = (s.queue.push (position x, x)).rename g :=
    Queue.push_rename s.queue (position x, x)
  unfold release State.rename
  dsimp only
  rw [Counts.lower_rename hg, Counts.lookup_rename hg, hposition, hpush]
  split <;> rfl

theorem State.foldl_release_rename (l : List String) (s : State) :
    (l.map g).foldl (release position') (s.rename g) =
      (l.foldl (release position) s).rename g := by
  induction l generalizing s with
  | nil => rfl
  | cons x l ih => rw [List.map_cons, List.foldl_cons, release_rename hg hposition, ih, List.foldl_cons]

variable (hdependents : ∀ x, dependents' (g x) = (dependents x).map g)

include hdependents

theorem State.run_rename (s : State) :
    (s.rename g).run position' dependents' = (s.run position dependents).rename g := by
  induction s using State.run.induct position dependents with
  | case1 counts ordered =>
    show State.run _ _ ⟨_, [], _⟩ = _
    rw [State.run, State.run]
    rfl
  | case2 counts n x queue ordered ih =>
    show State.run _ _ ⟨counts.rename g, (n, g x) :: Queue.rename g queue, ordered.map g⟩ = _
    rw [State.run, State.run, ← ih, hdependents, ← foldl_release_rename hg hposition]
    unfold State.rename
    rw [List.map_append]
    rfl

/-- The same order is found under new names. -/
theorem order_rename (hneeds : ∀ x, needs' (g x) = (needs x).map g) (nodes : List String) :
    order position' (nodes.map g) needs' dependents' =
      (order position nodes needs dependents).map g := by
  have hcounts : ((nodes.map g).map fun x => (x, ((needs' x).length : Int))) =
      Counts.rename g (nodes.map fun x => (x, ((needs x).length : Int))) := by
    unfold Counts.rename
    rw [List.map_map, List.map_map]
    refine List.map_congr_left fun x _ => ?_
    rw [Function.comp_apply, Function.comp_apply, hneeds, List.length_map]
  have hstart : start position' (nodes.map g) needs' = (start position nodes needs).rename g := by
    have hready : ∀ c : Counts, ((Counts.rename g c).filter (·.2 = 0)).map (·.1) =
        ((c.filter (·.2 = 0)).map (·.1)).map g := by
      intro c
      unfold Counts.rename
      rw [List.filter_map, List.map_map, List.map_map]
      rfl
    unfold start
    dsimp only
    rw [hcounts, hready, Queue.ofNodes_rename hposition]
    rfl
  unfold order
  rw [hstart, State.run_rename hg hposition hdependents]
  rfl

end Kahn

/-! ## Resolving -/

section Resolving

variable {ρ : Renaming} {s : Schema}

def Edge.rename (ρ : Renaming) (e : Edge) : Edge :=
  ⟨e.reference.rename ρ, e.owner.rename ρ, e.ownerField.rename ρ, e.target.rename ρ,
    e.targetField.rename ρ⟩

theorem Edge.ownerId_rename (ρ : Renaming) (e : Edge) :
    (e.rename ρ).owner.id = ρ.table e.owner.id := rfl

theorem Edge.targetId_rename (ρ : Renaming) (e : Edge) :
    (e.rename ρ).target.id = ρ.table e.target.id := rfl

theorem Reference.endpoint_rename {r : Reference} {tableId fieldId : String} {p : Table × Field}
    (h : r.endpoint s tableId fieldId = .ok p) :
    (r.rename ρ).endpoint (s.rename ρ) (ρ.table tableId) (ρ.field fieldId) =
      .ok (p.1.rename ρ, p.2.rename ρ) := by
  unfold endpoint at h ⊢
  rw [Schema.tableById?_rename]
  split at h
  · cases h
  · next t ht =>
    rw [ht, Option.map_some]
    dsimp only
    rw [Table.fieldById?_rename]
    split at h
    · cases h
    · next f hf =>
      cases h
      rw [hf]
      rfl

theorem Reference.edge_rename {r : Reference} {e : Edge} (h : r.edge s = .ok e) :
    (r.rename ρ).edge (s.rename ρ) = .ok (e.rename ρ) := by
  unfold edge at h ⊢
  obtain ⟨source, hsource, h⟩ := bind_eq_ok.1 h
  obtain ⟨target, htarget, h⟩ := bind_eq_ok.1 h
  cases h
  refine bind_eq_ok.2 ⟨_, endpoint_rename hsource, bind_eq_ok.2 ⟨_, endpoint_rename htarget, ?_⟩⟩
  show Except.ok (if r.ownedByTarget then _ else _) = Except.ok (Edge.rename ρ (if _ then _ else _))
  split <;> rfl

/-- A check looks at names and types. -/
theorem Edge.check_rename (e : Edge) : (e.rename ρ).check = e.check := rfl

theorem Edge.link_rename (owner target : String) (a : Graph.Adjacency) :
    link (ρ.table owner) (ρ.table target) (a.rename ρ.table) =
      (link owner target a).rename ρ.table := by
  induction a with
  | nil => rfl
  | cons p a ih =>
    obtain ⟨n, ts⟩ := p
    have hmem : ρ.table target ∈ ts.map ρ.table ↔ target ∈ ts :=
      Graph.mem_rename ρ.table_injective
    show link _ _ ((ρ.table n, ts.map ρ.table) :: Graph.Adjacency.rename ρ.table a) = _
    rw [link, link, ih]
    by_cases hn : n = owner
    · rw [if_pos hn, if_pos (congrArg ρ.table hn)]
      by_cases htarget : target ∈ ts
      · rw [if_pos htarget, if_pos (hmem.2 htarget)]
        rfl
      · rw [if_neg htarget, if_neg (mt hmem.1 htarget)]
        simp [Graph.Adjacency.rename]
    · rw [if_neg hn, if_neg (ρ.table_injective.ne hn)]
      rfl

theorem Edge.graph_rename (edges : List Edge) :
    graph (edges.map (Edge.rename ρ)) = (graph edges).rename ρ.table := by
  have hself : ((fun e : Edge => !e.isSelf) ∘ Edge.rename ρ) = fun e : Edge => !e.isSelf := by
    funext e
    show (!(ρ.table e.owner.id == ρ.table e.target.id)) = !(e.owner.id == e.target.id)
    rw [Bool.not_inj_iff, Bool.eq_iff_iff, beq_iff_eq, beq_iff_eq, ρ.table_injective.eq_iff]
  have hfold : ∀ (l : List Edge) (a : Graph.Adjacency),
      (l.map (Edge.rename ρ)).foldl (fun a e => link e.owner.id e.target.id a) (a.rename ρ.table) =
        (l.foldl (fun a e => link e.owner.id e.target.id a) a).rename ρ.table := by
    intro l
    induction l with
    | nil => exact fun _ => rfl
    | cons e l ih =>
      intro a
      rw [List.map_cons, List.foldl_cons, List.foldl_cons, ← ih, ← link_rename]
      rfl
  unfold graph
  rw [List.filter_map, hself]
  exact hfold _ []

theorem Schema.resolveReference_rename {r : Reference} {e : Edge}
    (h : (s.resolveReference r).outcome = .ok e) :
    (s.rename ρ).resolveReference (r.rename ρ) =
      ⟨(s.resolveReference r).findings, .ok (e.rename ρ)⟩ := by
  rw [resolveReference_eq] at h ⊢
  rw [resolveReference_eq]
  obtain ⟨e', he, h⟩ := Advised.outcome_bind_eq_ok.1 h
  obtain ⟨_, hcheck, h⟩ := Advised.outcome_bind_eq_ok.1 h
  cases h
  have hedge : r.edge s = .ok e := he
  rw [hedge, Reference.edge_rename hedge]
  have hchecked : ∀ x : Edge, (e.check >>= fun _ => (pure x : Advised Edge)) =
      ⟨e.check.findings ++ [], .ok x⟩ := fun x => Advised.bind_of_ok hcheck _
  show ((e.rename ρ).check >>= fun _ => pure (e.rename ρ)) =
    ⟨[] ++ (e.check >>= fun _ => pure e).findings, _⟩
  rw [Edge.check_rename, hchecked, hchecked]
  rfl

/-- A schema that is resolved is resolved with other ids as well, and the same is found. -/
theorem Schema.resolve_rename {edges : List Edge} (h : s.resolve.outcome = .ok edges) :
    (s.rename ρ).resolve = ⟨s.resolve.findings, .ok (edges.map (Edge.rename ρ))⟩ := by
  unfold resolve at h ⊢
  obtain ⟨edges', hedges, h⟩ := Advised.outcome_bind_eq_ok.1 h
  have hrenamed : (s.rename ρ).references.mapM (s.rename ρ).resolveReference =
      ⟨(s.references.mapM s.resolveReference).findings, .ok (edges'.map (Edge.rename ρ))⟩ :=
    Advised.mapM_map_of_ok hedges fun _ _ => resolveReference_rename
  have hids : (s.rename ρ).tables.map (·.id) = (s.tables.map (·.id)).map ρ.table := by
    unfold rename
    rw [List.map_map, List.map_map]
    rfl
  have hcycle := Graph.cycle?_rename ρ.table_injective (s.tables.map (·.id)) (Edge.graph edges')
  rw [hrenamed, Advised.bind_of_ok hedges, Advised.bind_of_ok rfl]
  dsimp only
  rw [hids, Edge.graph_rename, hcycle]
  split at h
  · cases h
  · next hnone =>
    cases h
    rw [hnone]
    rfl

end Resolving

end Schemata
