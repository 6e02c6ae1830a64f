import Schemata.Proofs.Computation
import Schemata.Proofs.Plan.Groups

/-!
# What a plan carries out

`Carries` says what a plan for tables and edges is: all tables are created first, then the keys of
each owner are attached in one task, after those of the owners they point to, and always the first
owner in the list whose turn it can be. `carries_orderBy` shows that every plan that is returned is
one, however the dependents of a table are arranged, and `orderBy_eq_order` that the arrangement makes
no difference at all.
-/

namespace Schemata

/-! ## Stamps -/

/-- The ticks of a list are counted from the first one. -/
theorem Clock.stampFrom_eq_ok {α : Type} {c : Clock} {l : List α} {n : Nat} {r : List (α × Stamp)}
    (h : c.stampFrom n l = .ok r) :
    r.map (·.1) = l ∧ r.map (·.2.tick) = List.range' n l.length := by
  induction l generalizing n r with
  | nil =>
    cases h
    exact ⟨rfl, rfl⟩
  | cons x l ih =>
    rw [stampFrom, bind_eq_ok] at h
    obtain ⟨s, hs, h⟩ := h
    obtain ⟨r, hr, h⟩ := bind_eq_ok.1 h
    cases h
    obtain ⟨hfst, htick⟩ := ih hr
    rw [List.map_cons, List.map_cons, hfst, htick, List.length_cons, List.range'_succ,
      tick_of_stamp hs]
    exact ⟨rfl, rfl⟩

theorem Clock.eq_of_start_eq_error {base : Instant} {step : Int} {f : Fault}
    (h : start base step = .error f) : f = .badStep := by
  unfold start at h
  split at h <;> cases h
  rfl

theorem Clock.eq_of_stampFrom_eq_error {α : Type} {c : Clock} {l : List α} {n : Nat} {f : Fault}
    (h : c.stampFrom n l = .error f) : f = .instantOutOfRange := by
  induction l generalizing n with
  | nil => cases h
  | cons x l ih =>
    rw [stampFrom, bind_eq_error] at h
    obtain h | ⟨s, _, h⟩ := h
    · unfold stamp at h
      split at h <;> cases h
      rfl
    · obtain h | ⟨r, _, h⟩ := bind_eq_error.1 h
      · exact ih h
      · cases h

namespace Plan

theorem checkEnds_eq_ok {tables : List Table} {edges : List Edge} :
    checkEnds tables edges = .ok () ↔
      ∀ e ∈ edges, (∃ t ∈ tables, t.id = e.owner.id) ∧ ∃ t ∈ tables, t.id = e.target.id := by
  unfold checkEnds
  rw [forM_eq_ok]
  apply forall₂_congr
  intro e he
  rw [forM_eq_ok]
  simp

/-! ## The property -/

/-- The edges whose keys a table holds, in their order. -/
def held (edges : List Edge) (t : Table) : List Edge := edges.filter (·.owner.id = t.id)

/-- A table of a list that holds a key. -/
def IsOwner (tables : List Table) (edges : List Edge) (t : Table) : Prop :=
  t ∈ tables ∧ ∃ e ∈ edges, e.owner.id = t.id

/-- An owner whose turn it can be after some others: its keys lead to itself, to tables that hold no
keys, or to those others. -/
def Attachable (tables : List Table) (edges : List Edge) (done : List Table) (t : Table) : Prop :=
  IsOwner tables edges t ∧ t ∉ done ∧
    ∀ e ∈ held edges t, ∀ u, IsOwner tables edges u → u.id = e.target.id → u ≠ t → u ∈ done

/-- The tables whose keys a plan attaches, in its order. -/
def attached (p : Plan) : List Table := p.attachments.map (·.table)

/-- A plan that creates some tables and attaches the keys of some edges. -/
structure Carries (tables : List Table) (edges : List Edge) (p : Plan) : Prop where
  /-- All tables are created before any keys are attached. -/
  phases : p.tasks = p.creates ++ p.attachments
  /-- Each table is created once, in the order of the list. -/
  creates : p.creates.map (·.table) = tables
  edges_creates : ∀ a ∈ p.creates, a.edges = []
  /-- The keys of each owner are attached once, and no others. -/
  nodup_attached : p.attached.Nodup
  mem_attached : ∀ t, t ∈ p.attached ↔ IsOwner tables edges t
  /-- A task attaches all keys of its table, in their order. -/
  edges_attachments : ∀ a ∈ p.attachments, a.edges = held edges a.table
  /-- No edge is lost, and none comes twice. -/
  perm_edges : (p.tasks.flatMap (·.edges)).Perm edges
  /-- The keys of an owner come after those of the other owners that it points to. -/
  after_targets : ∀ before t after, p.attached = before ++ t :: after →
    ∀ e ∈ held edges t, ∀ u, IsOwner tables edges u → u.id = e.target.id → u ≠ t → u ∈ before
  /-- Of the owners whose turn it can be, the first in the list of tables comes next. -/
  first_attachable : ∀ before t after, p.attached = before ++ t :: after →
    Attachable tables edges before t ∧
      ∀ u, Attachable tables edges before u → tables.idxOf t ≤ tables.idxOf u
  /-- The ticks count the tasks. -/
  ticks : p.tasks.map (·.stamp.tick) = List.range p.tasks.length

/-! ## The order of the attachments -/

section Attached

variable {tables : List Table} {edges : List Edge}

/-- The edges of some tables are those whose owner is among them. -/
theorem perm_flatMap_held {l : List Table} (hl : (l.map Table.id).Nodup) :
    (l.flatMap (held edges)).Perm (edges.filter (·.owner.id ∈ l.map Table.id)) := by
  induction l with
  | nil => simp
  | cons t l ih =>
    obtain ⟨ht, hl⟩ := List.nodup_cons.1 hl
    have hthis : (edges.filter (·.owner.id ∈ (t :: l).map Table.id)).filter (·.owner.id = t.id) =
        held edges t := by
      rw [List.filter_filter]
      apply List.filter_congr
      intro e _
      simp only [List.map_cons, List.mem_cons]
      by_cases h : e.owner.id = t.id <;> simp [h]
    have hothers : (edges.filter (·.owner.id ∈ (t :: l).map Table.id)).filter
        (fun e => !decide (e.owner.id = t.id)) = edges.filter (·.owner.id ∈ l.map Table.id) := by
      rw [List.filter_filter]
      apply List.filter_congr
      intro e _
      simp only [List.map_cons, List.mem_cons]
      by_cases h : e.owner.id = t.id
      · simp only [h, ht]
        simp
      · simp [h]
    have hsplit := List.filter_append_perm (fun e : Edge => decide (e.owner.id = t.id))
      (edges.filter (·.owner.id ∈ (t :: l).map Table.id))
    rw [hthis, hothers] at hsplit
    exact ((ih hl).append_left _).trans hsplit

variable (hids : (tables.map Table.id).Nodup)
  (hin : ∀ e ∈ edges, ∃ t ∈ tables, t.id = e.owner.id)

include hids

theorem id_injective {t u : Table} (ht : t ∈ tables) (hu : u ∈ tables) (h : t.id = u.id) : t = u :=
  List.inj_on_of_nodup_map hids ht hu h

include hin

/-- A table can be attached when its id is ready in the graph of the owners. -/
theorem ready_iff_attachable {done : List Table} (hdone : done ⊆ tables) {t : Table}
    (ht : t ∈ tables) :
    Kahn.Ready (Groups.ofEdges edges).owners (Groups.ofEdges edges).needs (done.map Table.id) t.id ↔
      Attachable tables edges done t := by
  have hmem : ∀ u ∈ tables, (u.id ∈ done.map Table.id ↔ u ∈ done) := by
    intro u hu
    constructor
    · intro h
      obtain ⟨v, hv, hid⟩ := List.mem_map.1 h
      rwa [← id_injective hids (hdone hv) hu hid]
    · exact List.mem_map_of_mem
  unfold Kahn.Ready Attachable IsOwner
  rw [hmem t ht, Groups.mem_owners_ofEdges]
  constructor
  · rintro ⟨howner, hfresh, hneeds⟩
    refine ⟨⟨ht, howner⟩, hfresh, fun e he u hu hid hne => ?_⟩
    obtain ⟨he, heo⟩ := List.mem_filter.1 he
    refine (hmem u hu.1).1 (hneeds u.id (Groups.mem_needs_ofEdges.2 ⟨?_, hu.2, e, he, ?_, hid.symm⟩))
    · exact fun h => hne (id_injective hids hu.1 ht h)
    · exact of_decide_eq_true heo
  · rintro ⟨⟨_, howner⟩, hfresh, htargets⟩
    refine ⟨howner, hfresh, fun id hid => ?_⟩
    obtain ⟨hne, ⟨f, hf, rfl⟩, e, he, heo, het⟩ := Groups.mem_needs_ofEdges.1 hid
    obtain ⟨u, hu, hid⟩ := hin f hf
    rw [← hid] at hne het ⊢
    refine (hmem u hu).2 (htargets e (List.mem_filter.2 ⟨he, decide_eq_true heo⟩) u
      ⟨hu, f, hf, hid.symm⟩ het.symm ?_)
    rintro rfl
    exact hne rfl

variable {arrange : String → List String → List String}
  (harrange : ∀ id l, (arrange id l).Perm l)

include harrange

/-- The tables whose keys can be attached, each one the first whose turn it can be. -/
theorem exists_attachable :
    ∃ l ⊆ tables, l.map Table.id = attachable arrange tables (Groups.ofEdges edges) ∧
      ∀ before t after, l = before ++ t :: after → Attachable tables edges before t ∧
        ∀ u, Attachable tables edges before u → tables.idxOf t ≤ tables.idxOf u := by
  have hg := graph_ofEdges hids hin harrange
  have hgreedy := Kahn.greedy_order hg
  obtain ⟨l, hl, hmap⟩ : ∃ l ⊆ tables,
      l.map Table.id = attachable arrange tables (Groups.ofEdges edges) := by
    apply exists_map_id
    intro id hid
    obtain ⟨e, he, rfl⟩ := Groups.mem_owners_ofEdges.1 (hgreedy.subset_nodes hid)
    exact hin e he
  refine ⟨l, hl, hmap, ?_⟩
  rintro before t after rfl
  have hbefore : before ⊆ tables := fun u hu => hl (List.mem_append_left _ hu)
  have ht : t ∈ tables := hl (List.mem_append_right _ List.mem_cons_self)
  obtain ⟨hready, hleast⟩ := hgreedy (before.map Table.id) t.id (after.map Table.id)
    (hmap.symm.trans (by simp))
  refine ⟨(ready_iff_attachable hids hin hbefore ht).1 hready, fun u hu => ?_⟩
  have hut := hu.1.1
  rw [idxOf_eq_position hids ht, idxOf_eq_position hids hut]
  exact hleast u.id ((ready_iff_attachable hids hin hbefore hut).2 hu)

end Attached

/-! ## Plans -/

theorem attachOrder_eq_ok {arrange : String → List String → List String} {tables : List Table}
    {g : Groups} {ids : List String} :
    attachOrder arrange tables g = .ok ids ↔
      attachable arrange tables g = ids ∧ ids.length = g.length := by
  unfold attachOrder
  dsimp only
  split
  · next h =>
    rw [Except.ok.injEq]
    exact ⟨fun hids => ⟨hids, hids ▸ h⟩, fun hids => hids.1⟩
  · next h =>
    constructor
    · intro hids
      cases hids
    · rintro ⟨rfl, hlen⟩
      exact absurd hlen h

/-- The parts of a plan that is returned, and the clock that its stamps come from. -/
theorem exists_start_of_orderBy {arrange : String → List String → List String}
    {tables : List Table} {edges : List Edge} {base : Instant} {step : Int} {p : Plan}
    (h : orderBy arrange tables edges base step = .ok p) :
    ∃ (c : Clock) (ids : List String) (created attached : List (Table × Stamp)),
      Clock.start base step = .ok c ∧
      checkEnds tables edges = .ok () ∧ attachOrder arrange tables (.ofEdges edges) = .ok ids ∧
      c.stampFrom 0 tables = .ok created ∧
      c.stampFrom tables.length (tablesOf tables ids) = .ok attached ∧
      p.tasks = created.map (fun a => ⟨.createTable, a.1, [], a.2⟩) ++
        attached.map (fun a => ⟨.attachForeignKeys, a.1, (Groups.ofEdges edges).held a.1.id, a.2⟩) := by
  unfold orderBy at h
  obtain ⟨c, hstart, h⟩ := bind_eq_ok.1 h
  obtain ⟨created, hcreated, h⟩ := bind_eq_ok.1 h
  obtain ⟨_, hends, h⟩ := bind_eq_ok.1 h
  obtain ⟨ids, hids, h⟩ := bind_eq_ok.1 h
  obtain ⟨attached, hattached, h⟩ := bind_eq_ok.1 h
  cases h
  exact ⟨c, ids, created, attached, hstart, hends, hids, hcreated, hattached, rfl⟩

/-- The parts of a plan that is returned. -/
theorem orderBy_eq_ok {arrange : String → List String → List String} {tables : List Table}
    {edges : List Edge} {base : Instant} {step : Int} {p : Plan}
    (h : orderBy arrange tables edges base step = .ok p) :
    ∃ (c : Clock) (ids : List String) (created attached : List (Table × Stamp)),
      checkEnds tables edges = .ok () ∧ attachOrder arrange tables (.ofEdges edges) = .ok ids ∧
      c.stampFrom 0 tables = .ok created ∧
      c.stampFrom tables.length (tablesOf tables ids) = .ok attached ∧
      p.tasks = created.map (fun a => ⟨.createTable, a.1, [], a.2⟩) ++
        attached.map (fun a => ⟨.attachForeignKeys, a.1, (Groups.ofEdges edges).held a.1.id, a.2⟩) := by
  obtain ⟨c, ids, created, attached, -, hparts⟩ := exists_start_of_orderBy h
  exact ⟨c, ids, created, attached, hparts⟩

theorem creates_of_tasks {p : Plan} {created attached : List (Table × Stamp)}
    {f : Table → List Edge}
    (h : p.tasks = created.map (fun a => ⟨.createTable, a.1, [], a.2⟩) ++
      attached.map (fun a => ⟨.attachForeignKeys, a.1, f a.1, a.2⟩)) :
    p.creates = created.map (fun a => ⟨.createTable, a.1, [], a.2⟩) ∧
      p.attachments = attached.map (fun a => ⟨.attachForeignKeys, a.1, f a.1, a.2⟩) := by
  unfold creates attachments
  rw [h, List.filter_append, List.filter_append]
  simp [List.filter_map, Function.comp_def]

/-- A task of a plan creates one of the tables, or attaches the keys that one of them holds. -/
theorem task_of_orderBy {arrange : String → List String → List String} {tables : List Table}
    {edges : List Edge} {base : Instant} {step : Int} {p : Plan}
    (h : orderBy arrange tables edges base step = .ok p) {t : Task} (ht : t ∈ p.tasks) :
    t.table ∈ tables ∧ (t.phase = .createTable ∧ t.edges = [] ∨
      t.phase = .attachForeignKeys ∧ t.edges = held edges t.table) := by
  obtain ⟨c, ids, created, attached, -, -, hcreated, hattached, htasks⟩ := orderBy_eq_ok h
  rw [htasks] at ht
  obtain ht | ht := List.mem_append.1 ht
  · obtain ⟨a, ha, rfl⟩ := List.mem_map.1 ht
    rw [← (Clock.stampFrom_eq_ok hcreated).1]
    exact ⟨List.mem_map_of_mem ha, .inl ⟨rfl, rfl⟩⟩
  · obtain ⟨a, ha, rfl⟩ := List.mem_map.1 ht
    refine ⟨?_, .inr ⟨rfl, Groups.held_ofEdges edges a.1.id⟩⟩
    have hmem : a.1 ∈ tablesOf tables ids := by
      rw [← (Clock.stampFrom_eq_ok hattached).1]
      exact List.mem_map_of_mem ha
    obtain ⟨id, _, hid⟩ := List.mem_filterMap.1 hmem
    obtain ⟨b, hb, hba⟩ := Option.map_eq_some_iff.1 hid
    rw [← hba]
    exact List.fst_mem_of_mem_zipIdx (List.mem_reverse.1 (List.mem_of_find?_eq_some hb))

/-- When tables are told apart by their ids, a task attaches keys of its own table. -/
theorem owner_eq_table {arrange : String → List String → List String} {tables : List Table}
    (hids : (tables.map Table.id).Nodup) {edges : List Edge} (howners : ∀ e ∈ edges, e.owner ∈ tables)
    {base : Instant} {step : Int} {p : Plan} (h : orderBy arrange tables edges base step = .ok p)
    {t : Task} (ht : t ∈ p.tasks) {e : Edge} (he : e ∈ t.edges) : e.owner = t.table := by
  obtain ⟨htable, ⟨-, hnone⟩ | ⟨-, hheld⟩⟩ := task_of_orderBy h ht
  · rw [hnone] at he
    cases he
  · rw [hheld] at he
    obtain ⟨he, hid⟩ := List.mem_filter.1 he
    exact id_injective hids (howners e he) htable (of_decide_eq_true hid)

/-- Every table is created by a task of the plan. -/
theorem exists_create {arrange : String → List String → List String} {tables : List Table}
    {edges : List Edge} {base : Instant} {step : Int} {p : Plan}
    (h : orderBy arrange tables edges base step = .ok p) {u : Table} (hu : u ∈ tables) :
    ∃ t ∈ p.tasks, t.phase = .createTable ∧ t.table = u := by
  obtain ⟨c, ids, created, attached, -, -, hcreated, -, htasks⟩ := orderBy_eq_ok h
  rw [← (Clock.stampFrom_eq_ok hcreated).1] at hu
  obtain ⟨a, ha, rfl⟩ := List.mem_map.1 hu
  exact ⟨_, htasks ▸ List.mem_append_left _ (List.mem_map_of_mem ha), rfl, rfl⟩

/-- An order of full length has all owners. -/
theorem perm_owners_of_length {tables : List Table} (hids : (tables.map Table.id).Nodup)
    {edges : List Edge} (hin : ∀ e ∈ edges, ∃ t ∈ tables, t.id = e.owner.id)
    {arrange : String → List String → List String} (harrange : ∀ id l, (arrange id l).Perm l)
    (hlen : (attachable arrange tables (.ofEdges edges)).length = (Groups.ofEdges edges).length) :
    (attachable arrange tables (.ofEdges edges)).Perm (Groups.ofEdges edges).owners := by
  have hgreedy := Kahn.greedy_order (graph_ofEdges hids hin harrange)
  apply (List.subperm_of_subset hgreedy.nodup hgreedy.subset_nodes).perm_of_length_le
  rw [← Groups.length_ofEdges, ← hlen]
  exact Nat.le_refl _

/-- Every plan that is returned carries out the tables and the edges. -/
theorem carries_orderBy {tables : List Table} (hids : (tables.map Table.id).Nodup)
    {edges : List Edge} {arrange : String → List String → List String}
    (harrange : ∀ id l, (arrange id l).Perm l) {base : Instant} {step : Int} {p : Plan}
    (h : orderBy arrange tables edges base step = .ok p) : Carries tables edges p := by
  obtain ⟨c, ids, created, attached, hends, horder, hcreated, hattached, htasks⟩ := orderBy_eq_ok h
  obtain ⟨hctables, hcticks⟩ := Clock.stampFrom_eq_ok hcreated
  obtain ⟨hatables, haticks⟩ := Clock.stampFrom_eq_ok hattached
  obtain ⟨hpcreates, hpattach⟩ :=
    creates_of_tasks (f := fun t => (Groups.ofEdges edges).held t.id) htasks
  have hin : ∀ e ∈ edges, ∃ t ∈ tables, t.id = e.owner.id := fun e he =>
    (checkEnds_eq_ok.1 hends e he).1
  obtain ⟨l, hl, hmap, hturns⟩ := exists_attachable hids hin harrange
  obtain ⟨rfl, hlen⟩ := attachOrder_eq_ok.1 horder
  rw [← hmap, tablesOf_map_id hids hl] at hatables haticks
  have hp : p.attached = l := by
    rw [Plan.attached, hpattach, List.map_map, ← hatables]
    rfl
  have howners : ∀ id, id ∈ l.map Table.id ↔ ∃ e ∈ edges, e.owner.id = id := by
    intro id
    rw [hmap, (perm_owners_of_length hids hin harrange hlen).mem_iff, Groups.mem_owners_ofEdges]
  have hnodup : (l.map Table.id).Nodup := by
    rw [hmap]
    exact (Kahn.greedy_order (graph_ofEdges hids hin harrange)).nodup
  have hattached' : ∀ t, t ∈ p.attached ↔ IsOwner tables edges t := by
    intro t
    rw [hp]
    constructor
    · exact fun ht => ⟨hl ht, (howners t.id).1 (List.mem_map_of_mem ht)⟩
    · rintro ⟨ht, howner⟩
      obtain ⟨u, hu, hid⟩ := List.mem_map.1 ((howners t.id).2 howner)
      rwa [← id_injective hids (hl hu) ht hid]
  have hheld : ∀ a ∈ p.attachments, a.edges = held edges a.table := by
    rw [hpattach]
    intro a ha
    obtain ⟨b, _, rfl⟩ := List.mem_map.1 ha
    exact Groups.held_ofEdges edges b.1.id
  have hturns' : ∀ before t after, p.attached = before ++ t :: after →
      Attachable tables edges before t ∧
        ∀ u, Attachable tables edges before u → tables.idxOf t ≤ tables.idxOf u := by
    rw [hp]
    exact hturns
  refine ⟨?_, ?_, ?_, ?_, hattached', hheld, ?_, ?_, hturns', ?_⟩
  · rw [hpcreates, hpattach, htasks]
  · rw [hpcreates, List.map_map, ← hctables]
    rfl
  · rw [hpcreates]
    intro a ha
    obtain ⟨b, _, rfl⟩ := List.mem_map.1 ha
    rfl
  · rw [hp]
    exact hnodup.of_map
  · have hnil : created.flatMap (fun _ => ([] : List Edge)) = [] := by simp
    have hflat : p.tasks.flatMap (·.edges) = l.flatMap (held edges) := by
      rw [htasks, List.flatMap_append, List.flatMap_map, List.flatMap_map, hnil, List.nil_append,
        ← hatables, List.flatMap_map]
      apply List.flatMap_congr
      intro a _
      exact Groups.held_ofEdges edges a.1.id
    rw [hflat]
    refine (perm_flatMap_held hnodup).trans (.of_eq (List.filter_eq_self.2 fun e he => ?_))
    exact decide_eq_true ((howners e.owner.id).2 ⟨e, he, rfl⟩)
  · intro before t after hsplit
    exact (hturns' before t after hsplit).1.2.2
  · have hclen : created.length = tables.length := by rw [← hctables, List.length_map]
    have halen : attached.length = l.length := by rw [← hatables, List.length_map]
    rw [htasks, List.map_append, List.map_map, List.map_map, List.length_append, List.length_map,
      List.length_map, hclen, halen, List.range_eq_range', ← List.range'_append_1, Nat.zero_add,
      ← hcticks, ← haticks]
    rfl

def keyField : Field := { id := "k", name := "id", type := .plain .integer, primaryKey := true }

def users : Table := { id := "u", name := "users", fields := [keyField] }

def posts : Table := { id := "p", name := "posts", fields := [keyField] }

def likes : Table := { id := "l", name := "likes", fields := [keyField] }

/-- An edge between the keys of two tables. -/
def edgeBetween (id : String) (owner target : Table) : Edge where
  reference := ⟨id, owner.id, "k", target.id, "k", .manyToOne, .restrict, .restrict, none⟩
  owner := owner
  ownerField := keyField
  target := target
  targetField := keyField

/-- Likes point to posts twice, posts to themselves, and both to users. -/
def blogEdges : List Edge :=
  [edgeBetween "r1" likes posts, edgeBetween "r2" posts users, edgeBetween "r3" posts posts,
    edgeBetween "r4" likes users, edgeBetween "r5" likes posts]

/-- The plan for likes, users and posts attaches the keys of posts first. -/
theorem carries_orderBy_blog : ∃ p,
    orderBy (fun _ l => l.reverse) [likes, users, posts] blogEdges ⟨0, by decide⟩ 1 = .ok p ∧
      p.attached = [posts, likes] ∧ Carries [likes, users, posts] blogEdges p := by
  have hrun : (orderBy (fun _ l => l.reverse) [likes, users, posts] blogEdges ⟨0, by decide⟩
      1).toOption.map attached = some [posts, likes] := by decide +kernel
  obtain ⟨p, hp, hattached⟩ := Option.map_eq_some_iff.1 hrun
  have hok : orderBy (fun _ l => l.reverse) [likes, users, posts] blogEdges ⟨0, by decide⟩ 1 =
      .ok p := by
    cases h : orderBy (fun _ l => l.reverse) [likes, users, posts] blogEdges ⟨0, by decide⟩ 1 with
    | error f => rw [h] at hp; cases hp
    | ok q => rw [h] at hp; cases hp; rfl
  exact ⟨p, hok, hattached, carries_orderBy (by decide) (fun _ l => l.reverse_perm) hok⟩

/-- How the dependents of a table are arranged makes no difference. -/
theorem orderBy_eq_order {tables : List Table} (hids : (tables.map Table.id).Nodup)
    {edges : List Edge} {arrange : String → List String → List String}
    (harrange : ∀ id l, (arrange id l).Perm l) (base : Instant) (step : Int) :
    orderBy arrange tables edges base step = order tables edges base step := by
  unfold order orderBy
  cases hends : checkEnds tables edges with
  | error f => rfl
  | ok _ =>
    have hin : ∀ e ∈ edges, ∃ t ∈ tables, t.id = e.owner.id := fun e he =>
      (checkEnds_eq_ok.1 hends e he).1
    have hsame : attachable arrange tables (.ofEdges edges) =
        attachable (fun _ l => l) tables (.ofEdges edges) :=
      Kahn.order_eq_order (graph_ofEdges hids hin harrange)
        (graph_ofEdges hids hin fun _ l => .refl l)
    simp only [attachOrder, hsame]

end Plan

end Schemata
