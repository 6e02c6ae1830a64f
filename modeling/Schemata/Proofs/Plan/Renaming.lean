import Schemata.Proofs.Plan.Mapped
import Schemata.Proofs.Plan.Order

/-!
# Plans for tables with other ids

The plan for tables with other ids is the plan for the tables with other ids: the same tasks in the
same order with the same stamps (`order_rename`). By `orderBy_eq_order` this holds however the
dependents of a table are arranged, in either run.
-/

namespace Schemata

def Task.rename (ρ : Renaming) (t : Task) : Task :=
  { t with table := t.table.rename ρ, edges := t.edges.map (Edge.rename ρ) }

def Plan.rename (ρ : Renaming) (p : Plan) : Plan := ⟨p.tasks.map (Task.rename ρ)⟩

/-- Other values get the same stamps. -/
theorem Clock.stampFrom_map {α β : Type} {c : Clock} {l : List α} {n : Nat} {r : List (α × Stamp)}
    (h : c.stampFrom n l = .ok r) (f : α → β) :
    c.stampFrom n (l.map f) = .ok (r.map fun p => (f p.1, p.2)) := by
  induction l generalizing n r with
  | nil =>
    cases h
    rfl
  | cons x l ih =>
    rw [stampFrom, bind_eq_ok] at h
    obtain ⟨s, hs, h⟩ := h
    obtain ⟨r', hr', h⟩ := bind_eq_ok.1 h
    cases h
    rw [List.map_cons, stampFrom]
    exact bind_eq_ok.2 ⟨s, hs, bind_eq_ok.2 ⟨_, ih hr', rfl⟩⟩

namespace Plan

variable {ρ : Renaming}

/-! ## Groups -/

namespace Groups

def rename (ρ : Renaming) (g : Groups) : Groups :=
  g.map fun p => (ρ.table p.1, p.2.map (Edge.rename ρ))

theorem ofEdges_rename (edges : List Edge) :
    ofEdges (edges.map (Edge.rename ρ)) = (ofEdges edges).rename ρ :=
  ofEdges_mapped ρ.table_injective (Edge.ownerId_rename ρ) edges

theorem owners_rename (g : Groups) : (g.rename ρ).owners = g.owners.map ρ.table := owners_mapped g

theorem held_rename (g : Groups) (owner : String) :
    (g.rename ρ).held (ρ.table owner) = (g.held owner).map (Edge.rename ρ) :=
  held_mapped ρ.table_injective g owner

theorem needs_rename (g : Groups) (owner : String) :
    (g.rename ρ).needs (ρ.table owner) = (g.needs owner).map ρ.table :=
  needs_mapped ρ.table_injective (Edge.targetId_rename ρ) g owner

theorem dependents_rename (g : Groups) (target : String) :
    (g.rename ρ).dependents (ρ.table target) = (g.dependents target).map ρ.table :=
  dependents_mapped ρ.table_injective (Edge.targetId_rename ρ) g target

end Groups

/-! ## Tables -/

theorem find?_rename (tables : List Table) (id : String) :
    find? (tables.map (Table.rename ρ)) (ρ.table id) =
      (find? tables id).map fun p => (p.1.rename ρ, p.2) := by
  have hentries : (tables.map (Table.rename ρ)).zipIdx.reverse =
      tables.zipIdx.reverse.map fun p => (p.1.rename ρ, p.2) := by
    rw [List.zipIdx_map, ← List.map_reverse]
    rfl
  have hsame : ((fun p : Table × Nat => decide (p.1.id = ρ.table id)) ∘
      fun p : Table × Nat => (p.1.rename ρ, p.2)) = fun p : Table × Nat => decide (p.1.id = id) :=
    funext fun _ => decide_eq_decide.2 ρ.table_injective.eq_iff
  unfold find?
  rw [hentries, List.find?_map, hsame]

theorem position_rename (tables : List Table) (id : String) :
    position (tables.map (Table.rename ρ)) (ρ.table id) = position tables id := by
  unfold position
  rw [find?_rename]
  cases find? tables id <;> rfl

theorem tablesOf_rename (tables : List Table) (ids : List String) :
    tablesOf (tables.map (Table.rename ρ)) (ids.map ρ.table) =
      (tablesOf tables ids).map (Table.rename ρ) := by
  unfold tablesOf
  rw [List.filterMap_map, List.map_filterMap]
  refine List.filterMap_congr fun id _ => ?_
  rw [Function.comp_apply, find?_rename, Option.map_map, Option.map_map]
  rfl

/-! ## Plans -/

/-- The keys are attached in the same order. -/
theorem attachable_rename (tables : List Table) (g : Groups) :
    attachable (fun _ l => l) (tables.map (Table.rename ρ)) (g.rename ρ) =
      (attachable (fun _ l => l) tables g).map ρ.table := by
  unfold attachable
  rw [Groups.owners_rename]
  exact Kahn.order_rename ρ.table_injective (position_rename tables) g.dependents_rename
    g.needs_rename g.owners

theorem attachOrder_rename {tables : List Table} {g : Groups} {ids : List String}
    (h : attachOrder (fun _ l => l) tables g = .ok ids) :
    attachOrder (fun _ l => l) (tables.map (Table.rename ρ)) (g.rename ρ) =
      .ok (ids.map ρ.table) := by
  obtain ⟨rfl, hlength⟩ := attachOrder_eq_ok.1 h
  refine attachOrder_eq_ok.2 ⟨attachable_rename tables g, ?_⟩
  rw [List.length_map, hlength]
  exact (List.length_map _).symm

theorem checkEnds_rename {tables : List Table} {edges : List Edge}
    (h : checkEnds tables edges = .ok ()) :
    checkEnds (tables.map (Table.rename ρ)) (edges.map (Edge.rename ρ)) = .ok () := by
  rw [checkEnds_eq_ok] at h ⊢
  have hmem : ∀ id, (∃ t ∈ tables, t.id = id) →
      ∃ t ∈ tables.map (Table.rename ρ), t.id = ρ.table id := by
    rintro _ ⟨t, ht, rfl⟩
    exact ⟨t.rename ρ, List.mem_map_of_mem ht, rfl⟩
  intro e he
  obtain ⟨e, hedge, rfl⟩ := List.mem_map.1 he
  exact ⟨hmem _ (h e hedge).1, hmem _ (h e hedge).2⟩

theorem order_rename {tables : List Table} {edges : List Edge} {base : Instant} {step : Int}
    {p : Plan} (h : order tables edges base step = .ok p) :
    order (tables.map (Table.rename ρ)) (edges.map (Edge.rename ρ)) base step =
      .ok (p.rename ρ) := by
  unfold order orderBy at h ⊢
  obtain ⟨c, hstart, h⟩ := bind_eq_ok.1 h
  obtain ⟨created, hcreated, h⟩ := bind_eq_ok.1 h
  obtain ⟨_, hends, h⟩ := bind_eq_ok.1 h
  obtain ⟨ids, hids, h⟩ := bind_eq_ok.1 h
  obtain ⟨attached, hattached, h⟩ := bind_eq_ok.1 h
  cases h
  have hids' := attachOrder_rename (ρ := ρ) hids
  have hattached' := Clock.stampFrom_map hattached (Table.rename ρ)
  rw [← tablesOf_rename] at hattached'
  refine bind_eq_ok.2 ⟨c, hstart, ?_⟩
  refine bind_eq_ok.2 ⟨_, Clock.stampFrom_map hcreated (Table.rename ρ), ?_⟩
  refine bind_eq_ok.2 ⟨(), checkEnds_rename hends, ?_⟩
  rw [Groups.ofEdges_rename]
  refine bind_eq_ok.2 ⟨_, hids', ?_⟩
  rw [List.length_map]
  refine bind_eq_ok.2 ⟨_, hattached', ?_⟩
  refine congrArg (fun tasks => Except.ok (Plan.mk tasks)) ?_
  rw [List.map_append, List.map_map, List.map_map, List.map_map, List.map_map]
  congr 1
  refine List.map_congr_left fun a _ => ?_
  have hheld := Groups.held_rename (ρ := ρ) (Groups.ofEdges edges) a.1.id
  show Task.mk _ _ (Groups.held _ (ρ.table a.1.id)) _ = Task.rename ρ _
  rw [hheld]
  rfl

end Plan

end Schemata
