import Schemata.Proofs.Dependency.Orientation
import Schemata.Proofs.Plan.Mapped

/-!
# Plans without references

The plan for some edges looks at the tables at their ends only, and carries their references along. So
the plan for edges without the ends of their references is the plan for the edges, or fails as it does
(`Plan.order_undrawn`).
-/

namespace Schemata

def Task.undrawn (t : Task) : Task := { t with edges := t.edges.map Edge.undrawn }

def Plan.undrawn (p : Plan) : Plan := ⟨p.tasks.map Task.undrawn⟩

namespace Plan

/-! ## Groups -/

namespace Groups

def undrawn (g : Groups) : Groups := g.mapped id Edge.undrawn

theorem ofEdges_undrawn (edges : List Edge) :
    ofEdges (edges.map Edge.undrawn) = (ofEdges edges).undrawn :=
  ofEdges_mapped Function.injective_id (fun e => congrArg Table.id e.owner_undrawn) edges

theorem owners_undrawn (g : Groups) : g.undrawn.owners = g.owners :=
  (owners_mapped g).trans (List.map_id _)

theorem held_undrawn (g : Groups) (owner : String) :
    g.undrawn.held owner = (g.held owner).map Edge.undrawn :=
  held_mapped Function.injective_id g owner

theorem needs_undrawn (g : Groups) : g.undrawn.needs = g.needs := by
  funext owner
  exact (needs_mapped Function.injective_id (fun e => congrArg Table.id e.target_undrawn) g
    owner).trans (List.map_id _)

theorem dependents_undrawn (g : Groups) : g.undrawn.dependents = g.dependents := by
  funext target
  exact (dependents_mapped Function.injective_id (fun e => congrArg Table.id e.target_undrawn) g
    target).trans (List.map_id _)

end Groups

/-! ## Plans -/

theorem attachOrder_undrawn (arrange : String → List String → List String) (tables : List Table)
    (g : Groups) : attachOrder arrange tables g.undrawn = attachOrder arrange tables g := by
  have hordered : attachable arrange tables g.undrawn = attachable arrange tables g := by
    unfold attachable
    rw [Groups.owners_undrawn, Groups.needs_undrawn, Groups.dependents_undrawn]
  have hlength : g.undrawn.length = g.length := List.length_map _
  unfold attachOrder stuck
  rw [hordered, hlength, Groups.owners_undrawn]

theorem checkEnds_undrawn (tables : List Table) (edges : List Edge) :
    checkEnds tables (edges.map Edge.undrawn) = checkEnds tables edges := by
  unfold checkEnds
  induction edges with
  | nil => rfl
  | cons e edges ih => exact congrArg (fun rest => _ >>= fun _ => rest) ih

/-- The plan for edges without the ends of their references, or why there is none. -/
theorem order_undrawn (tables : List Table) (edges : List Edge) (base : Instant) (step : Int) :
    order tables (edges.map Edge.undrawn) base step = undrawn <$> order tables edges base step := by
  unfold order orderBy
  dsimp only
  rw [checkEnds_undrawn, Groups.ofEdges_undrawn, attachOrder_undrawn]
  simp only [map_bind, map_pure]
  refine bind_congr fun clock => bind_congr fun created => bind_congr fun _ => ?_
  refine bind_congr fun ids => bind_congr fun attached => congrArg pure ?_
  simp only [Groups.held_undrawn]
  rw [undrawn, List.map_append, List.map_map, List.map_map]
  rfl

end Plan

end Schemata
