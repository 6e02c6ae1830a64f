import Schemata.Plan.Order
import Schemata.Proofs.Dependency.Renaming

/-!
# Groups of other edges

Edges may be replaced by others, and the ids of their tables by other ids, in a way that tells ids apart
and fits the ends of the edges. Then the groups of the new edges are the groups of the old ones with
everything replaced in them, and so are the owners, what they hold, what they need and who depends on
them.
-/

namespace Schemata.Plan.Groups

/-- Groups with other ids and other edges. -/
def mapped (newId : String → String) (newEdge : Edge → Edge) (g : Groups) : Groups :=
  g.map fun p => (newId p.1, p.2.map newEdge)

section Mapped

variable {newId : String → String} {newEdge : Edge → Edge} (hid : Function.Injective newId)

theorem owners_mapped (g : Groups) : (g.mapped newId newEdge).owners = g.owners.map newId := by
  unfold owners mapped
  rw [List.map_map, List.map_map]
  rfl

include hid

theorem held_mapped (g : Groups) (owner : String) :
    (g.mapped newId newEdge).held (newId owner) = (g.held owner).map newEdge := by
  unfold held mapped
  rw [lookup_map_injective hid]
  cases g.lookup owner <;> rfl

section Owner

variable (howner : ∀ e, (newEdge e).owner.id = newId e.owner.id)

include howner

theorem add_mapped (g : Groups) (e : Edge) :
    add (g.mapped newId newEdge) (newEdge e) = (g.add e).mapped newId newEdge := by
  induction g with
  | nil =>
    show [((newEdge e).owner.id, [newEdge e])] = _
    rw [howner]
    rfl
  | cons p g ih =>
    obtain ⟨x, es⟩ := p
    show add ((newId x, es.map newEdge) :: mapped newId newEdge g) (newEdge e) = _
    rw [add, add, ih, howner]
    by_cases hx : x = e.owner.id
    · rw [if_pos hx, if_pos (congrArg newId hx)]
      simp [mapped]
    · rw [if_neg hx, if_neg (hid.ne hx)]
      rfl

theorem ofEdges_mapped (edges : List Edge) :
    ofEdges (edges.map newEdge) = (ofEdges edges).mapped newId newEdge := by
  have hfold : ∀ (l : List Edge) (g : Groups),
      (l.map newEdge).foldl add (g.mapped newId newEdge) = (l.foldl add g).mapped newId newEdge := by
    intro l
    induction l with
    | nil => exact fun _ => rfl
    | cons e l ih =>
      intro g
      rw [List.map_cons, List.foldl_cons, List.foldl_cons, add_mapped hid howner, ih]
  exact hfold edges []

end Owner

section Target

variable (htarget : ∀ e, (newEdge e).target.id = newId e.target.id)

include htarget

theorem needs_mapped (g : Groups) (owner : String) :
    (g.mapped newId newEdge).needs (newId owner) = (g.needs owner).map newId := by
  have htargets : ((g.held owner).map newEdge).map (·.target.id) =
      ((g.held owner).map (·.target.id)).map newId := by
    rw [List.map_map, List.map_map]
    exact List.map_congr_left fun e _ => htarget e
  unfold needs
  rw [owners_mapped, held_mapped hid, htargets, List.filter_map]
  congr 1
  refine List.filter_congr fun t _ => ?_
  rw [Function.comp_apply, decide_eq_decide, hid.ne_iff, List.mem_map_of_injective hid]

theorem dependents_mapped (g : Groups) (target : String) :
    (g.mapped newId newEdge).dependents (newId target) = (g.dependents target).map newId := by
  unfold dependents
  rw [owners_mapped, List.filter_map]
  congr 1
  refine List.filter_congr fun t _ => ?_
  rw [Function.comp_apply, decide_eq_decide, needs_mapped hid htarget,
    List.mem_map_of_injective hid]

end Target

end Mapped

end Schemata.Plan.Groups
