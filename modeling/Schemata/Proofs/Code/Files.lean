import Schemata.Code.Artifact
import Schemata.Proofs.Plan.Stamps

/-!
# The files of a plan

A plan has its tasks in the order of their stamps, so sorting them changes nothing and sorting them
the other way turns them round. Files are made for the chosen tasks one by one (`value_render`,
`value_renderRollback`). As a file is named after the token of its task, the names of the files rise
as the tokens do (`pairwise_name`).
-/

namespace Schemata.Code

/-- The file that carries out a task. -/
def taskFile (target : Target) (o : Options) (t : Task) : Artifact :=
  .ofTask t (Artifact.verb t.phase) target.ending (content target o t).value false

/-- The file that undoes a task in a database. -/
def undoFile (e : Engine) (o : Options) (t : Task) : Artifact :=
  .ofTask t (Artifact.rollbackVerb t.phase) "down.sql" (rollbackContent e o t).value true

/-! ## Sorting -/

section Sorting

variable {p : Plan} (h : p.Ascends)

include h

theorem ascending_eq : ascending p = p.tasks :=
  List.mergeSort_of_pairwise (h.imp fun hab => decide_eq_true (Nat.le_of_lt hab.1))

/-- In a plan with ascending ticks there is one way to sort the tasks downwards. -/
theorem descending_eq : descending p = p.tasks.reverse := by
  have hperm : (descending p).Perm p.tasks.reverse :=
    (List.mergeSort_perm _ _).trans p.tasks.reverse_perm.symm
  have hdown : p.tasks.reverse.Pairwise fun a b => b.stamp.tick < a.stamp.tick :=
    List.pairwise_reverse.2 (h.imp And.left)
  have hsorted : (descending p).Pairwise fun a b => b.stamp.tick ≤ a.stamp.tick := by
    refine (List.pairwise_mergeSort ?_ ?_ p.tasks).imp of_decide_eq_true
    · intro a b c hab hbc
      exact decide_eq_true (Nat.le_trans (of_decide_eq_true hbc) (of_decide_eq_true hab))
    · intro a b
      simpa using Nat.le_total b.stamp.tick a.stamp.tick
  -- different tasks have different ticks
  have hticks : (p.tasks.map (·.stamp.tick)).Nodup :=
    List.pairwise_map.2 (h.imp fun hab => Nat.ne_of_lt hab.1)
  refine hperm.eq_of_pairwise ?_ hsorted (hdown.imp Nat.le_of_lt)
  intro a b ha hb hab hba
  exact List.inj_on_of_nodup_map hticks ((List.mergeSort_perm _ _).mem_iff.1 ha)
    (List.mem_reverse.1 hb) (Nat.le_antisymm hba hab)

theorem value_render (target : Target) (o : Options) :
    (render target o p).value = (o.chosen p.tasks).map (taskFile target o) := by
  rw [render, Noted.value_mapM, ascending_eq h]
  rfl

theorem value_renderRollback (e : Engine) (o : Options) :
    (renderRollback (.sql e) o p).value = (o.chosen p.tasks).reverse.map (undoFile e o) := by
  rw [renderRollback, Noted.value_mapM, descending_eq h, Options.chosen, List.filter_reverse]
  rfl

end Sorting

/-! ## Names -/

/-- Files are named in the order of their tokens. -/
theorem fileName_lt {t u : Task} (hlen : t.stamp.token.length = u.stamp.token.length)
    (h : t.stamp.token < u.stamp.token) (v w x y : String) :
    Artifact.fileName t v x < Artifact.fileName u w y := by
  unfold Artifact.fileName
  rw [String.lt_iff]
  simp only [String.append_assoc, String.toList_append]
  rw [← String.length_toList, ← String.length_toList] at hlen
  exact Text.append_lt_append hlen (String.lt_iff.1 h)

/-- When tasks have rising tokens of one length, the names of their files rise. -/
theorem pairwise_name {l : List Task} {f : Task → Artifact}
    (hname : ∀ t, ∃ verb ending, (f t).name = Artifact.fileName t verb ending)
    (hlen : ∀ t ∈ l, t.stamp.token.length = 17)
    (h : l.Pairwise fun a b => a.stamp.token < b.stamp.token) :
    (l.map f).Pairwise fun a b => a.name < b.name := by
  refine List.pairwise_map.2 (h.imp_of_mem fun {a b} ha hb hlt => ?_)
  obtain ⟨v, x, ha'⟩ := hname a
  obtain ⟨w, y, hb'⟩ := hname b
  rw [ha', hb']
  exact fileName_lt ((hlen a ha).trans (hlen b hb).symm) hlt v w x y

end Schemata.Code
