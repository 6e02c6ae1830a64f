import Schemata.Proofs.Conversion.FileOrder
import Schemata.Proofs.Plan.Orientation

/-!
# Converting a schema that is drawn another way

What a conversion comes to does not depend on how the references of its schema are drawn, as long as
they lead somewhere (`orientation_irrelevant`). Files are made from the tables at the ends of the edges
and from the names and the actions of the references, so they are the same for edges without the ends
of their references (`filesFor_undrawn`).
-/

namespace Schemata

/-! ## Files -/

namespace Code

variable (e : Engine) (target : Target) (o : Options) (task : Task) (p : Plan)

theorem Sql.attach_undrawn : Sql.attach e o task.undrawn = Sql.attach e o task := by
  unfold attach rebuild clauses Task.undrawn
  simp only [List.map_map]
  rfl

theorem Sql.detach_undrawn : Sql.detach e o task.undrawn = Sql.detach e o task := by
  unfold detach Task.undrawn
  simp only [List.map_map]
  rfl

theorem Migration.attach_undrawn : Migration.attach task.undrawn = Migration.attach task := by
  unfold attach Task.undrawn
  simp only [List.map_map]
  rfl

theorem content_undrawn : content target o task.undrawn = content target o task := by
  have hphase : task.undrawn.phase = task.phase := rfl
  unfold content
  rw [hphase, Migration.attach_undrawn]
  cases target with
  | laravel => cases task.phase <;> rfl
  | sql e =>
    simp only [Sql.attach_undrawn]
    cases task.phase <;> rfl

theorem rollbackContent_undrawn : rollbackContent e o task.undrawn = rollbackContent e o task := by
  have hphase : task.undrawn.phase = task.phase := rfl
  unfold rollbackContent
  rw [hphase, Sql.detach_undrawn]
  cases task.phase <;> rfl

theorem ascending_undrawn : ascending p.undrawn = (ascending p).map Task.undrawn :=
  (List.map_mergeSort (f := Task.undrawn) fun _ _ _ _ => rfl).symm

theorem descending_undrawn : descending p.undrawn = (descending p).map Task.undrawn :=
  (List.map_mergeSort (f := Task.undrawn) fun _ _ _ _ => rfl).symm

/-- Files for the chosen tasks are the same when the file for each task is. -/
theorem mapM_chosen_undrawn {f : Task → Noted Artifact} (h : ∀ t, f t.undrawn = f t)
    (tasks : List Task) :
    (o.chosen (tasks.map Task.undrawn)).mapM f = (o.chosen tasks).mapM f := by
  have hchosen : o.chosen (tasks.map Task.undrawn) = (o.chosen tasks).map Task.undrawn :=
    List.filter_map
  have hfile : f ∘ Task.undrawn = f := funext h
  rw [hchosen, List.mapM_map, hfile]

theorem render_undrawn : render target o p.undrawn = render target o p := by
  unfold render
  rw [ascending_undrawn]
  refine mapM_chosen_undrawn o (fun t => ?_) _
  rw [content_undrawn]
  rfl

theorem renderRollback_undrawn : renderRollback target o p.undrawn = renderRollback target o p := by
  cases target with
  | laravel => rfl
  | sql e =>
    unfold renderRollback
    rw [descending_undrawn]
    refine mapM_chosen_undrawn o (fun t => ?_) _
    rw [rollbackContent_undrawn]
    rfl

end Code

namespace Conversion

theorem filesFor_undrawn (p : Plan) (o : Options) (target : Code.Target) :
    filesFor p.undrawn o target = filesFor p o target := by
  unfold filesFor
  rw [Code.render_undrawn, Code.renderRollback_undrawn]

/-! ## Conversions -/

variable {s s' : Schema}

/-- A conversion comes to what it comes to for the edges without the ends of their references. -/
theorem generate_eq_undrawn (s : Schema) (spellings : Option (List String)) (o : Options) :
    generate s spellings o = (do
      let spellings := spellings.getD ({} : GenerationSettings).targets
      let targets ← Advised.ofExcept ((targets spellings).mapError .refused)
      let plan ← Plan.order s.tables (← List.map Edge.undrawn <$> s.resolve) o.base o.step
      targets.mapM fun t => do return (t, ← filesFor plan o t)) := by
  have hplan : ∀ (ts : List Code.Target) (x : Except Fault Plan),
      (do
        let plan ← (Plan.undrawn <$> x : Except Fault Plan)
        ts.mapM fun t => do return (t, ← filesFor plan o t) : Advised Files) =
      (do
        let plan ← x
        ts.mapM fun t => do return (t, ← filesFor plan o t)) := by
    intro ts x
    cases x with
    | error f => rfl
    | ok p =>
      show (Advised.ofExcept (.ok p.undrawn) >>= _) = (Advised.ofExcept (.ok p) >>= _)
      rw [Advised.bind_of_ok rfl, Advised.bind_of_ok rfl]
      simp only [filesFor_undrawn]
      rfl
  rw [generate_eq]
  dsimp only
  refine congrArg (Advised.ofExcept _ >>= ·) (funext fun ts => ?_)
  rw [bind_map_left]
  refine congrArg (s.resolve >>= ·) (funext fun edges => ?_)
  rw [Plan.order_undrawn]
  exact (hplan ts _).symm

/-- Flipping references changes nothing about a conversion: neither the files for any target, nor the
findings and their order, nor the fault it ends with. -/
theorem orientation_irrelevant (h : s.IsFlipped s') (hends : s.HasEnds)
    (spellings : Option (List String)) (o : Options) :
    ofSchema s' spellings o = ofSchema s spellings o := by
  unfold ofSchema
  rw [generate_eq_undrawn, generate_eq_undrawn, h.resolve hends, h.tables]

/-- The library with the key of the editors drawn from the persons. -/
def redrawnLibrary : Schema :=
  { Plan.library with
    references := [⟨"r1", "b", "a", "p", "k", .manyToOne, .restrict, .restrict, none⟩,
      ⟨"r2", "p", "k", "b", "e", .oneToMany, .restrict, .restrict, none⟩] }

/-- The files for the library are the same however its keys are drawn. -/
theorem orientation_irrelevant_library : ∃ findings files,
    ofSchema Plan.library (some ["sqlite", "laravel"]) beforeLeapDay =
      .ok ⟨findings, .ok files⟩ ∧ files.map (·.1) = [.sql .sqlite, .laravel] ∧
    ofSchema redrawnLibrary (some ["sqlite", "laravel"]) beforeLeapDay =
      .ok ⟨findings, .ok files⟩ := by
  have hfits : Plan.library.Fits (Plan.edgesOf Plan.library) := by
    constructor <;> decide +kernel
  have htargets : targets ["sqlite", "laravel"] = .ok [.sql .sqlite, .laravel] := by
    decide +kernel
  obtain ⟨findings, files, hfiles, hnames⟩ :
      ∃ findings files, ofSchema Plan.library (some ["sqlite", "laravel"]) beforeLeapDay =
        .ok ⟨findings, .ok files⟩ ∧ files.map (·.1) = [.sql .sqlite, .laravel] :=
    exists_ofSchema_eq_ok htargets hfits (Graph.cycle?_eq_none_of_sinks (by decide +kernel))
      (by decide +kernel)
  have hflipped : Plan.library.IsFlipped redrawnLibrary :=
    ⟨rfl, .cons (.inl rfl) (.cons (.inr ⟨by decide, rfl⟩) .nil), rfl, rfl⟩
  refine ⟨findings, files, hfiles, hnames, ?_⟩
  rw [orientation_irrelevant hflipped (by decide +kernel), hfiles]

end Conversion

end Schemata
