import Schemata.Conversion
import Schemata.Proofs.Plan.Names

/-!
# Conversions that succeed

A conversion succeeds exactly when its targets are known, its schema is resolved and a plan is found
(`outcome_generate_eq_ok_iff`). It finds what resolving the schema finds and then what each target finds,
and its files are made from the plan for each target by itself (`generate_of_ok`).
-/

namespace Schemata.Conversion

/-! ## Files of one target -/

section Target

variable (p : Plan) (o : Options) (target : Code.Target)

/-- The files that carry out a plan, and behind them those that undo it if they are asked for. -/
theorem value_filesFor : (filesFor p o target).value = (Code.render target o.generator p).value ++
    if o.withRollback then (Code.renderRollback target o.generator p).value else [] := by
  unfold filesFor
  cases o.withRollback with
  | true => rfl
  | false => exact (List.append_nil _).symm

theorem findings_filesFor : (filesFor p o target).findings =
    (Code.render target o.generator p).findings ++
      if o.withRollback then (Code.renderRollback target o.generator p).findings else [] := by
  unfold filesFor
  cases o.withRollback with
  | true => exact congrArg (_ ++ ·) (List.append_nil _)
  | false => rfl

end Target

/-! ## Whole conversions -/

variable {s : Schema} {spellings : Option (List String)} {o : Options}

/-- Without limits the files are written whatever numbers there are. -/
theorem filesWithin_none (p : Plan) (o : Options) (target : Code.Target) :
    filesWithin {} p o target = filesFor p o target := by
  have hcolumns : (Code.columns p).mapM (Code.writeColumn {} target) = ⟨_, .ok _⟩ :=
    Advised.mapM_of_ok (fun _ => rfl) (Code.columns p)
  unfold filesWithin
  rw [hcolumns]

theorem generate_eq (s : Schema) (spellings : Option (List String)) (o : Options) :
    generate s spellings o = (do
      let spellings := spellings.getD ({} : GenerationSettings).targets
      let targets ← Advised.ofExcept ((targets spellings).mapError .refused)
      let plan ← Plan.order s.tables (← s.resolve) o.base o.step
      targets.mapM fun t => do return (t, ← filesFor plan o t)) := by
  unfold generate
  simp only [filesWithin_none]

/-- Everything that a conversion gives when its targets are known, its schema is resolved and a plan is
found. -/
theorem generate_of_ok {ts : List Code.Target} {edges : List Edge} {p : Plan}
    (hts : targets (spellings.getD ({} : GenerationSettings).targets) = .ok ts)
    (hedges : s.resolve.outcome = .ok edges)
    (hp : Plan.order s.tables edges o.base o.step = .ok p) :
    generate s spellings o =
      ⟨s.resolve.findings ++ ts.flatMap fun t => (filesFor p o t).findings,
        .ok (ts.map fun t => (t, (filesFor p o t).value))⟩ := by
  have hfiles : (ts.mapM fun t => (do return (t, ← filesFor p o t) : Advised _)) =
      ⟨ts.flatMap fun t => (filesFor p o t).findings,
        .ok (ts.map fun t => (t, (filesFor p o t).value))⟩ :=
    Advised.mapM_of_ok (fun t => congrArg (fun found => Advised.mk found (.ok (t, _)))
      (List.append_nil (filesFor p o t).findings)) ts
  have hplanned : (do
      let plan ← Plan.order s.tables edges o.base o.step
      ts.mapM fun t => do return (t, ← filesFor plan o t) : Advised Files) =
        ⟨ts.flatMap fun t => (filesFor p o t).findings,
          .ok (ts.map fun t => (t, (filesFor p o t).value))⟩ := by
    rw [hp, ← hfiles]
    rfl
  rw [generate_eq]
  dsimp only
  rw [hts, Advised.bind_of_ok rfl, Advised.bind_of_ok hedges, hplanned]
  rfl

/-- A conversion succeeds exactly when its targets are known, its schema is resolved and a plan is
found; its files are made from the plan. -/
theorem outcome_generate_eq_ok_iff {files : Files} : (generate s spellings o).outcome = .ok files ↔
    ∃ ts edges p, targets (spellings.getD ({} : GenerationSettings).targets) = .ok ts ∧
      s.resolve.outcome = .ok edges ∧ Plan.order s.tables edges o.base o.step = .ok p ∧
      files = ts.map fun t => (t, (filesFor p o t).value) := by
  constructor
  · intro h
    obtain ⟨ts, hts, hplan⟩ := Advised.outcome_bind_eq_ok.1 h
    obtain ⟨edges, hedges, hplan⟩ := Advised.outcome_bind_eq_ok.1 hplan
    obtain ⟨p, hp, -⟩ := Advised.outcome_bind_eq_ok.1 hplan
    have hts : targets (spellings.getD ({} : GenerationSettings).targets) = .ok ts :=
      mapError_eq_ok.1 hts
    rw [generate_of_ok hts hedges hp] at h
    exact ⟨ts, edges, p, hts, hedges, hp, (Except.ok.inj h).symm⟩
  · rintro ⟨ts, edges, p, hts, hedges, hp, rfl⟩
    rw [generate_of_ok hts hedges hp]

theorem ofSchema_eq_ok_iff {findings : List Finding} {files : Files} :
    ofSchema s spellings o = .ok ⟨findings, .ok files⟩ ↔
      generate s spellings o = ⟨findings, .ok files⟩ := by
  unfold ofSchema Advised.settle
  constructor
  · intro h
    split at h
    · exact Except.ok.inj h
    · next f hf =>
      split at h
      · have houtcome := congrArg Advised.outcome (Except.ok.inj h)
        rw [hf] at houtcome
        cases houtcome
      · cases h
  · intro h
    rw [h]

/-- A conversion succeeds for a schema whose references fit and lead to no cycle, if the clock lasts. -/
theorem exists_ofSchema_eq_ok {ts : List Code.Target}
    (hts : targets (spellings.getD ({} : GenerationSettings).targets) = .ok ts)
    (hfits : s.Fits (Plan.edgesOf s)) (hcycle : s.cycle? (Plan.edgesOf s) = none)
    (horder : (Plan.order s.tables (Plan.edgesOf s) o.base o.step).toOption.isSome = true) :
    ∃ findings files, ofSchema s spellings o = .ok ⟨findings, .ok files⟩ ∧ files.map (·.1) = ts := by
  obtain ⟨p, hp, -⟩ := exists_ok_of_toOption_map (f := fun _ => ()) (b := ())
    (Option.map_eq_some_iff.2 (by simpa [Option.isSome_iff_exists] using horder))
  refine ⟨_, _, ofSchema_eq_ok_iff.2 (generate_of_ok hts (Plan.resolve_edgesOf hfits hcycle) hp), ?_⟩
  rw [List.map_map]
  exact List.map_id ts

end Schemata.Conversion
