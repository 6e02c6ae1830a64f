import Mathlib.Data.List.Nodup
import Schemata.Proofs.Code.Files
import Schemata.Proofs.Code.Renaming
import Schemata.Proofs.Column.Losses

/-!
# Where warnings about types are made

The files that carry out a plan warn of what each table loses as it is created (`subjects_render`), and
making a table anew to attach its keys adds nothing to that. The files that undo a plan look at the types
of a table only where keys cannot be dropped, and there they warn of them again
(`subjects_renderRollback`). When names differ, the columns of some tables lose different things
(`Table.nodup_flatMap_losses`), so that a loss can be counted (`Table.count_flatMap_losses`).
-/

namespace Schemata

/-! ## Losses of tables -/

namespace Table

/-- What the columns of a table lose in a dialect. -/
def losses (d : Dialect) (t : Table) : List Subject :=
  t.fields.flatMap fun f =>
    Rendered.Place.subjects ⟨some t.name, some f.name⟩ (Rendered.losses d f.type)

variable {d : Dialect} {t : Table} {l tables : List Table}

theorem mem_losses {x : Subject} : x ∈ t.losses d ↔
    ∃ f ∈ t.fields, ∃ code ∈ Rendered.losses d f.type, x = (code, some t.name, some f.name) := by
  simp only [losses, Rendered.Place.subjects, List.mem_flatMap, List.mem_map, eq_comm]

/-- A column has losses of its own when the names of the columns differ. -/
theorem mem_losses_iff (hfields : (t.fields.map Field.name).Nodup) {f : Field} (hf : f ∈ t.fields)
    {code : String} : (code, some t.name, some f.name) ∈ t.losses d ↔
      code ∈ Rendered.losses d f.type := by
  rw [mem_losses]
  constructor
  · rintro ⟨g, hg, c, hc, heq⟩
    simp only [Prod.mk.injEq, Option.some.injEq] at heq
    obtain ⟨rfl, -, hname⟩ := heq
    rwa [List.inj_on_of_nodup_map hfields hf hg hname]
  · exact fun h => ⟨f, hf, code, h, rfl⟩

theorem nodup_losses (hfields : (t.fields.map Field.name).Nodup) : (t.losses d).Nodup := by
  refine List.nodup_flatMap.2 ⟨fun f _ => ?_, ?_⟩
  · exact (Rendered.nodup_losses d f.type).map fun a b h => congrArg Prod.fst h
  · refine (List.pairwise_map.1 hfields).imp fun {f g} hne => ?_
    rintro x hf hg
    obtain ⟨_, -, rfl⟩ := List.mem_map.1 hf
    obtain ⟨_, -, heq⟩ := List.mem_map.1 hg
    simp only [Prod.mk.injEq, Option.some.injEq] at heq
    exact hne heq.2.2.symm

theorem losses_subset : ∀ x ∈ t.losses d, x.1 ∈ Rendered.lossCodes := by
  intro x hx
  obtain ⟨f, -, code, hcode, rfl⟩ := mem_losses.1 hx
  exact Rendered.losses_subset d f.type hcode

variable (hnames : (tables.map Table.name).Nodup)
  (hfields : ∀ t ∈ tables, (t.fields.map Field.name).Nodup)

include hnames hfields

/-- Different tables of different names lose different things. -/
theorem nodup_flatMap_losses (hl : l ⊆ tables) (hnodup : l.Nodup) :
    (l.flatMap (losses d)).Nodup := by
  have hnames : (l.map Table.name).Nodup :=
    hnodup.map_on fun t ht u hu h => List.inj_on_of_nodup_map hnames (hl ht) (hl hu) h
  refine List.nodup_flatMap.2 ⟨fun t ht => nodup_losses (hfields t (hl ht)), ?_⟩
  refine (List.pairwise_map.1 hnames).imp fun {t u} hne => ?_
  rintro x ht hu
  obtain ⟨_, -, _, -, rfl⟩ := mem_losses.1 ht
  obtain ⟨_, -, _, -, heq⟩ := mem_losses.1 hu
  simp only [Prod.mk.injEq, Option.some.injEq] at heq
  exact hne heq.2.1

/-- How often a loss of a column is among those of some tables. -/
theorem count_flatMap_losses (hl : l ⊆ tables) (hnodup : l.Nodup) (ht : t ∈ tables) {f : Field}
    (hf : f ∈ t.fields) (code : String) :
    (l.flatMap (losses d)).count (code, some t.name, some f.name) =
      if t ∈ l ∧ code ∈ Rendered.losses d f.type then 1 else 0 := by
  rw [(nodup_flatMap_losses hnames hfields hl hnodup).count]
  refine if_congr ?_ rfl rfl
  rw [List.mem_flatMap]
  constructor
  · rintro ⟨u, hu, hmem⟩
    obtain ⟨_, -, _, -, heq⟩ := mem_losses.1 hmem
    simp only [Prod.mk.injEq, Option.some.injEq] at heq
    obtain rfl : t = u := List.inj_on_of_nodup_map hnames ht (hl hu) heq.2.1
    exact ⟨hu, (mem_losses_iff (hfields t ht) hf).1 hmem⟩
  · exact fun ⟨htl, hcode⟩ => ⟨t, htl, (mem_losses_iff (hfields t ht) hf).2 hcode⟩

end Table

/-! ## Warnings of files -/

namespace Code

/-- The warnings about the types of a table are those about its losses. -/
theorem subjects_fields (d : Dialect) (t : Table) :
    (t.fields.flatMap fun f =>
      (Rendered.ofType d f.type ⟨some t.name, some f.name⟩).findings).map Finding.subject =
        t.losses d := by
  rw [List.map_flatMap]
  exact List.flatMap_congr fun f _ => Rendered.subjects_ofType d f.type _

theorem Sql.findings_create (e : Engine) (o : Options) (task : Task) :
    (Sql.create e o task).findings = (Sql.typedColumns e o task.table).findings :=
  Noted.findings_bind_pure _ _

theorem Sql.findings_detach (e : Engine) (o : Options) (task : Task) :
    (Sql.detach e o task).findings =
      if e = .sqlite then (Sql.typedColumns e o task.table).findings else [] := by
  unfold Sql.detach
  dsimp only
  split
  · exact Noted.findings_bind_pure _ _
  · rfl

theorem Migration.findings_create (o : Options) (task : Task) :
    (Migration.create o task).findings = task.table.fields.flatMap fun f =>
      (Rendered.ofType .laravel f.type ⟨some task.table.name, some f.name⟩).findings := by
  unfold Migration.create Migration.createLines
  rw [Noted.findings_bind_pure, Noted.findings_bind_pure, Noted.findings_mapM]
  exact List.flatMap_congr fun f _ => Noted.findings_bind_pure _ _

/-- The types of a table are looked at in the file that creates it. -/
theorem subjects_content (target : Target) (o : Options) (task : Task) :
    (content target o task).findings.map Finding.subject =
      if task.phase = .createTable then task.table.losses target.dialect else [] := by
  unfold content
  cases task.phase with
  | createTable =>
    rw [if_pos rfl, ← subjects_fields]
    cases target with
    | sql e =>
      dsimp only
      rw [Noted.findings_bind_pure, Sql.findings_create, Sql.findings_typedColumns]
      rfl
    | laravel =>
      dsimp only
      rw [Migration.findings_create]
      rfl
  | attachForeignKeys => cases target <;> rfl

/-- Only a database that cannot drop keys looks at the types of a table again. -/
theorem subjects_rollbackContent (e : Engine) (o : Options) (task : Task) :
    (rollbackContent e o task).findings.map Finding.subject =
      if task.phase = .attachForeignKeys ∧ e = .sqlite then task.table.losses e.dialect else [] := by
  unfold rollbackContent
  cases task.phase with
  | createTable => rfl
  | attachForeignKeys =>
    dsimp only
    rw [Noted.findings_bind_pure, Sql.findings_detach, Sql.findings_typedColumns,
      apply_ite (List.map Finding.subject), subjects_fields]
    simp

/-- What is found for the tasks of one phase only is found for these, if files are made for them. -/
theorem flatMap_chosen {α : Type} (o : Options) {phase : Phase}
    (hphase : phase = .createTable ∨ o.foreignKeys = true) (f : Task → List α) (tasks : List Task) :
    ((o.chosen tasks).flatMap fun t => if t.phase = phase then f t else []) =
      (tasks.filter (·.phase = phase)).flatMap f := by
  have hchosen : (o.chosen tasks).filter (·.phase = phase) = tasks.filter (·.phase = phase) := by
    rw [Options.chosen, List.filter_filter]
    refine List.filter_congr fun t _ => ?_
    rcases hphase with rfl | hkeys
    · by_cases ht : t.phase = .createTable <;> simp [ht]
    · simp [hkeys]
  rw [← hchosen]
  induction o.chosen tasks with
  | nil => rfl
  | cons t tasks ih =>
    rw [List.flatMap_cons, ih, List.filter_cons]
    by_cases ht : t.phase = phase <;> simp [ht]

section Files

variable {p : Plan} (h : p.Ascends)

include h

/-- The files that carry out a plan note what each table loses as it is created. -/
theorem subjects_render (target : Target) (o : Options) :
    (render target o p).findings.map Finding.subject =
      (p.creates.map (·.table)).flatMap (Table.losses target.dialect) := by
  rw [render, ascending_eq h, Noted.findings_mapM, List.map_flatMap, List.flatMap_map, Plan.creates,
    ← flatMap_chosen o (.inl rfl)]
  refine List.flatMap_congr fun t _ => ?_
  rw [Noted.findings_bind_pure, subjects_content]

/-- The files that undo a plan note it again for each table that they make anew. -/
theorem subjects_renderRollback (target : Target) (o : Options) :
    (renderRollback target o p).findings.map Finding.subject =
      if target = .sql .sqlite ∧ o.foreignKeys then
        p.attached.reverse.flatMap (Table.losses target.dialect)
      else [] := by
  cases target with
  | laravel => rw [if_neg (by simp)]; rfl
  | sql e =>
    rw [renderRollback, descending_eq h, Noted.findings_mapM, List.map_flatMap]
    simp only [Noted.findings_bind_pure, subjects_rollbackContent, Target.sql.injEq]
    split
    · next hremade =>
      simp only [hremade.1, and_true]
      rw [flatMap_chosen o (.inr hremade.2), List.filter_reverse, Plan.attached, Plan.attachments,
        ← List.map_reverse, List.flatMap_map]
      rfl
    · next hkept =>
      refine List.flatMap_eq_nil_iff.2 fun t ht => if_neg fun hagain => hkept ⟨hagain.2, ?_⟩
      have hchosen := (List.mem_filter.1 ht).2
      simpa [hagain.1] using hchosen

end Files

end Code

end Schemata
