import Schemata.Proofs.Code.Renaming
import Schemata.Proofs.Conversion.FileOrder

/-!
# Converting a schema with other ids

A conversion that returns files returns as many of the same names in the same order, and the same
findings, when the tables, fields and references of the schema have other ids (`ids_opaque`). What is
written in the files is the same as well as long as the columns that the switches add keep their types,
which they take from a field with their id if there is one; for Laravel, it is the same in any case.
-/

namespace Schemata.Conversion

variable {ρ : Renaming}

/-! ## Files of one target -/

section Target

variable (p : Plan) (o : Options) (target : Code.Target)

theorem findings_filesFor_rename :
    (filesFor (p.rename ρ) o target).findings = (filesFor p o target).findings := by
  rw [findings_filesFor, findings_filesFor, Code.findings_render_rename,
    Code.findings_renderRollback_rename]

theorem heading_filesFor_rename : (filesFor (p.rename ρ) o target).value.map Code.Artifact.heading =
    (filesFor p o target).value.map Code.Artifact.heading := by
  rw [value_filesFor, value_filesFor, List.map_append, List.map_append, Code.heading_render_rename]
  split
  · rw [Code.heading_renderRollback_rename]
  · rfl

theorem value_filesFor_rename
    (h : ∀ t ∈ p.tasks, target = .laravel ∨ o.generator.KeepsAdded ρ.table ρ.field t.table) :
    (filesFor (p.rename ρ) o target).value = (filesFor p o target).value := by
  rw [value_filesFor, value_filesFor, Code.value_render_rename target o.generator p h,
    Code.value_renderRollback_rename target o.generator p h]

end Target

/-! ## Whole conversions -/

section Conversions

variable {s s' : Schema} {spellings : Option (List String)} {o : Options}

/-- When a conversion returns files, it returns files for the schema with other ids as well, with the
same findings, for the same targets, and as many with the same names, phases, tables and tokens in the
same order. The files for Laravel are the same, and so are all files if the columns that the switches
add keep their types. -/
theorem ids_opaque {table field reference : String → String}
    (hids : s.IsRenamed table field reference s') {findings : List Finding} {files : Files}
    (h : ofSchema s spellings o = .ok ⟨findings, .ok files⟩) :
    ∃ files', ofSchema s' spellings o = .ok ⟨findings, .ok files'⟩ ∧
      List.Forall₂ (fun f f' : Code.Target × List Code.Artifact =>
        f'.1 = f.1 ∧ f'.2.map Code.Artifact.heading = f.2.map Code.Artifact.heading ∧
        ((f.1 = .laravel ∨ ∀ t ∈ s.tables, o.generator.KeepsAdded table field t) → f'.2 = f.2))
        files files' := by
  obtain ⟨ρ, rfl, htable, hfield⟩ := hids.exists_rename
  have hgenerate := ofSchema_eq_ok_iff.1 h
  obtain ⟨ts, edges, p, hts, hedges, hp, -⟩ :=
    outcome_generate_eq_ok_iff.1 (congrArg Advised.outcome hgenerate)
  have hresolve := Schema.resolve_rename (ρ := ρ) hedges
  have hp' : Plan.order (s.rename ρ).tables (edges.map (Edge.rename ρ)) o.base o.step =
      .ok (p.rename ρ) := Plan.order_rename hp
  have hgenerate' := generate_of_ok hts (congrArg Advised.outcome hresolve) hp'
  rw [generate_of_ok hts hedges hp] at hgenerate
  cases hgenerate
  refine ⟨ts.map fun t => (t, (filesFor (p.rename ρ) o t).value), ofSchema_eq_ok_iff.2 ?_, ?_⟩
  · rw [hgenerate', hresolve]
    refine congrArg (fun found => Advised.mk (s.resolve.findings ++ found) _) ?_
    exact List.flatMap_congr fun t _ => findings_filesFor_rename p o t
  · rw [List.forall₂_map_left_iff, List.forall₂_map_right_iff]
    refine List.forall₂_same.2 fun target _ => ⟨rfl, heading_filesFor_rename p o target, ?_⟩
    rintro hkeeps
    refine value_filesFor_rename p o target fun task htask => hkeeps.imp_right fun hkeeps => ?_
    have hmem := (Plan.task_of_orderBy hp htask).1
    exact (hkeeps _ hmem).of_eqOn (htable _ hmem) (hfield _ hmem)

end Conversions

/-- An article whose field has the id of a column that the switches add, and comments on it. -/
def articles : Schema where
  tables := [
    { id := "a", name := "articles"
      fields := [Plan.keyField, Plan.column "a:created_at" "year"]
      nodup_fields := by decide },
    { id := "b", name := "comments", fields := [Plan.column "i" "article"] }]
  references := [⟨"r", "b", "i", "a", "k", .manyToOne, .restrict, .restrict, none⟩]
  nodup_tables := by decide

/-- Every id with a letter in front of it. -/
def prefixed : Renaming where
  table id := "x" ++ id
  field id := "x" ++ id
  reference id := "x" ++ id
  table_injective _ _ h := (String.append_right_inj "x").1 h
  field_injective _ _ h := (String.append_right_inj "x").1 h

/-- With a letter in front of all ids the files for the articles are the same. If the letter stands in
front of the ids of fields only, the column for the time of creation does not keep its type. -/
theorem ids_opaque_articles :
    (∃ files findings,
      ofSchema articles (some ["mysql", "laravel"]) beforeLeapDay = .ok ⟨findings, .ok files⟩ ∧
      ofSchema (articles.rename prefixed) (some ["mysql", "laravel"]) beforeLeapDay =
        .ok ⟨findings, .ok files⟩) ∧
    ¬∀ t ∈ articles.tables, beforeLeapDay.generator.KeepsAdded id prefixed.field t := by
  have hfits : articles.Fits (Plan.edgesOf articles) := by
    constructor <;> decide +kernel
  have hedges := Plan.resolve_edgesOf hfits (Graph.cycle?_eq_none_of_sinks (by decide +kernel))
  have horder : (Plan.order articles.tables (Plan.edgesOf articles) beforeLeapDay.base
      beforeLeapDay.step).toOption.map (fun p => p.tasks.length) = some 3 := by decide +kernel
  obtain ⟨p, hp, -⟩ := exists_ok_of_toOption_map horder
  have htargets : targets ["mysql", "laravel"] = .ok [.sql .mysql, .laravel] := by decide +kernel
  have hkeeps : ∀ t ∈ articles.tables,
      beforeLeapDay.generator.KeepsAdded prefixed.table prefixed.field t := by
    unfold Code.Options.KeepsAdded
    decide +kernel
  have hfiles : ofSchema articles (some ["mysql", "laravel"]) beforeLeapDay = .ok ⟨_, .ok _⟩ :=
    ofSchema_eq_ok_iff.2 (generate_of_ok htargets hedges hp)
  obtain ⟨files', hfiles', hsame⟩ := ids_opaque (articles.isRenamed_rename prefixed) hfiles
  have heq : List.Forall₂ (fun f f' => f = f') _ files' :=
    hsame.imp fun _ _ h => Prod.ext h.1.symm (h.2.2 (.inr hkeeps)).symm
  rw [List.forall₂_eq_eq_eq] at heq
  rw [← heq] at hfiles'
  refine ⟨⟨_, _, hfiles, hfiles'⟩, ?_⟩
  unfold Code.Options.KeepsAdded
  decide +kernel

end Schemata.Conversion
