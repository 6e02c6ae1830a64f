import Schemata.Proofs.Conversion.FileOrder

/-!
# Conversions for several targets

A conversion for several targets makes for each of them what it makes for that target alone, and finds
what it finds for the schema and then for each target in turn (`targets_independent`). The targets are
those that were named, in the order of their first mention (`FirstMentions`). Asking for files that undo
the plan only puts these behind the others.
-/

namespace Schemata

/-! ## First mentions -/

section Mentions

variable {α β : Type} [DecidableEq α] [DecidableEq β]

/-- What is mentioned in a list, each once, in the order of the first mentions. -/
structure FirstMentions (keys all : List α) : Prop where
  mem_iff : ∀ a, a ∈ keys ↔ a ∈ all
  inOrder : keys.Pairwise fun a b => all.idxOf a < all.idxOf b

theorem firstMentions_eraseDups (l : List α) : FirstMentions l.eraseDups l := by
  refine ⟨fun a => List.mem_eraseDups, ?_⟩
  -- by what comes last, because it never comes before what was mentioned already
  induction l using List.reverseRecOn with
  | nil => exact .nil
  | append_singleton l a ih =>
    have hbefore : l.eraseDups.Pairwise fun b c => (l ++ [a]).idxOf b < (l ++ [a]).idxOf c := by
      refine ih.imp_of_mem fun {b c} hb hc hlt => ?_
      rw [List.idxOf_append_of_mem (List.mem_eraseDups.1 hb),
        List.idxOf_append_of_mem (List.mem_eraseDups.1 hc)]
      exact hlt
    by_cases ha : a ∈ l
    · have hsame : (l ++ [a]).eraseDups = l.eraseDups := by
        simp [List.eraseDups_append, List.removeAll, ha]
      rw [hsame]
      exact hbefore
    · have hnew : (l ++ [a]).eraseDups = l.eraseDups ++ [a] := by
        simp [List.eraseDups_append, List.removeAll, ha, List.eraseDups_cons]
      rw [hnew, List.pairwise_append]
      refine ⟨hbefore, List.pairwise_singleton _ _, fun b hb c hc => ?_⟩
      have hb : b ∈ l := List.mem_eraseDups.1 hb
      rw [List.mem_singleton.1 hc, List.idxOf_append_of_mem hb, List.idxOf_append_of_notMem ha]
      exact Nat.lt_add_right _ (List.idxOf_lt_length_of_mem hb)

theorem idxOf_map {f : α → β} (hf : Function.Injective f) (l : List α) (a : α) :
    (l.map f).idxOf (f a) = l.idxOf a := by
  induction l with
  | nil => rfl
  | cons b l ih =>
    rw [List.map_cons, List.idxOf_cons, List.idxOf_cons, ih]
    simp [beq_eq_decide, hf.eq_iff]

theorem FirstMentions.map {f : α → β} (hf : Function.Injective f) {keys all : List α}
    (h : FirstMentions keys all) : FirstMentions (keys.map f) (all.map f) := by
  refine ⟨fun b => ?_, List.pairwise_map.2 ?_⟩
  · simp only [List.mem_map, h.mem_iff]
  · simp only [idxOf_map hf]
    exact h.inOrder

end Mentions

theorem Code.Target.dialect_injective : Function.Injective Code.Target.dialect := by
  intro t u h
  have hsame := congrArg Code.Target.ofDialect h
  rw [ofDialect_dialect, ofDialect_dialect] at hsame
  exact Except.ok.inj hsame

/-! ## Rollbacks -/

namespace Code

variable (target : Target) (o : Options) (p : Plan)

theorem isRollback_render : ∀ a ∈ (render target o p).value, a.isRollback = false := by
  rw [render, Noted.value_mapM]
  intro a ha
  obtain ⟨t, -, rfl⟩ := List.mem_map.1 ha
  rfl

theorem isRollback_renderRollback : ∀ a ∈ (renderRollback target o p).value, a.isRollback = true := by
  cases target with
  | laravel => exact fun a ha => absurd ha List.not_mem_nil
  | sql e =>
    rw [renderRollback, Noted.value_mapM]
    intro a ha
    obtain ⟨t, -, rfl⟩ := List.mem_map.1 ha
    rfl

end Code

namespace Conversion

/-! ## The targets of a conversion -/

/-- A spelling names a target exactly if it is a spelling of its dialect. -/
theorem target_eq_ok_iff {spelling : String} {t : Code.Target} :
    (do Code.Target.ofDialect (← Dialect.named spelling)) = .ok t ↔
      Dialect.ofAlias? spelling = some t.dialect := by
  unfold Dialect.named
  constructor
  · intro h
    obtain ⟨d, hd, ht⟩ := bind_eq_ok.1 h
    rw [Code.Target.dialect_of_ofDialect ht]
    cases hspelling : Dialect.ofAlias? spelling with
    | none => simp [hspelling] at hd
    | some e => simpa [hspelling] using hd
  · intro h
    rw [h]
    exact t.ofDialect_dialect

theorem targets_eq_ok_iff {spellings : List String} {ts : List Code.Target} :
    targets spellings = .ok ts ↔
      ∃ all, List.Forall₂ (fun s t => Dialect.ofAlias? s = some t.dialect) spellings all ∧
        all ≠ [] ∧ all.eraseDups = ts := by
  simp only [← target_eq_ok_iff, ← mapM_eq_ok_iff]
  constructor
  · intro h
    obtain ⟨all, hall, h⟩ := bind_eq_ok.1 h
    dsimp only at h
    split_ifs at h with hnone
    · cases h
    · exact ⟨all, hall, hnone, Except.ok.inj h⟩
  · rintro ⟨all, hall, hsome, rfl⟩
    refine bind_eq_ok.2 ⟨all, hall, ?_⟩
    dsimp only
    rw [if_neg hsome]
    rfl

/-- The targets are the dialects that the spellings name, as they are mentioned first. -/
theorem firstMentions_targets {spellings : List String} {ts : List Code.Target}
    (h : targets spellings = .ok ts) :
    ∃ named, spellings.map Dialect.ofAlias? = named.map some ∧
      FirstMentions (ts.map Code.Target.dialect) named := by
  obtain ⟨all, hall, -, rfl⟩ := targets_eq_ok_iff.1 h
  refine ⟨all.map Code.Target.dialect, ?_,
    (firstMentions_eraseDups all).map Code.Target.dialect_injective⟩
  rw [← List.forall₂_eq_eq_eq, List.forall₂_map_left_iff, List.map_map,
    List.forall₂_map_right_iff]
  exact hall

theorem targets_singleton {spelling : String} {t : Code.Target}
    (h : Dialect.ofAlias? spelling = some t.dialect) : targets [spelling] = .ok [t] :=
  targets_eq_ok_iff.2 ⟨[t], .cons h .nil, List.cons_ne_nil t [], by simp [List.eraseDups_cons]⟩

/-! ## One target by itself -/

/-- A conversion for several targets gives each target, by whatever spelling it was named, what a
conversion for that target alone gives, and finds what that finds. Asking for files that undo the plan
puts them behind the files that are made without asking. -/
theorem targets_independent {s : Schema} {spellings : Option (List String)} {o : Options}
    {findings : List Finding} {files : Files}
    (h : ofSchema s spellings o = .ok ⟨findings, .ok files⟩) :
    (∃ named : List Dialect,
      (spellings.getD ({} : GenerationSettings).targets).map Dialect.ofAlias? = named.map some ∧
        FirstMentions (files.map (·.1.dialect)) named) ∧
      (∃ own : Code.Target → List Finding,
        findings = s.resolve.findings ++ files.flatMap (own ·.1) ∧
          ∀ f ∈ files, ∀ spelling, Dialect.ofAlias? spelling = some f.1.dialect →
            ofSchema s (some [spelling]) o = .ok ⟨s.resolve.findings ++ own f.1, .ok [f]⟩) ∧
      ∃ found found' forward all,
        ofSchema s spellings { o with withRollback := false } = .ok ⟨found, .ok forward⟩ ∧
        ofSchema s spellings { o with withRollback := true } = .ok ⟨found', .ok all⟩ ∧
        List.Forall₂ (fun f g : Code.Target × List Code.Artifact =>
          g.1 = f.1 ∧ (∀ a ∈ f.2, a.isRollback = false) ∧
            ∃ undo, g.2 = f.2 ++ undo ∧ ∀ a ∈ undo, a.isRollback = true) forward all := by
  have hgenerate := ofSchema_eq_ok_iff.1 h
  obtain ⟨ts, edges, p, hts, hedges, hp, -⟩ :=
    outcome_generate_eq_ok_iff.1 (congrArg Advised.outcome hgenerate)
  rw [generate_of_ok hts hedges hp] at hgenerate
  cases hgenerate
  refine ⟨?_, ⟨fun t => (filesFor p o t).findings, ?_, ?_⟩, ?_⟩
  · rw [List.map_map]
    exact firstMentions_targets hts
  · rw [List.flatMap_map]
  · intro f hf spelling hspelling
    obtain ⟨t, -, rfl⟩ := List.mem_map.1 hf
    have halone : generate s (some [spelling]) o = _ :=
      generate_of_ok (targets_singleton hspelling) hedges hp
    rw [List.flatMap_singleton] at halone
    exact ofSchema_eq_ok_iff.2 halone
  · refine ⟨_, _, _, _, ofSchema_eq_ok_iff.2 (generate_of_ok hts hedges hp),
      ofSchema_eq_ok_iff.2 (generate_of_ok hts hedges hp), ?_⟩
    rw [List.forall₂_map_left_iff, List.forall₂_map_right_iff]
    refine List.forall₂_same.2 fun t _ => ⟨rfl, ?_⟩
    simp only [value_filesFor, Bool.false_eq_true, if_false, if_true, List.append_nil]
    exact ⟨Code.isRollback_render t o.generator p, _, rfl,
      Code.isRollback_renderRollback t o.generator p⟩

/-- Two spellings of one target name it once, and it is given the same files without the other one. -/
theorem targets_independent_carts : ∃ findings files,
    ofSchema carts (some ["MySQL", "laravel", "maria_db"]) beforeLeapDay =
      .ok ⟨findings, .ok files⟩ ∧ files.map (·.1) = [.sql .mysql, .laravel] ∧
    ∀ f ∈ files, ∃ found, ofSchema carts (some [f.1.dialect.name]) beforeLeapDay =
      .ok ⟨found, .ok [f]⟩ := by
  have hfits : carts.Fits (Plan.edgesOf carts) := by
    constructor <;> decide +kernel
  have htargets : targets ["MySQL", "laravel", "maria_db"] = .ok [.sql .mysql, .laravel] := by
    decide +kernel
  obtain ⟨findings, files, hfiles, hnames⟩ :
      ∃ findings files, ofSchema carts (some ["MySQL", "laravel", "maria_db"]) beforeLeapDay =
        .ok ⟨findings, .ok files⟩ ∧ files.map (·.1) = [.sql .mysql, .laravel] :=
    exists_ofSchema_eq_ok htargets hfits (Graph.cycle?_eq_none_of_sinks (by decide +kernel))
      (by decide +kernel)
  obtain ⟨-, ⟨own, -, halone⟩, -⟩ := targets_independent hfiles
  refine ⟨findings, files, hfiles, hnames, fun f hf => ⟨_, halone f hf _ ?_⟩⟩
  cases f.1.dialect <;> rfl

end Conversion

end Schemata
