import Schemata.Proofs.Code.Files
import Schemata.Proofs.Conversion.Generate
import Schemata.Proofs.Plan.Names

/-!
# Files in the order of execution

A conversion that succeeds has put its schema in order, and its files are those of the plan.
`names_in_order` shows that the names of these files, sorted as texts, stand in the order in which the
plan runs, and that the files that undo it stand in the opposite order, from year 1000 on.
-/

namespace Schemata.Conversion

/-- In a conversion from year 1000 on, all tokens of the plan have 17 characters and rise from task
to task. Whatever the target and the switches, there is a file for each chosen task with its token,
the names of these files rise in the order of the plan, and those of the files that undo them
fall. The files of the conversion are these files. -/
theorem names_in_order {s : Schema} {spellings : Option (List String)} {o : Options} {files : Files}
    (h : (generate s spellings o).outcome = .ok files) (hyear : 1000 ≤ o.base.civil.year) :
    ∃ edges p, s.resolve.outcome = .ok edges ∧
      Plan.order s.tables edges o.base o.step = .ok p ∧
      (∀ t ∈ p.tasks, t.stamp.token.length = 17) ∧
      (p.tasks.map (·.stamp.token)).Pairwise (· < ·) ∧
      (∀ (target : Code.Target) (switches : Code.Options),
        (Code.render target switches p).value.map (·.token) =
          (switches.chosen p.tasks).map (·.stamp.token) ∧
        ((Code.render target switches p).value.map (·.name)).Pairwise (· < ·) ∧
        ((Code.renderRollback target switches p).value.map (·.name)).Pairwise (· > ·)) ∧
      ∀ f ∈ files, f.2 = (Code.render f.1 o.generator p).value ++
        if o.withRollback then (Code.renderRollback f.1 o.generator p).value else [] := by
  obtain ⟨ts, edges, p, -, hedges, hp, rfl⟩ := outcome_generate_eq_ok_iff.1 h
  have hlen := Plan.length_token hp hyear
  have hrise := Plan.pairwise_token hp hyear
  refine ⟨edges, p, hedges, hp, hlen, List.pairwise_map.2 hrise, fun target switches => ?_, ?_⟩
  · have hascends := Plan.ascends_orderBy hp
    have hchosen : ∀ t ∈ switches.chosen p.tasks, t.stamp.token.length = 17 := fun t ht =>
      hlen t (List.mem_of_mem_filter ht)
    have hrise' := hrise.filter (fun t => t.phase = .createTable || switches.foreignKeys)
    rw [Code.value_render hascends]
    refine ⟨by rw [List.map_map]; rfl, ?_, ?_⟩
    · exact List.pairwise_map.2 (Code.pairwise_name (fun t => ⟨_, _, rfl⟩) hchosen hrise')
    · cases target with
      | laravel => exact .nil
      | sql e =>
        rw [Code.value_renderRollback hascends, List.map_reverse, List.map_reverse,
          List.pairwise_reverse]
        exact List.pairwise_map.2 (Code.pairwise_name (fun t => ⟨_, _, rfl⟩) hchosen hrise')
  · intro f hf
    obtain ⟨target, _, rfl⟩ := List.mem_map.1 hf
    exact value_filesFor p o target

/-- Two tables whose names are spelled alike in file names, the second with a key to the first. -/
def carts : Schema where
  tables := [{ Plan.users with id := "c", name := "OrderItems" },
    { id := "d", name := "order_items", fields := [Plan.column "i" "item"] }]
  references := [⟨"r", "d", "i", "c", "k", .manyToOne, .restrict, .restrict, none⟩]
  nodup_tables := by decide

/-- A second before the last day of a February that has one more. -/
def beforeLeapDay : Options where
  base := ⟨63844761599, by decide⟩
  withRollback := true

/-- The tokens of the plan for the carts run into the leap day, and the names of its files rise. -/
theorem names_in_order_carts : ∃ files p,
    (generate carts (some ["sqlite"]) beforeLeapDay).outcome = .ok files ∧
    p.tasks.map (·.stamp.token) =
      ["2024_02_28_235959", "2024_02_29_000000", "2024_02_29_000001"] ∧
    (∀ t ∈ p.tasks, t.stamp.token.length = 17) ∧
    ((Code.render (.sql .sqlite) {} p).value.map (·.name)).Pairwise (· < ·) ∧
    ((Code.renderRollback (.sql .sqlite) {} p).value.map (·.name)).Pairwise (· > ·) := by
  have hfits : carts.Fits (Plan.edgesOf carts) := by
    constructor <;> decide +kernel
  have hedges := Plan.resolve_edgesOf hfits (Graph.cycle?_eq_none_of_sinks (by decide +kernel))
  have horder : (Plan.order carts.tables (Plan.edgesOf carts) beforeLeapDay.base
      beforeLeapDay.step).toOption.map (fun p => p.tasks.map (·.stamp.token)) =
        some ["2024_02_28_235959", "2024_02_29_000000", "2024_02_29_000001"] := by decide +kernel
  obtain ⟨p, hp, htokens⟩ := exists_ok_of_toOption_map horder
  have htargets : targets ["sqlite"] = .ok [.sql .sqlite] := by decide +kernel
  have hfiles : (generate carts (some ["sqlite"]) beforeLeapDay).outcome = .ok _ :=
    outcome_generate_eq_ok_iff.2 ⟨_, _, p, htargets, hedges, hp, rfl⟩
  obtain ⟨edges, q, hq, hpq, hlen, -, hnames, -⟩ := names_in_order hfiles (by decide +kernel)
  obtain rfl : edges = Plan.edgesOf carts := Except.ok.inj (hq.symm.trans hedges)
  obtain rfl : q = p := Except.ok.inj (hpq.symm.trans hp)
  obtain ⟨-, hrise, hfall⟩ := hnames (.sql .sqlite) {}
  exact ⟨_, q, hfiles, htokens, hlen, hrise, hfall⟩

end Schemata.Conversion
