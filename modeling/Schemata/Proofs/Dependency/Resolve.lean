import Schemata.Dependency.Resolve
import Schemata.Proofs.Computation
import Schemata.Proofs.Dependency.Cycle

/-!
# What resolving a schema comes to

The edges of a schema are resolved when all its references have both ends and the types at the ends
are of one family; what is left is the search for a cycle (`outcome_resolve`). The graph that is
searched has the edges between different tables (`mem_of_graph`).
-/

namespace Schemata

/-! ## References -/

theorem Reference.endpoint_eq_ok {s : Schema} {r : Reference} {tableId fieldId : String}
    {p : Table × Field} (h : r.endpoint s tableId fieldId = .ok p) :
    p.1 ∈ s.tables ∧ p.2 ∈ p.1.fields := by
  unfold endpoint at h
  split at h
  · cases h
  · next t ht =>
    split at h
    · cases h
    · next f hf =>
      cases h
      exact ⟨List.mem_of_find?_eq_some ht, List.mem_of_find?_eq_some hf⟩

theorem Reference.reference_of_edge {s : Schema} {r : Reference} {e : Edge}
    (h : r.edge s = .ok e) : e.reference = r := by
  unfold edge at h
  obtain ⟨source, _, h⟩ := bind_eq_ok.1 h
  obtain ⟨target, _, h⟩ := bind_eq_ok.1 h
  cases h
  split <;> rfl

/-- Both ends of an edge are fields of tables of the schema. -/
theorem Reference.ends_mem_of_edge {s : Schema} {r : Reference} {e : Edge} (h : r.edge s = .ok e) :
    (e.owner ∈ s.tables ∧ e.target ∈ s.tables) ∧
      e.ownerField ∈ e.owner.fields ∧ e.targetField ∈ e.target.fields := by
  unfold edge at h
  obtain ⟨source, hsource, h⟩ := bind_eq_ok.1 h
  obtain ⟨target, htarget, h⟩ := bind_eq_ok.1 h
  cases h
  obtain ⟨hst, hsf⟩ := endpoint_eq_ok hsource
  obtain ⟨htt, htf⟩ := endpoint_eq_ok htarget
  split
  · exact ⟨⟨htt, hst⟩, htf, hsf⟩
  · exact ⟨⟨hst, htt⟩, hsf, htf⟩

namespace Edge

/-- A table leads to the other tables that its keys point to. -/
theorem mem_of_link {owner target x y : String} {a : Graph.Adjacency} :
    y ∈ (link owner target a).of x ↔ y ∈ a.of x ∨ (x = owner ∧ y = target) := by
  unfold Graph.Adjacency.of
  induction a with
  | nil =>
    rw [link, List.lookup_cons]
    by_cases hx : x = owner
    · simp [hx]
    · have hne : (x == owner) = false := beq_eq_false_iff_ne.2 hx
      simp [hne, hx]
  | cons p a ih =>
    obtain ⟨n, ts⟩ := p
    rw [link]
    by_cases hn : n = owner
    · rw [if_pos hn, List.lookup_cons, List.lookup_cons]
      by_cases hx : x = n
      · by_cases ht : target ∈ ts
        · simp only [hx, hn, beq_self_eq_true, ht, if_true, Option.getD_some, true_and]
          exact ⟨.inl, fun h => h.elim id fun hy => hy ▸ ht⟩
        · simp [hx, hn, ht]
      · have hne : (x == n) = false := beq_eq_false_iff_ne.2 hx
        rw [hn] at hx
        simp [hne, hx]
    · rw [if_neg hn, List.lookup_cons, List.lookup_cons]
      by_cases hx : x = n
      · simp [hx, hn]
      · have hne : (x == n) = false := beq_eq_false_iff_ne.2 hx
        rw [hne]
        exact ih

theorem mem_of_graph {edges : List Edge} {x y : String} :
    y ∈ (graph edges).of x ↔ x ≠ y ∧ ∃ e ∈ edges, e.owner.id = x ∧ e.target.id = y := by
  have hfold : ∀ (l : List Edge) (a : Graph.Adjacency),
      y ∈ (l.foldl (fun a e => link e.owner.id e.target.id a) a).of x ↔
        y ∈ a.of x ∨ ∃ e ∈ l, e.owner.id = x ∧ e.target.id = y := by
    intro l
    induction l with
    | nil => simp
    | cons e l ih =>
      intro a
      rw [List.foldl_cons, ih, mem_of_link, List.exists_mem_cons_iff, or_assoc]
      simp only [eq_comm]
  unfold graph
  rw [hfold]
  constructor
  · rintro (h | ⟨e, he, rfl, rfl⟩)
    · cases h
    · obtain ⟨he, hself⟩ := List.mem_filter.1 he
      exact ⟨by simpa [isSelf] using hself, e, he, rfl, rfl⟩
  · rintro ⟨hne, e, he, rfl, rfl⟩
    exact .inr ⟨e, List.mem_filter.2 ⟨he, by simpa [isSelf] using hne⟩, rfl, rfl⟩

theorem outcome_check (e : Edge) :
    e.check.outcome = .ok () ↔ e.ownerField.type.family = e.targetField.type.family := by
  have htypes : e.checkTypes.outcome = .ok () ↔
      e.ownerField.type.family = e.targetField.type.family := by
    unfold checkTypes Advised.noteIf
    dsimp only
    split
    · next h => simp [Advised.fail, h]
    · next h =>
      rw [not_not] at h
      split <;> simp [h, Advised.note, pure]
  rw [← htypes, check, Advised.outcome_bind_eq_ok]
  exact ⟨fun ⟨_, h, _⟩ => h, fun h => ⟨(), h, rfl⟩⟩

/-- Columns of one family for which no mismatch is noted have types of one shape. -/
theorem shape_eq_of_notMem {e : Edge} (hfamily : e.ownerField.type.family = e.targetField.type.family)
    (h : e.typeMismatch ∉ e.checkTypes.findings) :
    shape e.ownerField.type = shape e.targetField.type := by
  by_contra hne
  simp [checkTypes, hfamily, Advised.noteIf, hne, Advised.note] at h

end Edge

namespace Schema

theorem outcome_resolveReference {s : Schema} {r : Reference} {e : Edge} :
    (s.resolveReference r).outcome = .ok e ↔
      r.edge s = .ok e ∧ e.ownerField.type.family = e.targetField.type.family := by
  rw [resolveReference_eq, Advised.outcome_bind_eq_ok]
  constructor
  · rintro ⟨e', he', h⟩
    obtain ⟨_, hcheck, h⟩ := Advised.outcome_bind_eq_ok.1 h
    cases h
    exact ⟨he', e.outcome_check.1 hcheck⟩
  · rintro ⟨he, hfamily⟩
    exact ⟨e, he, Advised.outcome_bind_eq_ok.2 ⟨(), e.outcome_check.2 hfamily, rfl⟩⟩

/-- The ids of the tables, and those that their keys point to. -/
def cycle? (s : Schema) (edges : List Edge) : Option (List String) :=
  Graph.cycle? (s.tables.map (·.id)) (Edge.graph edges)

/-- The references of a schema that fit, and their edges. -/
structure Fits (s : Schema) (edges : List Edge) : Prop where
  edges_eq : s.references.mapM (·.edge s) = .ok edges
  families : ∀ e ∈ edges, e.ownerField.type.family = e.targetField.type.family

/-- The ends of the edges are fields of tables of the schema. -/
theorem Fits.ends_fields_mem {s : Schema} {edges : List Edge} (h : s.Fits edges) :
    ∀ e ∈ edges, (e.owner ∈ s.tables ∧ e.target ∈ s.tables) ∧
      e.ownerField ∈ e.owner.fields ∧ e.targetField ∈ e.target.fields := by
  have hends : List.Forall₂ (fun (e : Edge) (_ : Reference) =>
      ((e.owner ∈ s.tables ∧ e.target ∈ s.tables) ∧
        e.ownerField ∈ e.owner.fields ∧ e.targetField ∈ e.target.fields) ∧ True)
      edges s.references :=
    (mapM_eq_ok_iff.1 h.edges_eq).flip.imp fun _ _ he => ⟨Reference.ends_mem_of_edge he, trivial⟩
  exact ((List.forall₂_and_left _ _).1 hends).1

theorem Fits.ends_mem {s : Schema} {edges : List Edge} (h : s.Fits edges) :
    ∀ e ∈ edges, e.owner ∈ s.tables ∧ e.target ∈ s.tables := fun e he =>
  (h.ends_fields_mem e he).1

theorem Fits.fields_mem {s : Schema} {edges : List Edge} (h : s.Fits edges) :
    ∀ e ∈ edges, e.ownerField ∈ e.owner.fields ∧ e.targetField ∈ e.target.fields := fun e he =>
  (h.ends_fields_mem e he).2

theorem outcome_references {s : Schema} {edges : List Edge} :
    (s.references.mapM s.resolveReference).outcome = .ok edges ↔ s.Fits edges := by
  rw [Advised.outcome_mapM_eq_ok_iff]
  simp only [outcome_resolveReference]
  constructor
  · intro h
    have hflip : List.Forall₂ (fun (e : Edge) (r : Reference) =>
        e.ownerField.type.family = e.targetField.type.family ∧ r.edge s = .ok e) edges s.references :=
      (h.imp fun _ _ h => h.symm).flip
    exact ⟨mapM_eq_ok_iff.2 (h.imp fun _ _ h => h.1), ((List.forall₂_and_left _ _).1 hflip).1⟩
  · rintro ⟨hedges, hfamilies⟩
    have hflip := (List.forall₂_and_left _ _).2 ⟨hfamilies, (mapM_eq_ok_iff.1 hedges).flip⟩
    exact hflip.flip.imp fun _ _ h => h.symm

/-- When the references fit, only a cycle can keep a schema from being resolved. -/
theorem outcome_resolve {s : Schema} {edges : List Edge} (h : s.Fits edges) :
    s.resolve.outcome = match s.cycle? edges with
      | some c => .error (.circular (s.tableNames c))
      | none => .ok edges := by
  unfold resolve
  rw [Advised.bind_of_ok (outcome_references.2 h)]
  show Advised.outcome (match s.cycle? edges with | some c => _ | none => _) = _
  cases s.cycle? edges <;> rfl

theorem fits_of_resolve {s : Schema} {edges : List Edge} (h : s.resolve.outcome = .ok edges) :
    s.Fits edges := by
  obtain ⟨edges', hedges, h⟩ := Advised.outcome_bind_eq_ok.1 h
  split at h
  · cases h
  · cases h
    exact outcome_references.1 hedges

/-- What is noted of the types at an edge is a finding of the schema. -/
theorem findings_checkTypes_subset {s : Schema} {edges : List Edge}
    (h : s.resolve.outcome = .ok edges) {e : Edge} (he : e ∈ edges) :
    e.checkTypes.findings ⊆ s.resolve.findings := by
  obtain ⟨edges', hedges, h⟩ := Advised.outcome_bind_eq_ok.1 h
  have hsame : edges' = edges := by
    split at h
    · cases h
    · exact Except.ok.inj h
  subst hsame
  obtain ⟨r, -, hr, hfindings⟩ := Advised.findings_subset_mapM hedges e he
  refine List.Subset.trans ?_ (List.Subset.trans hfindings (Advised.findings_subset_bind _ _))
  rw [resolveReference_eq] at hr ⊢
  obtain ⟨e', he', hcheck⟩ := Advised.outcome_bind_eq_ok.1 hr
  obtain ⟨_, _, hcheck⟩ := Advised.outcome_bind_eq_ok.1 hcheck
  cases hcheck
  rw [Advised.bind_of_ok he']
  refine List.Subset.trans ?_ (List.subset_append_right _ _)
  exact List.Subset.trans (Advised.findings_subset_bind _ _) (Advised.findings_subset_bind _ _)

end Schema

end Schemata
