import Schemata.Proofs.Dependency.Resolve
import Schemata.Proofs.Notation.Builder

/-!
# Closed schemas

A reference may name anything. In a closed schema all references lead to fields of its tables, so that
resolving it misses nothing and it can be written (`isClosed_of_ends`). What is built from a text is
closed, since the second pass takes the ends of a reference from the tables that it has built
(`Notation.isClosed_parse`).
-/

namespace Schemata

open Notation

/-- A schema in which no reference leads nowhere: resolving it never misses a table or a field, and it
can be written. -/
structure Schema.IsClosed (s : Schema) : Prop where
  tables : ∀ label id, s.resolve.outcome ≠ .error (.unknownTableId label id)
  fields : ∀ label id table, s.resolve.outcome ≠ .error (.unknownFieldId label id table)
  writes : ∀ project, ∃ text, serialize s project = .ok text

/-! ## References with both ends -/

namespace Reference

variable {s : Schema} {r : Reference}

theorem exists_edge_of_ends (h : (s.endNames? r).isSome) : ∃ e, r.edge s = .ok e := by
  obtain ⟨names, hnames⟩ := Option.isSome_iff_exists.1 h
  obtain ⟨ends, hends, -⟩ := endNames?_eq_some hnames
  obtain ⟨htable, hfield, htable', hfield'⟩ := endpoints_eq_ok hends
  have hsource : r.endpoint s r.sourceTable r.sourceField = .ok ends.1 := by
    rw [endpoint, htable]
    dsimp only
    rw [hfield]
  have htarget : r.endpoint s r.targetTable r.targetField = .ok ends.2 := by
    rw [endpoint, htable']
    dsimp only
    rw [hfield']
  rw [edge, hsource, htarget]
  exact ⟨_, rfl⟩

theorem exists_text_of_ends (h : (s.endNames? r).isSome) : ∃ text, referenceText s r = .ok text := by
  obtain ⟨names, hnames⟩ := Option.isSome_iff_exists.1 h
  obtain ⟨ends, hends, -⟩ := endNames?_eq_some hnames
  rw [referenceText, hends]
  exact ⟨_, rfl⟩

end Reference

/-- All that a check can fail for is that the types belong to different families. -/
theorem Edge.check_eq_error {e : Edge} {f : Fault} (h : e.check.outcome = .error f) :
    ∃ owner ownerType ownerFamily target targetType targetFamily,
      f = .incompatibleKey owner ownerType ownerFamily target targetType targetFamily := by
  unfold check at h
  obtain h | ⟨_, -, h⟩ := Advised.outcome_bind_eq_error.1 h
  · unfold checkTypes at h
    dsimp only at h
    split at h
    · cases h
      exact ⟨_, _, _, _, _, _, rfl⟩
    · unfold Advised.noteIf at h
      split at h <;> cases h
  · cases h

namespace Schema

variable {s : Schema}

/-- When every reference has both ends, only the types or a cycle can keep a schema from being
resolved. -/
theorem resolve_eq_error (h : ∀ r ∈ s.references, (s.endNames? r).isSome) {f : Fault}
    (hf : s.resolve.outcome = .error f) :
    (∃ owner ownerType ownerFamily target targetType targetFamily,
      f = .incompatibleKey owner ownerType ownerFamily target targetType targetFamily) ∨
    ∃ path, f = .circular path := by
  unfold resolve at hf
  obtain hf | ⟨edges, -, hf⟩ := Advised.outcome_bind_eq_error.1 hf
  · left
    obtain ⟨r, hr, hf⟩ := Advised.exists_of_mapM_eq_error hf
    obtain ⟨e, he⟩ := Reference.exists_edge_of_ends (h r hr)
    rw [resolveReference_eq, he] at hf
    obtain hf | ⟨e', he', hf⟩ := Advised.outcome_bind_eq_error.1 hf
    · cases hf
    · obtain hf | ⟨_, -, hf⟩ := Advised.outcome_bind_eq_error.1 hf
      · exact Edge.check_eq_error hf
      · cases hf
  · right
    split at hf
    · cases hf
      exact ⟨_, rfl⟩
    · cases hf

theorem exists_serialize (h : ∀ r ∈ s.references, (s.endNames? r).isSome) (project : String) :
    ∃ text, serialize s project = .ok text := by
  obtain ⟨texts, htexts⟩ := exists_mapM_eq_ok fun r hr => Reference.exists_text_of_ends (h r hr)
  rw [serialize, schemaLines, htexts]
  exact ⟨_, rfl⟩

theorem isClosed_of_ends (h : ∀ r ∈ s.references, (s.endNames? r).isSome) : s.IsClosed := by
  constructor
  · intro label id hf
    obtain ⟨_, _, _, _, _, _, hf⟩ | ⟨_, hf⟩ := resolve_eq_error h hf <;> cases hf
  · intro label id table hf
    obtain ⟨_, _, _, _, _, _, hf⟩ | ⟨_, hf⟩ := resolve_eq_error h hf <;> cases hf
  · exact exists_serialize h

end Schema

/-! ## What is built from a text -/

namespace Notation

theorem mem_of_lookup_eq_some {names : Names} {key : String} {t : Table}
    (h : names.lookup key = some t) : (key, t) ∈ names := by
  obtain ⟨before, after, rfl, -⟩ := List.lookup_eq_some_iff.1 h
  exact List.mem_append_right _ List.mem_cons_self

theorem Names.mem_add {names : Names} {t : TableDraft} {table : Table} {p : String × Table}
    (h : p ∈ names.add t table) : p.2 = table ∨ p ∈ names := by
  unfold Names.add at h
  dsimp only at h
  split at h
  · split at h
    · rcases List.mem_cons.1 h with rfl | h
      · exact .inl rfl
      · exact .inr h
    · rcases List.mem_cons.1 h with rfl | h
      · exact .inl rfl
      · rcases List.mem_cons.1 h with rfl | h
        · exact .inl rfl
        · exact .inr h
  · rcases List.mem_cons.1 h with rfl | h
    · exact .inl rfl
    · exact .inr h

/-- Every name refers to a table that was built, or it was there before. -/
theorem mem_names_buildTables {d : Dialect} {enums : List EnumType} {drafts : List TableDraft}
    {position : Nat} {names names' : Names} {tables : List Table}
    (h : (buildTables d enums position names drafts).outcome = .ok (tables, names')) :
    ∀ p ∈ names', p.2 ∈ tables ∨ p ∈ names := by
  induction drafts generalizing position names tables with
  | nil =>
    cases h
    exact fun p hp => .inr hp
  | cons t drafts ih =>
    unfold buildTables at h
    split at h
    · cases h
    · obtain ⟨table, -, h⟩ := Advised.outcome_bind_eq_ok.1 h
      obtain ⟨⟨rest, names''⟩, hrest, h⟩ := Advised.outcome_bind_eq_ok.1 h
      cases h
      intro p hp
      rcases ih hrest p hp with hp | hp
      · exact .inl (List.mem_cons_of_mem _ hp)
      · rcases Names.mem_add hp with rfl | hp
        · exact .inl List.mem_cons_self
        · exact .inr hp

theorem resolveEndpoint_eq_ok {names : Names} {line : Nat} {endpoint : String × String}
    {p : Table × Field} (h : resolveEndpoint names line endpoint = .ok p) :
    names.lookup endpoint.1 = some p.1 ∧ p.1.fieldByName? endpoint.2 = some p.2 := by
  unfold resolveEndpoint at h
  split at h
  · cases h
  · next t ht =>
    split at h
    · cases h
    · next f hf =>
      cases h
      exact ⟨ht, hf⟩

/-- The ids of a built reference are those of the tables and fields that its ends resolve to. -/
theorem buildReference_eq_ok {names : Names} {position : Nat} {r : ReferenceDraft} {q : Reference}
    (h : (buildReference names position r).outcome = .ok q) :
    ∃ source target, resolveEndpoint names r.line r.left = .ok source ∧
      resolveEndpoint names r.line r.right = .ok target ∧
      q.sourceTable = source.1.id ∧ q.sourceField = source.2.id ∧
      q.targetTable = target.1.id ∧ q.targetField = target.2.id := by
  unfold buildReference at h
  obtain ⟨source, hsource, h⟩ := Advised.outcome_bind_eq_ok.1 h
  obtain ⟨target, htarget, h⟩ := Advised.outcome_bind_eq_ok.1 h
  obtain ⟨_, -, h⟩ := Advised.outcome_bind_eq_ok.1 h
  cases h
  exact ⟨source, target, hsource, htarget, rfl, rfl, rfl, rfl⟩

/-- References between tables of a schema have both ends. -/
theorem ends_of_buildReferences {s : Schema} {names : Names} (hnames : ∀ p ∈ names, p.2 ∈ s.tables)
    {position : Nat} {drafts : List ReferenceDraft} {references : List Reference}
    (h : (buildReferences names position drafts).outcome = .ok references) :
    ∀ r ∈ references, (s.endNames? r).isSome := by
  induction drafts generalizing position references with
  | nil =>
    cases h
    simp
  | cons draft drafts ih =>
    unfold buildReferences at h
    obtain ⟨q, hq, h⟩ := Advised.outcome_bind_eq_ok.1 h
    obtain ⟨rest, hrest, h⟩ := Advised.outcome_bind_eq_ok.1 h
    cases h
    refine List.forall_mem_cons.2 ⟨?_, ih hrest⟩
    obtain ⟨source, target, hsource, htarget, hids⟩ := buildReference_eq_ok hq
    obtain ⟨hsource, hfield⟩ := resolveEndpoint_eq_ok hsource
    obtain ⟨htarget, hfield'⟩ := resolveEndpoint_eq_ok htarget
    rw [endNames?_of_mem (hnames _ (mem_of_lookup_eq_some hsource))
      (hnames _ (mem_of_lookup_eq_some htarget)) (List.mem_of_find?_eq_some hfield)
      (List.mem_of_find?_eq_some hfield') hids]
    rfl

theorem ends_of_build {items : List Item} {s : Schema} (h : (build items).outcome = .ok s) :
    ∀ r ∈ s.references, (s.endNames? r).isSome := by
  unfold build at h
  obtain ⟨⟨tables, names⟩, htables, h⟩ := Advised.outcome_bind_eq_ok.1 h
  obtain ⟨references, hreferences, h⟩ := Advised.outcome_bind_eq_ok.1 h
  have hbuild : Schema.build tables references (enumsOf items) (dialectOf items) = .ok s := h
  unfold Schema.build at hbuild
  split at hbuild
  · cases hbuild
    refine ends_of_buildReferences (fun p hp => ?_) hreferences
    exact (mem_names_buildTables htables p hp).resolve_right List.not_mem_nil
  · cases hbuild

theorem isClosed_parse {text : String} {s : Schema} (h : (parse text).outcome = .ok s) :
    s.IsClosed := by
  obtain ⟨items, -, h⟩ := Advised.outcome_bind_eq_ok.1 h
  exact Schema.isClosed_of_ends (ends_of_build h)

end Notation

end Schemata
