import Schemata.Proofs.Code.TypeWarnings
import Schemata.Proofs.Conversion.FileOrder

/-!
# How often a conversion warns of a type

All warnings about types come from the files. A conversion for one target warns of what each table loses
as it is created, and of what the tables lose that are made anew to undo it (`exists_remade`); what is
noted of references is of another sort (`Schema.code_of_resolve`). So a warning is repeated exactly for
the tables with keys in SQLite, when files that undo the plan are asked for and keys are not switched off
(`type_warnings_repeated_iff`).
-/

namespace Schemata

/-! ## Tables of plans -/

namespace Plan

variable {tables : List Table} {edges : List Edge} {base : Instant} {step : Int} {p : Plan}

theorem table_creates (h : order tables edges base step = .ok p) :
    p.creates.map (·.table) = tables := by
  obtain ⟨c, ids, created, attached, -, -, hcreated, -, htasks⟩ := orderBy_eq_ok h
  rw [(creates_of_tasks (f := fun t => (Groups.ofEdges edges).held t.id) htasks).1, List.map_map,
    ← (Clock.stampFrom_eq_ok hcreated).1]
  rfl

/-- Keys are attached once to each table that holds some. -/
theorem mem_attached (hids : (tables.map Table.id).Nodup)
    (h : order tables edges base step = .ok p) :
    p.attached.Nodup ∧ ∀ t, t ∈ p.attached ↔ IsOwner tables edges t := by
  obtain ⟨c, ids, created, attached, hends, horder, -, hattached, htasks⟩ := orderBy_eq_ok h
  have hin : ∀ e ∈ edges, ∃ t ∈ tables, t.id = e.owner.id := fun e he =>
    (checkEnds_eq_ok.1 hends e he).1
  have harrange : ∀ (id : String) (l : List String), l.Perm l := fun _ l => .refl l
  obtain ⟨l, hl, hmap, -⟩ := exists_attachable hids hin harrange
  obtain ⟨rfl, hlen⟩ := attachOrder_eq_ok.1 horder
  have htables := (Clock.stampFrom_eq_ok hattached).1
  rw [← hmap, tablesOf_map_id hids hl] at htables
  have hp : p.attached = l := by
    rw [Plan.attached, (creates_of_tasks (f := fun t => (Groups.ofEdges edges).held t.id) htasks).2,
      List.map_map, ← htables]
    rfl
  have hperm := perm_owners_of_length hids hin harrange hlen
  rw [← hmap] at hperm
  rw [hp]
  refine ⟨(hperm.nodup_iff.2 (Groups.nodup_owners_ofEdges edges)).of_map, fun t => ?_⟩
  unfold IsOwner
  rw [← Groups.mem_owners_ofEdges, ← hperm.mem_iff]
  constructor
  · exact fun ht => ⟨hl ht, List.mem_map_of_mem ht⟩
  · rintro ⟨ht, hid⟩
    obtain ⟨u, hu, hid⟩ := List.mem_map.1 hid
    rwa [← id_injective hids (hl hu) ht hid]

end Plan

/-! ## Keys and findings of references -/

/-- The id of the table that holds the key of a reference. -/
def Reference.ownerTable (r : Reference) : String :=
  if r.ownedByTarget then r.targetTable else r.sourceTable

theorem Reference.ownerTable_of_edge {s : Schema} {r : Reference} {e : Edge}
    (h : r.edge s = .ok e) : e.owner.id = r.ownerTable := by
  have hend : ∀ {table field : String} {x : Table × Field},
      r.endpoint s table field = .ok x → x.1.id = table := by
    intro table field x h
    unfold endpoint at h
    split at h
    · cases h
    · next t ht =>
      split at h <;> cases h
      simpa using List.find?_some ht
  unfold edge at h
  obtain ⟨source, hsource, h⟩ := bind_eq_ok.1 h
  obtain ⟨target, htarget, h⟩ := bind_eq_ok.1 h
  cases h
  unfold ownerTable
  split
  · exact hend htarget
  · exact hend hsource

/-- The tables that hold keys are told by the references. -/
theorem Schema.Fits.exists_owner_iff {s : Schema} {edges : List Edge} (h : s.Fits edges)
    (id : String) : (∃ e ∈ edges, e.owner.id = id) ↔ ∃ r ∈ s.references, r.ownerTable = id := by
  have hsame : List.Forall₂ (fun (e : Edge) (r : Reference) => e.owner.id = r.ownerTable) edges
      s.references :=
    (mapM_eq_ok_iff.1 h.edges_eq).flip.imp fun _ _ => Reference.ownerTable_of_edge
  have howners : edges.map (·.owner.id) = s.references.map Reference.ownerTable :=
    (congrFun₂ List.forall₂_eq_eq_eq _ _).mp
      (List.forall₂_map_left_iff.2 (List.forall₂_map_right_iff.2 hsame))
  have hmem := congrArg (id ∈ ·) howners
  simpa [List.mem_map] using hmem

/-- What is noted of a key is not about what its types lose. -/
theorem Edge.code_of_check (e : Edge) : ∀ f ∈ e.check.findings, f.code ∉ Rendered.lossCodes := by
  have hnote : ∀ code ∉ Rendered.lossCodes, ∀ (c : Prop) [Decidable c] (f : Finding),
      f.code = code → ∀ g ∈ (Noted.noteIf c f).findings, g.code ∉ Rendered.lossCodes := by
    intro code hcode c _ f hf g hg
    unfold Noted.noteIf at hg
    split at hg
    · rwa [List.mem_singleton.1 hg, hf]
    · cases hg
  have htypes : ∀ f ∈ e.checkTypes.findings, f.code ∉ Rendered.lossCodes := by
    intro f hf
    unfold checkTypes at hf
    dsimp only at hf
    split at hf
    · cases hf
    · unfold Advised.noteIf at hf
      split at hf
      · rw [List.mem_singleton.1 hf]
        show "reference.type_mismatch" ∉ Rendered.lossCodes
        decide
      · cases hf
  refine Advised.forall_findings_bind htypes fun _ => ?_
  refine Advised.forall_findings_bind
    (hnote "reference.target_not_key" (by decide) _ _ rfl) fun _ => ?_
  refine Advised.forall_findings_bind (hnote "naming.convention" (by decide) _ _ rfl) fun _ => ?_
  exact hnote "index.missing" (by decide) _ _ rfl

theorem Schema.code_of_resolve (s : Schema) :
    ∀ f ∈ s.resolve.findings, f.code ∉ Rendered.lossCodes := by
  refine Advised.forall_findings_bind (Advised.forall_findings_mapM (fun r => ?_) _) fun edges => ?_
  · rw [resolveReference_eq]
    exact Advised.forall_findings_bind nofun fun e =>
      Advised.forall_findings_bind e.code_of_check fun _ => nofun
  · split <;> exact nofun

/-! ## Conversions -/

namespace Conversion

/-- The subjects of the warnings about types. -/
def typeSubjects (findings : List Finding) : List Subject :=
  (findings.map Finding.subject).filter (·.1 ∈ Rendered.lossCodes)

/-- Whether a table is made anew to undo a conversion: its keys are to be dropped again in a database
that cannot drop keys. -/
def Remade (s : Schema) (o : Options) (target : Code.Target) (t : Table) : Prop :=
  target = .sql .sqlite ∧ o.withRollback = true ∧ o.generator.foreignKeys = true ∧
    ∃ r ∈ s.references, r.ownerTable = t.id

instance (s : Schema) (o : Options) (target : Code.Target) (t : Table) :
    Decidable (Remade s o target t) := inferInstanceAs (Decidable (_ ∧ _))

section Single

variable {s : Schema} {spellings : Option (List String)} {o : Options} {findings : List Finding}
  {target : Code.Target} {artifacts : List Code.Artifact}

theorem typeSubjects_append (l r : List Finding) :
    typeSubjects (l ++ r) = typeSubjects l ++ typeSubjects r := by
  rw [typeSubjects, List.map_append, List.filter_append]
  rfl

theorem typeSubjects_eq_nil {l : List Finding} (h : ∀ f ∈ l, f.code ∉ Rendered.lossCodes) :
    typeSubjects l = [] := by
  refine List.filter_eq_nil_iff.2 fun x hx => ?_
  obtain ⟨f, hf, rfl⟩ := List.mem_map.1 hx
  exact mt of_decide_eq_true (h f hf)

/-- When all that is found are losses of some tables, all of it is about types. -/
theorem typeSubjects_of_losses {l : List Finding} {tables : List Table} {d : Dialect}
    (h : l.map Finding.subject = tables.flatMap (Table.losses d)) :
    typeSubjects l = tables.flatMap (Table.losses d) := by
  rw [typeSubjects, h, List.filter_eq_self]
  intro x hx
  obtain ⟨t, -, hx⟩ := List.mem_flatMap.1 hx
  exact decide_eq_true (Table.losses_subset x hx)

/-- A conversion for one target warns of what the tables lose as they are created, and then of what
the tables lose that are made anew to undo it. -/
theorem exists_remade (h : ofSchema s spellings o = .ok ⟨findings, .ok [(target, artifacts)]⟩) :
    ∃ again ⊆ s.tables, again.Nodup ∧ (∀ t ∈ s.tables, t ∈ again ↔ Remade s o target t) ∧
      typeSubjects findings = s.tables.flatMap (Table.losses target.dialect) ++
        again.flatMap (Table.losses target.dialect) := by
  have hgenerate := ofSchema_eq_ok_iff.1 h
  obtain ⟨ts, edges, p, hts, hedges, hp, hfiles⟩ :=
    outcome_generate_eq_ok_iff.1 (congrArg Advised.outcome hgenerate)
  obtain rfl : ts = [target] := by
    have hfst := congrArg (List.map (·.1)) hfiles
    rw [List.map_map] at hfst
    exact (List.map_id ts).symm.trans hfst.symm
  rw [generate_of_ok hts hedges hp] at hgenerate
  have hfindings : s.resolve.findings ++ (filesFor p o target).findings = findings := by
    rw [← List.flatMap_singleton (f := fun t => (filesFor p o t).findings)]
    exact congrArg Advised.findings hgenerate
  have hascends := Plan.ascends_orderBy hp
  have hcreated := typeSubjects_of_losses (Code.subjects_render hascends target o.generator)
  have hundone := Code.subjects_renderRollback hascends target o.generator
  obtain ⟨hnodup, hmem⟩ := Plan.mem_attached s.nodup_tables hp
  have howners := (Schema.fits_of_resolve hedges).exists_owner_iff
  rw [Plan.table_creates hp] at hcreated
  rw [← hfindings, typeSubjects_append, typeSubjects_eq_nil s.code_of_resolve, List.nil_append,
    findings_filesFor, typeSubjects_append, hcreated]
  by_cases hremade : o.withRollback = true ∧ target = .sql .sqlite ∧ o.generator.foreignKeys = true
  · rw [if_pos hremade.2] at hundone
    rw [if_pos hremade.1, typeSubjects_of_losses hundone]
    refine ⟨p.attached.reverse, fun t ht => ((hmem t).1 (List.mem_reverse.1 ht)).1,
      List.nodup_reverse.2 hnodup, fun t ht => ?_, rfl⟩
    rw [List.mem_reverse, hmem, Plan.IsOwner, howners, and_iff_right ht, Remade]
    simp [hremade]
  · refine ⟨[], List.nil_subset _, .nil, fun t _ => ?_, ?_⟩
    · exact ⟨nofun, fun ht => absurd ⟨ht.2.1, ht.1, ht.2.2.1⟩ hremade⟩
    · rw [not_and] at hremade
      split
      · next hrollback =>
        rw [if_neg (hremade hrollback)] at hundone
        rw [typeSubjects, hundone]
        rfl
      · rfl

/-- When names differ, a loss of a column is told once, and twice if undoing the conversion makes its
table anew. So no warning about a type is repeated exactly when no table is made anew that has a column
with labels or without a sign. -/
theorem type_warnings_repeated_iff
    (h : ofSchema s spellings o = .ok ⟨findings, .ok [(target, artifacts)]⟩)
    (hnames : (s.tables.map Table.name).Nodup)
    (hfields : ∀ t ∈ s.tables, (t.fields.map Field.name).Nodup) :
    (∀ t ∈ s.tables, ∀ f ∈ t.fields, ∀ code,
      (typeSubjects findings).count (code, some t.name, some f.name) =
        if code ∈ Rendered.losses target.dialect f.type then if Remade s o target t then 2 else 1
        else 0) ∧
    ((typeSubjects findings).Nodup ↔ ∀ t ∈ s.tables, Remade s o target t → ∀ f ∈ t.fields,
      f.type.kind.isListed = false ∧ f.type.unsigned = false) := by
  obtain ⟨again, hagain, hnodup, hremade, hsubjects⟩ := exists_remade h
  have hall : s.tables.Nodup := hnames.of_map
  rw [hsubjects]
  refine ⟨fun t ht f hf code => ?_, ?_⟩
  · rw [List.count_append,
      Table.count_flatMap_losses hnames hfields (List.Subset.refl _) hall ht hf,
      Table.count_flatMap_losses hnames hfields hagain hnodup ht hf]
    simp only [ht, hremade t ht, true_and]
    by_cases hcode : code ∈ Rendered.losses target.dialect f.type
    · by_cases hr : Remade s o target t <;> simp [hcode, hr]
    · simp [hcode]
  · rw [List.nodup_append',
      and_iff_right (Table.nodup_flatMap_losses hnames hfields (List.Subset.refl _) hall),
      and_iff_right (Table.nodup_flatMap_losses hnames hfields hagain hnodup)]
    -- what is lost of a table that is made anew was told when it was created
    constructor
    · intro hdisjoint t ht hr f hf
      have htarget : target.dialect = .sqlite := congrArg Code.Target.dialect hr.1
      rw [← Rendered.losses_sqlite_eq_nil_iff, ← htarget, List.eq_nil_iff_forall_not_mem]
      intro code hcode
      have hmem := Table.mem_losses.2 ⟨f, hf, code, hcode, rfl⟩
      exact hdisjoint (List.mem_flatMap.2 ⟨t, ht, hmem⟩)
        (List.mem_flatMap.2 ⟨t, (hremade t ht).2 hr, hmem⟩)
    · intro hkept x _ hx
      obtain ⟨t, ht, hx⟩ := List.mem_flatMap.1 hx
      obtain ⟨f, hf, code, hcode, -⟩ := Table.mem_losses.1 hx
      have hr := (hremade t (hagain ht)).1 ht
      have htarget : target.dialect = .sqlite := congrArg Code.Target.dialect hr.1
      rw [htarget, (Rendered.losses_sqlite_eq_nil_iff _).2 (hkept t (hagain ht) hr f hf)] at hcode
      cases hcode

end Single

/-- A column with labels. -/
def rig : Field where
  id := "r"
  name := "rig"
  type := .ofEnum "rigs" ["sloop", "ketch"]

/-- Boats with a key to their harbour. -/
def boats : Table where
  id := "b"
  name := "boats"
  fields := [Plan.column "i" "harbours_id", rig]
  nodup_fields := by decide

def moorings : Schema where
  tables := [{ Plan.users with id := "h", name := "harbours" }, boats]
  references := [⟨"r", "b", "i", "h", "k", .manyToOne, .restrict, .restrict, none⟩]
  nodup_tables := by decide

/-- Boats are made anew to undo the conversion, and that their rigs are texts in SQLite is told twice. -/
theorem type_warnings_repeated_moorings : ∃ findings artifacts,
    ofSchema moorings (some ["sqlite"]) beforeLeapDay =
      .ok ⟨findings, .ok [(.sql .sqlite, artifacts)]⟩ ∧
    (typeSubjects findings).count ("type.fidelity_lost", some "boats", some "rig") = 2 ∧
    ¬ (typeSubjects findings).Nodup := by
  have hfits : moorings.Fits (Plan.edgesOf moorings) := by
    constructor <;> decide +kernel
  have htargets : targets ["sqlite"] = .ok [.sql .sqlite] := by decide +kernel
  obtain ⟨findings, files, hfiles, hfst⟩ :
      ∃ findings files, ofSchema moorings (some ["sqlite"]) beforeLeapDay =
        .ok ⟨findings, .ok files⟩ ∧ files.map (·.1) = [.sql .sqlite] :=
    exists_ofSchema_eq_ok htargets hfits (Graph.cycle?_eq_none_of_sinks (by decide +kernel))
      (by decide +kernel)
  obtain ⟨⟨target, artifacts⟩, rfl, htarget⟩ := List.map_eq_singleton_iff.1 hfst
  obtain rfl : target = .sql .sqlite := htarget
  obtain ⟨hcount, hnodup⟩ := type_warnings_repeated_iff hfiles (by decide) (by decide)
  have hboats : boats ∈ moorings.tables := List.mem_cons_of_mem _ List.mem_cons_self
  have hrig : rig ∈ boats.fields := List.mem_cons_of_mem _ List.mem_cons_self
  have hremade : Remade moorings beforeLeapDay (.sql .sqlite) boats :=
    ⟨rfl, rfl, rfl, _, List.mem_cons_self, rfl⟩
  refine ⟨findings, artifacts, hfiles, ?_, fun h => ?_⟩
  · have htold := hcount boats hboats rig hrig "type.fidelity_lost"
    rwa [if_pos (by decide), if_pos hremade] at htold
  · exact absurd (hnodup.1 h boats hboats hremade rig hrig).1 (by decide)

end Conversion

end Schemata
