import Schemata.Proofs.Catalog.Faults
import Schemata.Proofs.Conversion.FileOrder
import Schemata.Proofs.Conversion.Limits
import Schemata.Proofs.Plan.Agreement

/-!
# What a conversion returns

A conversion returns files for all its targets or a fault, unless it breaks off. Everything that can
go wrong with targets and schemas is returned. What is left is the clock and the limit of digits: a
step that is not positive, a moment outside the calendar and a number with too many digits break a
conversion off, and only in a conversion of rows a bad step and such a number are returned as well.
Otherwise a conversion of rows comes to what the conversion of the schema of the rows comes to
(`results_returned`).
-/

namespace Schemata

/-! ## Plans that fail -/

namespace Clock

variable {α : Type} {c : Clock}

theorem stamp_eq_error {n : Nat} {f : Fault} : c.stamp n = .error f ↔
    f = .instantOutOfRange ∧ Calendar.span ≤ c.base.seconds + n * c.step := by
  unfold stamp Instant.ofSeconds?
  by_cases h : c.base.seconds + n * c.step < Calendar.span
  · simp [h]
  · have hle := Nat.le_of_not_lt h
    simp [h, hle, eq_comm]

/-- A list cannot be stamped exactly when the moment of one of its ticks is outside the calendar. -/
theorem stampFrom_eq_error {l : List α} {n : Nat} {f : Fault} : c.stampFrom n l = .error f ↔
    f = .instantOutOfRange ∧
      ∃ i < l.length, Calendar.span ≤ c.base.seconds + (n + i) * c.step := by
  induction l generalizing n with
  | nil => simp [stampFrom]
  | cons x l ih =>
    have hrest : ∀ s, (do return (x, s) :: (← c.stampFrom (n + 1) l)) = .error f ↔
        c.stampFrom (n + 1) l = .error f := by
      intro s
      rw [bind_eq_error, or_iff_left]
      rintro ⟨_, -, h⟩
      cases h
    rw [stampFrom, bind_eq_error]
    simp only [hrest, stamp_eq_error, ih]
    constructor
    · rintro (⟨hf, hspan⟩ | ⟨s, -, hf, i, hi, hspan⟩)
      · exact ⟨hf, 0, by simp, hspan⟩
      · refine ⟨hf, i + 1, Nat.succ_lt_succ hi, ?_⟩
        rwa [Nat.add_comm i, ← Nat.add_assoc]
    · rintro ⟨hf, i, hi, hspan⟩
      cases hstamp : c.stamp n with
      | error g => exact .inl ⟨hf, (stamp_eq_error.1 hstamp).2⟩
      | ok s =>
        cases i with
        | zero => exact .inl ⟨hf, hspan⟩
        | succ i =>
          refine .inr ⟨s, rfl, hf, i, Nat.lt_of_succ_lt_succ hi, ?_⟩
          rwa [Nat.add_comm i, ← Nat.add_assoc] at hspan

end Clock

namespace Plan

/-- The number of tasks of a plan: one for each table, and one for each table that holds keys. -/
def taskCount (tables : List Table) (edges : List Edge) : Nat :=
  tables.length + (Groups.ofEdges edges).length

/-- The tables whose keys are attached, one for each that holds any. -/
theorem exists_attachOrder {s : Schema} {edges : List Edge} (h : s.resolve.outcome = .ok edges) :
    ∃ ids, attachOrder (fun _ l => l) s.tables (.ofEdges edges) = .ok ids ∧
      (tablesOf s.tables ids).length = (Groups.ofEdges edges).length := by
  have hfits := Schema.fits_of_resolve h
  have harrange : ∀ (id : String) (l : List String), l.Perm l := fun _ l => .refl l
  have hnone : s.cycle? edges = none := by
    cases hc : s.cycle? edges with
    | none => rfl
    | some c =>
      rw [Schema.outcome_resolve hfits, hc] at h
      cases h
  have hlength := (length_attachable_iff hfits harrange).2 hnone
  have hattach := attachOrder_of_fits hfits harrange
  rw [if_pos hnone] at hattach
  have hperm := perm_owners_of_length s.nodup_tables (owner_mem_of_fits hfits) harrange hlength
  have hmem : ∀ id ∈ attachable (fun _ l => l) s.tables (.ofEdges edges),
      ∃ t ∈ s.tables, t.id = id := by
    intro id hid
    obtain ⟨e, he, rfl⟩ := Groups.mem_owners_ofEdges.1 (hperm.mem_iff.1 hid)
    exact owner_mem_of_fits hfits e he
  obtain ⟨l, hl, hids⟩ := exists_map_id hmem
  refine ⟨_, hattach, ?_⟩
  rw [← hids, tablesOf_map_id s.nodup_tables hl, ← hlength, ← hids, List.length_map]

/-- For a schema that is resolved, only the clock keeps a plan from being made: its step is not
positive, or the moment of a task is outside the calendar. -/
theorem order_eq_error {s : Schema} {edges : List Edge} (h : s.resolve.outcome = .ok edges)
    {base : Instant} {step : Int} {f : Fault} : order s.tables edges base step = .error f ↔
      (f = .badStep ∧ step < 1) ∨
      (f = .instantOutOfRange ∧ 1 ≤ step ∧ ∃ i < taskCount s.tables edges,
        Calendar.span ≤ base.seconds + i * step.toNat) := by
  obtain ⟨ids, hids, hlength⟩ := exists_attachOrder h
  have hends := checkEnds_of_fits (Schema.fits_of_resolve h)
  by_cases hstep : step < 1
  · have hstart : Clock.start base step = .error .badStep := dif_neg (by omega)
    have horder : order s.tables edges base step = .error .badStep := by
      unfold order orderBy
      rw [hstart]
      rfl
    rw [horder, Except.error.injEq]
    constructor
    · rintro rfl
      exact .inl ⟨rfl, hstep⟩
    · rintro (⟨rfl, -⟩ | ⟨-, hpos, -⟩)
      · rfl
      · omega
  · have hpos : 0 < step.toNat := by omega
    let c : Clock := ⟨base, step.toNat, hpos⟩
    have hstart : Clock.start base step = .ok c := dif_pos hpos
    have horder : order s.tables edges base step = .error f ↔
        c.stampFrom 0 s.tables = .error f ∨ ∃ created, c.stampFrom 0 s.tables = .ok created ∧
          c.stampFrom s.tables.length (tablesOf s.tables ids) = .error f := by
      unfold order orderBy
      rw [hstart]
      show (c.stampFrom 0 s.tables >>= _) = _ ↔ _
      rw [bind_eq_error]
      refine or_congr_right (exists_congr fun created => and_congr_right fun _ => ?_)
      rw [hends]
      show (attachOrder _ s.tables _ >>= _) = _ ↔ _
      rw [hids]
      show (c.stampFrom s.tables.length (tablesOf s.tables ids) >>= _) = _ ↔ _
      rw [bind_eq_error]
      exact or_iff_left fun ⟨_, _, h⟩ => nomatch h
    rw [horder]
    simp only [Clock.stampFrom_eq_error, hlength, Nat.zero_add]
    constructor
    · rintro (⟨hf, i, hi, hspan⟩ | ⟨_, -, hf, i, hi, hspan⟩)
      · exact .inr ⟨hf, by omega, i, Nat.lt_add_right _ hi, hspan⟩
      · exact .inr ⟨hf, by omega, _, Nat.add_lt_add_left hi _, hspan⟩
    · rintro (⟨-, hbad⟩ | ⟨hf, -, i, hi, hspan⟩)
      · exact absurd hbad hstep
      · -- a tick among the attachments counts only if all tables were stamped before
        cases hcreated : c.stampFrom 0 s.tables with
        | error g =>
          obtain ⟨-, j, hj, hspan⟩ := Clock.stampFrom_eq_error.1 hcreated
          rw [Nat.zero_add] at hspan
          exact .inl ⟨hf, j, hj, hspan⟩
        | ok created =>
          by_cases hi' : i < s.tables.length
          · exact .inl ⟨hf, i, hi', hspan⟩
          · unfold taskCount at hi
            refine .inr ⟨created, rfl, hf, i - s.tables.length, by omega, ?_⟩
            rwa [Nat.add_sub_cancel' (Nat.le_of_not_lt hi')]

end Plan

/-! ## Conversions -/

namespace Conversion

/-- What breaks a conversion off within some limits, once its targets are known. -/
inductive Breaks (l : Limits) (s : Schema) (spellings : Option (List String)) (o : Options) :
    Fault → Prop
  /-- A number that is to be shown has too many digits. -/
  | unshown {ts : List Code.Target} {limit : Nat}
    (hts : targets (spellings.getD ({} : GenerationSettings).targets) = .ok ts)
    (hnumber : s.Unshown l limit) : Breaks l s spellings o (.badNumeral (.unwritable limit))
  | badStep {ts : List Code.Target} {edges : List Edge}
    (hts : targets (spellings.getD ({} : GenerationSettings).targets) = .ok ts)
    (hedges : (s.resolve l).outcome = .ok edges) (hstep : o.step < 1) :
    Breaks l s spellings o .badStep
  /-- The moment of a task is outside the calendar. -/
  | instantOutOfRange {ts : List Code.Target} {edges : List Edge} {i : Nat}
    (hts : targets (spellings.getD ({} : GenerationSettings).targets) = .ok ts)
    (hedges : (s.resolve l).outcome = .ok edges) (hstep : 1 ≤ o.step)
    (hi : i < Plan.taskCount s.tables edges)
    (hspan : Calendar.span ≤ o.base.seconds + i * o.step.toNat) :
    Breaks l s spellings o .instantOutOfRange
  /-- A number that is to be written for a column has too many digits. -/
  | unwritten {ts : List Code.Target} {edges : List Edge} {limit : Nat}
    (hts : targets (spellings.getD ({} : GenerationSettings).targets) = .ok ts)
    (hedges : (s.resolve l).outcome = .ok edges) (hstep : 1 ≤ o.step)
    (hspan : ∀ i < Plan.taskCount s.tables edges,
      o.base.seconds + i * o.step.toNat < Calendar.span)
    (hnumber : Unwritten l s ts limit) : Breaks l s spellings o (.badNumeral (.unwritable limit))

section Generate

variable {l : Limits} {s : Schema} {spellings : Option (List String)} {o : Options} {f : Fault}

theorem Breaks.isReported (h : Breaks l s spellings o f) : f.isReported = false := by
  cases h <;> rfl

/-- A plan is made for a schema that is resolved, if the clock lasts. -/
theorem exists_order {edges : List Edge} (hedges : (s.resolve l).outcome = .ok edges)
    (hstep : 1 ≤ o.step)
    (hspan : ∀ i < Plan.taskCount s.tables edges,
      o.base.seconds + i * o.step.toNat < Calendar.span) :
    ∃ p, Plan.order s.tables edges o.base o.step = .ok p := by
  cases hp : Plan.order s.tables edges o.base o.step with
  | ok p => exact ⟨p, rfl⟩
  | error f =>
    obtain ⟨-, hbad⟩ | ⟨-, -, i, hi, hlate⟩ :=
      (Plan.order_eq_error (Schema.outcome_resolve_of_within hedges)).1 hp
    · omega
    · exact absurd (hspan i hi) (Nat.not_lt.2 hlate)

section Targets

variable {ts : List Code.Target}
  (hts : targets (spellings.getD ({} : GenerationSettings).targets) = .ok ts)

include hts

theorem outcome_generate_eq_error : (generate s spellings o l).outcome = .error f ↔
    (s.resolve l).outcome = .error f ∨ ∃ edges, (s.resolve l).outcome = .ok edges ∧
      (Plan.order s.tables edges o.base o.step = .error f ∨
        ∃ p, Plan.order s.tables edges o.base o.step = .ok p ∧
          (ts.mapM fun t => do return (t, ← filesWithin l p o t) : Advised Files).outcome =
            .error f) := by
  unfold generate
  dsimp only
  rw [hts, Advised.bind_of_ok rfl]
  refine Advised.outcome_bind_eq_error.trans (or_congr Iff.rfl (exists_congr fun edges => ?_))
  exact and_congr_right fun _ => Advised.outcome_bind_eq_error

end Targets

theorem Breaks.outcome_generate (h : Breaks l s spellings o f) :
    (generate s spellings o l).outcome = .error f := by
  cases h with
  | unshown hts hnumber => exact (outcome_generate_eq_error hts).2 (.inl hnumber.outcome_resolve)
  | badStep hts hedges hstep =>
    have horder : Plan.order s.tables _ o.base o.step = .error .badStep :=
      (Plan.order_eq_error (Schema.outcome_resolve_of_within hedges)).2 (.inl ⟨rfl, hstep⟩)
    exact (outcome_generate_eq_error hts).2 (.inr ⟨_, hedges, .inl horder⟩)
  | instantOutOfRange hts hedges hstep hi hspan =>
    have horder : Plan.order s.tables _ o.base o.step = .error .instantOutOfRange :=
      (Plan.order_eq_error (Schema.outcome_resolve_of_within hedges)).2
        (.inr ⟨rfl, hstep, _, hi, hspan⟩)
    exact (outcome_generate_eq_error hts).2 (.inr ⟨_, hedges, .inl horder⟩)
  | unwritten hts hedges hstep hspan hnumber =>
    obtain ⟨p, hp⟩ := exists_order hedges hstep hspan
    have hfiles := (outcome_files_eq_error (o := o) hp).2 ⟨_, hnumber, rfl⟩
    exact (outcome_generate_eq_error hts).2 (.inr ⟨_, hedges, .inr ⟨p, hp, hfiles⟩⟩)

/-- Whatever else goes wrong is returned. -/
theorem breaks_or_isReported (h : (generate s spellings o l).outcome = .error f) :
    Breaks l s spellings o f ∨ f.isReported = true := by
  cases hts : targets (spellings.getD ({} : GenerationSettings).targets) with
  | error g =>
    unfold generate at h
    dsimp only at h
    rw [hts] at h
    cases h
    exact .inr rfl
  | ok ts =>
    obtain h | ⟨edges, hedges, h⟩ := (outcome_generate_eq_error hts).1 h
    · obtain hreported | ⟨limit, hnumber, rfl⟩ := Schema.isReported_or_unshown h
      · exact .inr hreported
      · exact .inl (.unshown hts hnumber)
    have horder := @Plan.order_eq_error s edges (Schema.outcome_resolve_of_within hedges) o.base o.step
    obtain h | ⟨p, hp, h⟩ := h
    · obtain ⟨rfl, hstep⟩ | ⟨rfl, hstep, i, hi, hspan⟩ := horder.1 h
      · exact .inl (.badStep hts hedges hstep)
      · exact .inl (.instantOutOfRange hts hedges hstep hi hspan)
    · -- as there is a plan, neither the step nor a moment was bad
      have hgood : ∀ g, Plan.order s.tables edges o.base o.step ≠ .error g := by
        intro g
        rw [hp]
        exact nofun
      have hstep : 1 ≤ o.step := by
        by_contra hbad
        exact hgood _ (horder.2 (.inl ⟨rfl, by omega⟩))
      have hspan : ∀ i < Plan.taskCount s.tables edges,
          o.base.seconds + i * o.step.toNat < Calendar.span := by
        intro i hi
        by_contra hlate
        exact hgood _ (horder.2 (.inr ⟨rfl, hstep, i, hi, Nat.not_lt.1 hlate⟩))
      obtain ⟨limit, hnumber, rfl⟩ := (outcome_files_eq_error (o := o) hp).1 h
      exact .inl (.unwritten hts hedges hstep hspan hnumber)

end Generate

/-- What a caller gets: a fault that breaks the run off, or else files or a fault that is returned,
never both. -/
def told (x : Except Fault (Advised Files)) : Except Fault (Except Fault Files) := x.map (·.outcome)

theorem told_settle (x : Advised Files) : told x.settle =
    match x.outcome with
    | .ok files => .ok (.ok files)
    | .error f => if f.isReported then .ok (.error f) else .error f := by
  unfold Advised.settle
  cases h : x.outcome with
  | ok files => simp [told, Except.map, h]
  | error f =>
    dsimp only
    split
    · simp [told, Except.map, h]
    · rfl

variable {l : Limits}

theorem told_ofSchema_eq_error {s : Schema} {spellings : Option (List String)} {o : Options}
    {f : Fault} : told (ofSchema s spellings o l) = .error f ↔ Breaks l s spellings o f := by
  unfold ofSchema
  rw [told_settle]
  constructor
  · intro h
    split at h
    · cases h
    · next g hg =>
      split at h
      · cases h
      · next hunreported =>
        cases h
        exact (breaks_or_isReported hg).resolve_right hunreported
  · intro h
    rw [h.outcome_generate]
    dsimp only
    rw [h.isReported]
    rfl

/-- A conversion that returns files returns those of each target. -/
theorem targets_of_told {s : Schema} {spellings : Option (List String)} {o : Options} {files : Files}
    (h : told (ofSchema s spellings o l) = .ok (.ok files)) :
    targets (spellings.getD ({} : GenerationSettings).targets) = .ok (files.map (·.1)) := by
  unfold ofSchema at h
  rw [told_settle] at h
  split at h
  · next files' hg =>
    cases h
    obtain ⟨ts, hts, hg⟩ := Advised.outcome_bind_eq_ok.1 hg
    obtain ⟨edges, -, hg⟩ := Advised.outcome_bind_eq_ok.1 hg
    obtain ⟨p, -, hg⟩ := Advised.outcome_bind_eq_ok.1 hg
    rw [mapError_eq_ok.1 hts]
    -- each target stands in front of its files
    have hsame : List.Forall₂ (fun t (f : Code.Target × List Code.Artifact) => t = f.1) ts files := by
      refine (Advised.outcome_mapM_eq_ok_iff.1 hg).imp fun t y hy => ?_
      obtain ⟨_, -, hy⟩ := Advised.outcome_bind_eq_ok.1 hy
      cases hy
      rfl
    have hmap : List.Forall₂ (· = ·) ts (files.map (·.1)) := List.forall₂_map_right_iff.2 hsame
    rw [List.forall₂_eq_eq_eq] at hmap
    rw [hmap]
  · split at h <;> cases h

section Catalog

variable {dialect : String} {tables : List (String × List Catalog.ColumnRow)}
  {keys : List Catalog.ForeignKeyRow} {spellings : Option (List String)} {o : Options} {f : Fault}

theorem told_settle_asRefused (x : Advised Files) :
    told (Advised.mapFault Fault.asRefused x).settle =
      match x.outcome with
      | .ok files => .ok (.ok files)
      | .error f =>
        if f.asRefused.isReported then .ok (.error f.asRefused) else .error f.asRefused := by
  rw [told_settle, Advised.mapFault]
  cases x.outcome <;> rfl

theorem told_ofCatalog_of_unnamed (h : Dialect.named dialect = .error f) :
    told (ofCatalog dialect tables keys spellings o l) = .ok (.error (.refused f)) := by
  unfold ofCatalog
  rw [told_settle_asRefused, h]
  unfold Dialect.named at h
  cases hd : Dialect.ofAlias? dialect with
  | some d =>
    rw [hd] at h
    cases h
  | none =>
    rw [hd] at h
    cases h
    rfl

variable {d : Dialect} (hd : Dialect.named dialect = .ok d)

include hd

/-- What rows come to that cannot be made a schema of. -/
theorem told_ofCatalog_of_error (h : (Catalog.toSchema d tables keys l).outcome = .error f) :
    told (ofCatalog dialect tables keys spellings o l) =
      if f = .nestedTooDeeply then .error f else .ok (.error f.asRefused) := by
  have houtcome : (Catalog.toSchema d tables keys l >>= fun s => generate s spellings o l).outcome =
      .error f := Advised.outcome_bind_eq_error.2 (.inl h)
  unfold ofCatalog
  rw [told_settle_asRefused, hd]
  show (match (Catalog.toSchema d tables keys l >>= fun s => generate s spellings o l).outcome with
    | .ok files => _ | .error f => _) = _
  rw [houtcome]
  dsimp only
  obtain hreported | rfl := Catalog.isRowFault_of_toSchema h
  · have hne : f ≠ .nestedTooDeeply := by
      rintro rfl
      cases hreported
    rw [if_pos hreported, if_neg hne]
  · rfl

/-- Once the rows make up a schema, only a malformed request makes a difference. -/
theorem told_ofCatalog_of_ok {s : Schema} (h : (Catalog.toSchema d tables keys l).outcome = .ok s) :
    told (ofCatalog dialect tables keys spellings o l) =
      match told (ofSchema s spellings o l) with
      | .error f => if f.isRequest then .ok (.error (.refused f)) else .error f
      | result => result := by
  have houtcome : (Catalog.toSchema d tables keys l >>= fun s => generate s spellings o l).outcome =
      (generate s spellings o l).outcome := by rw [Advised.bind_of_ok h]
  unfold ofCatalog ofSchema
  rw [told_settle_asRefused, told_settle, hd]
  show (match (Catalog.toSchema d tables keys l >>= fun s => generate s spellings o l).outcome with
    | .ok files => _ | .error f => _) = _
  rw [houtcome]
  cases hg : (generate s spellings o l).outcome with
  | ok files => rfl
  | error f =>
    dsimp only
    obtain hbreaks | hreported := breaks_or_isReported hg
    · cases hbreaks <;> rfl
    · rw [Fault.asRefused_of_isReported hreported, if_pos hreported]

end Catalog

/-- Within any limits, a conversion breaks off exactly for a bad step, for a moment outside the calendar
and for a number with more digits than can be written; otherwise it returns files for all its targets
or a fault. A conversion of rows returns the fault of a dialect that is unknown and of rows that make
up no schema, unless their parentheses nest too deeply, and else comes to what the conversion of their
schema does, but returns a bad step and a number with too many digits as well. -/
theorem results_returned (l : Limits) (spellings : Option (List String)) (o : Options) :
    (∀ s,
      (∀ f, told (ofSchema s spellings o l) = .error f ↔ Breaks l s spellings o f) ∧
        ∀ files, told (ofSchema s spellings o l) = .ok (.ok files) →
          targets (spellings.getD ({} : GenerationSettings).targets) = .ok (files.map (·.1))) ∧
    ∀ dialect tables keys,
      (∀ f, Dialect.named dialect = .error f →
        told (ofCatalog dialect tables keys spellings o l) = .ok (.error (.refused f))) ∧
      ∀ d, Dialect.named dialect = .ok d →
        (∀ f, (Catalog.toSchema d tables keys l).outcome = .error f →
          told (ofCatalog dialect tables keys spellings o l) =
            if f = .nestedTooDeeply then .error f else .ok (.error f.asRefused)) ∧
        ∀ s, (Catalog.toSchema d tables keys l).outcome = .ok s →
          (∀ f, Breaks l s spellings o f → told (ofCatalog dialect tables keys spellings o l) =
            if f.isRequest then .ok (.error (.refused f)) else .error f) ∧
          ((∀ f, ¬Breaks l s spellings o f) →
            told (ofCatalog dialect tables keys spellings o l) =
              told (ofSchema s spellings o l)) := by
  refine ⟨fun s => ⟨fun f => told_ofSchema_eq_error, fun files => targets_of_told⟩, ?_⟩
  intro dialect tables keys
  refine ⟨fun f => told_ofCatalog_of_unnamed, fun d hd => ⟨fun f => told_ofCatalog_of_error hd, ?_⟩⟩
  refine fun s hs => ⟨fun f hbreaks => ?_, fun hgood => ?_⟩
  · rw [told_ofCatalog_of_ok hd hs, told_ofSchema_eq_error.2 hbreaks]
  · rw [told_ofCatalog_of_ok hd hs]
    split
    · next h => exact absurd (told_ofSchema_eq_error.1 h) (hgood _)
    · rfl

end Conversion

end Schemata
