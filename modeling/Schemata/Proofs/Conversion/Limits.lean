import Schemata.Proofs.Code.Files
import Schemata.Proofs.Conversion.Generate

/-!
# Numbers that cannot be written

Where the digits of a whole number in a text are limited, a conversion may meet a number with more.
Such a number is shown when the types at the two ends of a reference do not agree (`Schema.Unshown`),
and it is written for the type or the default of a column (`Conversion.Unwritten`). Nothing else keeps
files from being made of a plan (`outcome_files_eq_error`), and all else that keeps a schema from being
resolved is a fault that conversions report (`Schema.isReported_or_unshown`).
-/

namespace Schemata

/-! ## Resolving references -/

theorem Reference.isReported_of_edge {s : Schema} {r : Reference} {f : Fault}
    (h : r.edge s = .error f) : f.isReported = true := by
  have hend : ∀ {t u : String} {f : Fault}, r.endpoint s t u = .error f → f.isReported = true := by
    intro t u f h
    unfold Reference.endpoint at h
    split at h
    · cases h
      rfl
    · split at h <;> cases h
      rfl
  unfold edge at h
  obtain h | ⟨_, -, h⟩ := bind_eq_error.1 h
  · exact hend h
  · obtain h | ⟨_, -, h⟩ := bind_eq_error.1 h
    · exact hend h
    · cases h

theorem Edge.isReported_of_check {e : Edge} {f : Fault} (h : e.check.outcome = .error f) :
    f.isReported = true := by
  unfold check at h
  obtain h | ⟨_, -, h⟩ := Advised.outcome_bind_eq_error.1 h
  · unfold checkTypes at h
    dsimp only at h
    split at h
    · cases h
      rfl
    · unfold Advised.noteIf at h
      split at h <;> cases h
  · cases h

namespace Schema

variable {s : Schema} {l : Limits} {r : Reference}

theorem outcome_resolveReference_of_exceeds {e : Edge} (he : r.edge s = .ok e) {limit : Nat}
    (h : l.Exceeds e.shownNumbers limit) :
    (s.resolveReference r l).outcome = .error (.badNumeral (.unwritable limit)) := by
  have hfault := Limits.writeFault?_eq_some.2 ⟨limit, h, rfl⟩
  exact Advised.outcome_bind_eq_error.2 (.inr ⟨e, he,
    Advised.outcome_bind_eq_error.2 (.inl (unlessFault_eq_error.2 hfault))⟩)

/-- What keeps a reference from being resolved is reported, unless it is a number that is to be shown. -/
theorem isReported_or_exceeds {f : Fault} (h : (s.resolveReference r l).outcome = .error f) :
    f.isReported = true ∨ ∃ e limit, r.edge s = .ok e ∧ l.Exceeds e.shownNumbers limit ∧
      f = .badNumeral (.unwritable limit) := by
  unfold resolveReference at h
  obtain h | ⟨e, he, h⟩ := Advised.outcome_bind_eq_error.1 h
  · exact .inl (Reference.isReported_of_edge h)
  obtain h | ⟨_, -, h⟩ := Advised.outcome_bind_eq_error.1 h
  · obtain ⟨limit, hexceeds, rfl⟩ := Limits.writeFault?_eq_some.1 (unlessFault_eq_error.1 h)
    exact .inr ⟨e, limit, he, hexceeds, rfl⟩
  obtain h | ⟨_, -, h⟩ := Advised.outcome_bind_eq_error.1 h
  · exact .inl (Edge.isReported_of_check h)
  · cases h

/-- What is resolved within limits is resolved without any. -/
theorem outcome_resolveReference_of_within {e : Edge}
    (h : (s.resolveReference r l).outcome = .ok e) : (s.resolveReference r).outcome = .ok e := by
  unfold resolveReference at h
  obtain ⟨e', he, h⟩ := Advised.outcome_bind_eq_ok.1 h
  obtain ⟨_, -, h⟩ := Advised.outcome_bind_eq_ok.1 h
  rw [resolveReference_eq]
  exact Advised.outcome_bind_eq_ok.2 ⟨e', he, h⟩

theorem outcome_resolve_of_within {edges : List Edge} (h : (s.resolve l).outcome = .ok edges) :
    s.resolve.outcome = .ok edges := by
  obtain ⟨edges', hedges, h⟩ := Advised.outcome_bind_eq_ok.1 h
  refine Advised.outcome_bind_eq_ok.2 ⟨edges', ?_, h⟩
  rw [Advised.outcome_mapM_eq_ok_iff] at hedges ⊢
  exact hedges.imp fun _ _ => outcome_resolveReference_of_within

/-- The references are resolved up to one whose ends do not agree, with a number among those to be shown
that has too many digits. -/
def Unshown (s : Schema) (l : Limits) (limit : Nat) : Prop :=
  ∃ before r after e, s.references = before ++ r :: after ∧
    (∀ b ∈ before, ∃ e, (s.resolveReference b l).outcome = .ok e) ∧ r.edge s = .ok e ∧
    l.Exceeds e.shownNumbers limit

theorem Unshown.outcome_resolve {limit : Nat} (h : s.Unshown l limit) :
    (s.resolve l).outcome = .error (.badNumeral (.unwritable limit)) := by
  obtain ⟨before, r, after, e, hreferences, hbefore, he, hexceeds⟩ := h
  exact Advised.outcome_bind_eq_error.2 (.inl (Advised.outcome_mapM_eq_error_iff.2
    ⟨before, r, after, hreferences, hbefore, outcome_resolveReference_of_exceeds he hexceeds⟩))

/-- What keeps a schema from being resolved is reported, unless it is a number that is to be shown. -/
theorem isReported_or_unshown {f : Fault} (h : (s.resolve l).outcome = .error f) :
    f.isReported = true ∨ ∃ limit, s.Unshown l limit ∧ f = .badNumeral (.unwritable limit) := by
  unfold resolve at h
  obtain h | ⟨edges, -, h⟩ := Advised.outcome_bind_eq_error.1 h
  · obtain ⟨before, r, after, hreferences, hbefore, h⟩ := Advised.outcome_mapM_eq_error_iff.1 h
    obtain hreported | ⟨e, limit, he, hexceeds, rfl⟩ := isReported_or_exceeds h
    · exact .inl hreported
    · exact .inr ⟨limit, ⟨before, r, after, e, hreferences, hbefore, he, hexceeds⟩, rfl⟩
  · split at h
    · cases h
      exact .inl rfl
    · cases h

end Schema

/-! ## Writing files -/

namespace Code

variable {l : Limits} {target : Target}

/-- The columns that are written are those of the tables that a plan was made for. -/
theorem mem_columns {tables : List Table} {edges : List Edge} {base : Instant} {step : Int}
    {p : Plan} (h : Plan.order tables edges base step = .ok p) {c : Table × Field} :
    c ∈ columns p ↔ c.1 ∈ tables ∧ c.2 ∈ c.1.fields := by
  unfold columns ascending
  simp only [List.mem_flatMap, List.mem_filter, List.mem_mergeSort, List.mem_map, decide_eq_true_eq]
  constructor
  · rintro ⟨t, ⟨ht, -⟩, f, hf, rfl⟩
    exact ⟨(Plan.task_of_orderBy h ht).1, hf⟩
  · rintro ⟨htable, hf⟩
    obtain ⟨t, ht, hphase, hsame⟩ := Plan.exists_create h htable
    exact ⟨t, ⟨ht, hphase⟩, c.2, hsame ▸ hf, by rw [hsame]⟩

/-- A column is written unless a number of its type or of its default has too many digits. -/
theorem outcome_writeColumn_eq_error {c : Table × Field} {f : Fault} :
    (writeColumn l target c).outcome = .error f ↔
      ∃ limit, l.Exceeds (c.2.type.numbers ++ target.defaultNumbers c.2) limit ∧
        f = .badNumeral (.unwritable limit) := by
  have hright : ∀ {ms ns : List Int} {limit : Nat}, (∃ n ∈ ms, limit < digitCount n) ∨
      (∃ n ∈ ns, limit < digitCount n) ↔ ∃ n ∈ ms ++ ns, limit < digitCount n := by
    simp [List.mem_append, or_and_right, exists_or]
  unfold writeColumn
  rw [Advised.outcome_bind_eq_error]
  constructor
  · rintro (h | ⟨_, -, h⟩)
    · obtain ⟨limit, ⟨hlimit, hlong⟩, hf⟩ :=
        Limits.writeFault?_eq_some.1 (unlessFault_eq_error.1 h)
      exact ⟨limit, ⟨hlimit, hright.1 (.inl hlong)⟩, hf⟩
    · obtain h | ⟨_, -, h⟩ := Advised.outcome_bind_eq_error.1 h
      · cases h
      · obtain ⟨limit, ⟨hlimit, hlong⟩, hf⟩ :=
          Limits.writeFault?_eq_some.1 (unlessFault_eq_error.1 h)
        exact ⟨limit, ⟨hlimit, hright.1 (.inr hlong)⟩, hf⟩
  · rintro ⟨limit, hexceeds, rfl⟩
    cases htype : l.writeFault? c.2.type.numbers with
    | some g =>
      obtain ⟨limit', ⟨hlimit', -⟩, rfl⟩ := Limits.writeFault?_eq_some.1 htype
      obtain rfl : limit' = limit := Option.some.inj (hlimit'.symm.trans hexceeds.1)
      exact .inl rfl
    | none =>
      have hdefault := Limits.writeFault?_eq_some.2 ⟨limit, hexceeds.of_append htype, rfl⟩
      exact .inr ⟨(), rfl, Advised.outcome_bind_eq_error.2
        (.inr ⟨_, rfl, unlessFault_eq_error.2 hdefault⟩)⟩

end Code

namespace Conversion

variable {l : Limits}

/-- A column of a table has a number with too many digits, and it is written for one of the targets. -/
def Unwritten (l : Limits) (s : Schema) (ts : List Code.Target) (limit : Nat) : Prop :=
  ∃ target ∈ ts, ∃ t ∈ s.tables, ∃ f ∈ t.fields,
    l.Exceeds (f.type.numbers ++ target.defaultNumbers f) limit

theorem Unwritten.eq {s s' : Schema} {ts ts' : List Code.Target} {limit limit' : Nat}
    (h : Unwritten l s ts limit) (h' : Unwritten l s' ts' limit') : limit = limit' := by
  obtain ⟨_, -, _, -, _, -, hlimit, -⟩ := h
  obtain ⟨_, -, _, -, _, -, hlimit', -⟩ := h'
  exact Option.some.inj (hlimit.symm.trans hlimit')

variable {s : Schema} {edges : List Edge} {base : Instant} {step : Int} {p : Plan}
  (hp : Plan.order s.tables edges base step = .ok p) {o : Options} {ts : List Code.Target}

include hp

theorem unwritten_of_filesWithin {target : Code.Target} (htarget : target ∈ ts) {f : Fault}
    (h : (filesWithin l p o target).outcome = .error f) :
    ∃ limit, Unwritten l s ts limit ∧ f = .badNumeral (.unwritable limit) := by
  unfold filesWithin at h
  dsimp only at h
  split at h
  · next g hcolumns =>
    cases h
    obtain ⟨c, hc, h⟩ := Advised.exists_of_mapM_eq_error hcolumns
    obtain ⟨htable, hfield⟩ := (Code.mem_columns hp).1 hc
    obtain ⟨limit, hexceeds, rfl⟩ := Code.outcome_writeColumn_eq_error.1 h
    exact ⟨limit, ⟨target, htarget, c.1, htable, c.2, hfield, hexceeds⟩, rfl⟩
  · cases h

/-- Only a number with too many digits keeps the files of a plan from being made. -/
theorem outcome_files_eq_error {f : Fault} :
    (ts.mapM fun t => do return (t, ← filesWithin l p o t) : Advised Files).outcome = .error f ↔
      ∃ limit, Unwritten l s ts limit ∧ f = .badNumeral (.unwritable limit) := by
  have hunwritten : ∀ {g}, (ts.mapM fun t => do return (t, ← filesWithin l p o t) :
      Advised Files).outcome = .error g →
        ∃ limit, Unwritten l s ts limit ∧ g = .badNumeral (.unwritable limit) := by
    intro g h
    obtain ⟨t, ht, h⟩ := Advised.exists_of_mapM_eq_error h
    obtain h | ⟨_, -, h⟩ := Advised.outcome_bind_eq_error.1 h
    · exact unwritten_of_filesWithin hp ht h
    · cases h
  refine ⟨hunwritten, ?_⟩
  rintro ⟨limit, hnumber, rfl⟩
  cases hfiles : (ts.mapM fun t => do return (t, ← filesWithin l p o t) : Advised Files).outcome with
  | error g =>
    obtain ⟨limit', hnumber', rfl⟩ := hunwritten hfiles
    rw [hnumber.eq hnumber']
  | ok files =>
    -- the files of the target were made, so each of its columns was written
    obtain ⟨target, htarget, t, ht, f, hf, hexceeds⟩ := hnumber
    obtain ⟨_, hmade⟩ := Advised.exists_of_mapM_eq_ok hfiles htarget
    obtain ⟨_, hmade, -⟩ := Advised.outcome_bind_eq_ok.1 hmade
    unfold filesWithin at hmade
    dsimp only at hmade
    split at hmade
    · cases hmade
    · next hcolumns =>
      have hmem : (t, f) ∈ Code.columns p := (Code.mem_columns hp).2 ⟨ht, hf⟩
      obtain ⟨_, hwritten⟩ := Advised.exists_of_mapM_eq_ok hcolumns hmem
      have herror : (Code.writeColumn l target (t, f)).outcome = _ :=
        Code.outcome_writeColumn_eq_error.2 ⟨limit, hexceeds, rfl⟩
      rw [hwritten] at herror
      cases herror

end Conversion

end Schemata
