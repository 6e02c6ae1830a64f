import Schemata.Conversion
import Schemata.Proofs.Computation

/-!
# Rows that make up no schema

What keeps rows from making up a schema. A number that cannot be read or written is a malformed request;
a key that names an unknown column, and what does not fit together, is a flaw that conversions report.
So a conversion of rows returns every such fault, the malformed ones as refused, unless too many calls
were nested (`isRowFault_of_toSchema`).
-/

namespace Schemata

theorem Fault.asRefused_of_isReported {f : Fault} (h : f.isReported = true) : f.asRefused = f := by
  unfold isReported at h
  rw [Bool.and_eq_true, Bool.not_eq_true'] at h
  unfold asRefused
  rw [h.1]
  rfl

/-- A number that is not read or written is refused. -/
theorem Fault.isReported_badNumeral (flaw : NumeralFlaw) :
    (badNumeral flaw).asRefused.isReported = true := rfl

theorem Limits.exists_flaw_of_readDigits {l : Limits} {s : List Char} {f : Fault}
    (h : l.readDigits s = .error f) : ∃ flaw, f = .badNumeral flaw := by
  unfold readDigits at h
  dsimp only at h
  split at h
  · cases h
    exact ⟨_, rfl⟩
  · split at h <;> cases h
    exact ⟨_, rfl⟩

theorem RawType.exists_flaw_of_numberArg {t : RawType} {i : Nat} {l : Limits} {f : Fault}
    (h : t.numberArg i l = .error f) : ∃ flaw, f = .badNumeral flaw := by
  unfold numberArg at h
  split at h
  · cases h
  · dsimp only at h
    split at h
    · exact Limits.exists_flaw_of_readDigits (map_eq_error.1 h)
    · cases h

namespace ColumnType

variable {l : Limits} {f : Fault}

theorem exists_flaw_of_ofKind {r : RawType} {k : Kind} (h : ofKind r k l = .error f) :
    ∃ flaw, f = .badNumeral flaw := by
  unfold ofKind at h
  split at h
  · split at h
    · cases h
    · exact RawType.exists_flaw_of_numberArg (map_eq_error.1 h)
  · split at h
    · obtain h | ⟨_, -, h⟩ := bind_eq_error.1 h
      · exact RawType.exists_flaw_of_numberArg h
      · obtain h | ⟨_, -, h⟩ := bind_eq_error.1 h
        · exact RawType.exists_flaw_of_numberArg h
        · cases h
    · split at h <;> cases h

theorem exists_flaw_of_ofRaw {d : Dialect} {raw : String} {c : Context}
    (h : (ofRaw d raw c l).outcome = .error f) : ∃ flaw, f = .badNumeral flaw := by
  unfold ofRaw at h
  dsimp only at h
  split at h
  · cases h
  · split at h
    · cases h
    · split at h
      · obtain h | ⟨_, -, h⟩ := Advised.outcome_bind_eq_error.1 h
        · exact RawType.exists_flaw_of_numberArg h
        · cases h
      · obtain h | ⟨_, -, h⟩ := Advised.outcome_bind_eq_error.1 h
        · unfold Advised.noteIf at h
          split at h <;> cases h
        · exact exists_flaw_of_ofKind h

end ColumnType

namespace Catalog

/-- A fault of rows is reported once a malformed number is refused, unless it is that too many calls are
nested. -/
def IsRowFault (f : Fault) : Prop := f.asRefused.isReported = true ∨ f = .nestedTooDeeply

theorem IsRowFault.of_flaw {f : Fault} (h : ∃ flaw, f = .badNumeral flaw) : IsRowFault f := by
  obtain ⟨flaw, rfl⟩ := h
  exact .inl (Fault.isReported_badNumeral flaw)

theorem IsRowFault.of_isReported {f : Fault} (h : f.isReported = true) : IsRowFault f :=
  .inl (by rwa [Fault.asRefused_of_isReported h])

section Defaults

variable {l : Limits} {t : ColumnType} {f : Fault}

theorem isRowFault_of_typedFault? {s : List Char} (h : Literal.typedFault? l t s = some f) :
    IsRowFault f := by
  unfold Literal.typedFault? at h
  dsimp only at h
  split at h
  · split at h
    · next hread =>
      cases h
      exact .of_flaw (Limits.exists_flaw_of_readDigits hread)
    · cases h
  · cases h

theorem isRowFault_of_textFault? {s : List Char} (h : Literal.textFault? l t s = some f) :
    IsRowFault f := by
  unfold Literal.textFault? at h
  obtain h | ⟨-, h⟩ := Option.or_eq_some_iff.1 h
  · obtain ⟨_, -, rfl⟩ := Option.map_eq_some_iff.1 h
    exact .inr rfl
  · split at h
    · exact isRowFault_of_typedFault? h
    · cases h

theorem isRowFault_of_defaultFault? {row : ColumnRow} (h : defaultFault? l row t = some f) :
    IsRowFault f := by
  unfold defaultFault? at h
  split at h
  · cases h
  · unfold Default.rawFault? at h
    split at h
    · split at h
      · obtain ⟨limit, -, rfl⟩ := Limits.writeFault?_eq_some.1 h
        exact .of_flaw ⟨_, rfl⟩
      · cases h
    · split at h
      · exact isRowFault_of_typedFault? h
      · exact isRowFault_of_textFault? h
    · cases h

end Defaults

variable {d : Dialect} {l : Limits} {f : Fault}

theorem isRowFault_of_buildField {table id : String} {row : ColumnRow}
    (h : (buildField d table id row l).outcome = .error f) : IsRowFault f := by
  unfold buildField at h
  obtain h | ⟨t, -, h⟩ := Advised.outcome_bind_eq_error.1 h
  · exact .of_flaw (ColumnType.exists_flaw_of_ofRaw h)
  dsimp only at h
  obtain h | ⟨_, -, h⟩ := Advised.outcome_bind_eq_error.1 h
  · have hdefault := unlessFault_eq_error.1 h
    split at hdefault
    · cases hdefault
    · exact isRowFault_of_defaultFault? hdefault
  obtain h | ⟨_, -, h⟩ := Advised.outcome_bind_eq_error.1 h
  · have hbuild : Field.build .. = .error f := h
    unfold Field.build at hbuild
    split at hbuild <;> cases hbuild
    exact .of_isReported rfl
  · cases h

theorem isRowFault_of_buildFields {table id : String} {position : Nat} {rows : List ColumnRow}
    (h : (buildFields d table id position rows l).outcome = .error f) : IsRowFault f := by
  induction rows generalizing position with
  | nil => cases h
  | cons row rows ih =>
    rw [buildFields] at h
    obtain h | ⟨_, -, h⟩ := Advised.outcome_bind_eq_error.1 h
    · exact isRowFault_of_buildField h
    · obtain h | ⟨_, -, h⟩ := Advised.outcome_bind_eq_error.1 h
      · exact ih h
      · cases h

theorem isRowFault_of_buildTables {position : Nat} {tables : List (String × List ColumnRow)}
    (h : (buildTables d position tables l).outcome = .error f) : IsRowFault f := by
  induction tables generalizing position with
  | nil => cases h
  | cons t tables ih =>
    rw [buildTables] at h
    obtain h | ⟨_, -, h⟩ := Advised.outcome_bind_eq_error.1 h
    · exact isRowFault_of_buildFields h
    obtain h | ⟨_, -, h⟩ := Advised.outcome_bind_eq_error.1 h
    · have hbuild : Table.build .. = .error f := h
      unfold Table.build at hbuild
      split at hbuild <;> cases hbuild
      exact .of_isReported rfl
    obtain h | ⟨_, -, h⟩ := Advised.outcome_bind_eq_error.1 h
    · exact ih h
    · cases h

theorem isReported_of_buildReferences {tables : List Table} {all rows : List ForeignKeyRow}
    {position : Nat} (h : (buildReferences tables all position rows).outcome = .error f) :
    f.isReported = true := by
  induction rows generalizing position with
  | nil => cases h
  | cons row rows ih =>
    rw [buildReferences] at h
    split at h
    · obtain h | ⟨_, -, h⟩ := Advised.outcome_bind_eq_error.1 h
      · unfold buildReference at h
        split at h
        · obtain h | ⟨_, -, h⟩ := Advised.outcome_bind_eq_error.1 h
          · unfold Advised.noteIf at h
            split at h <;> cases h
          · cases h
        · cases h
          rfl
      · obtain h | ⟨_, -, h⟩ := Advised.outcome_bind_eq_error.1 h
        · exact ih h
        · cases h
    all_goals
      obtain h | ⟨_, -, h⟩ := Advised.outcome_bind_eq_error.1 h
      · cases h
      · exact ih h

theorem isRowFault_of_toSchema {tables : List (String × List ColumnRow)} {keys : List ForeignKeyRow}
    (h : (toSchema d tables keys l).outcome = .error f) : IsRowFault f := by
  unfold toSchema at h
  obtain h | ⟨built, -, h⟩ := Advised.outcome_bind_eq_error.1 h
  · exact isRowFault_of_buildTables h
  obtain h | ⟨references, -, h⟩ := Advised.outcome_bind_eq_error.1 h
  · exact .of_isReported (isReported_of_buildReferences h)
  · have hbuild : Schema.build .. = .error f := h
    unfold Schema.build at hbuild
    split at hbuild <;> cases hbuild
    exact .of_isReported rfl

end Catalog

end Schemata
