import Mathlib.Tactic.Common
import Schemata.Column.Rendered

/-!
# What rendering a type loses

A type is rendered with a warning for each thing that a dialect has no room for: a kind without a
construct, a length or a number of digits beyond a limit, a missing sign. `Rendered.losses` says which,
from the type and the dialect alone, and `subjects_ofType` that these are the warnings, each one with the
place that the type belongs to.
-/

namespace Schemata

/-- What tells a warning about a column from another one: its code, its table and its field. -/
abbrev Subject := String × Option String × Option String

def Finding.subject (f : Finding) : Subject := (f.code, f.table, f.field)

namespace Rendered

/-- The codes of the warnings about types. -/
def lossCodes : List String := ["type.fidelity_lost", "type.clamped", "type.unsigned_dropped"]

/-- Whether the size of a type, or its digits, are cut down. Digits are also cut down when there are
more behind the point than in all. -/
def clamps (d : Dialect) (t : ColumnType) : Bool :=
  match t.kind with
  | .varchar => (lengthLimit? d).any fun limit => t.size.any (limit < ·)
  | .decimal => (decimalLimit? d).any fun limit => t.precision.any fun precision =>
      limit.1 < precision || limit.2 < t.scale.getD 0 || precision < t.scale.getD 0
  | _ => false

/-- Whether a dialect has whole numbers with a sign only. -/
def dropsUnsigned : Dialect → Bool
  | .postgres | .sqlite | .mssql => true
  | .mysql | .laravel | .dbml => false

/-- The codes of what is lost of a type, in the order in which it is noted. A type that is rendered as
another one loses nothing else. -/
def losses (d : Dialect) (t : ColumnType) : List String :=
  if Construct.of d t.kind = none then ["type.fidelity_lost"]
  else (if clamps d t then ["type.clamped"] else []) ++
    if t.unsigned && dropsUnsigned d then ["type.unsigned_dropped"] else []

/-- What is told of a place under some codes. -/
def Place.subjects (place : Place) (codes : List String) : List Subject :=
  codes.map (·, place.table, place.field)

theorem losses_subset (d : Dialect) (t : ColumnType) : losses d t ⊆ lossCodes := by
  unfold losses lossCodes
  split_ifs <;> simp

/-- No loss is noted twice of a type. -/
theorem nodup_losses (d : Dialect) (t : ColumnType) : (losses d t).Nodup := by
  unfold losses
  split_ifs <;> simp

/-- SQLite has no limits, so only labels and missing signs are lost. -/
theorem losses_sqlite_eq_nil_iff (t : ColumnType) :
    losses .sqlite t = [] ↔ t.kind.isListed = false ∧ t.unsigned = false := by
  have hconstruct : Construct.of .sqlite t.kind = none ↔ t.kind.isListed = true := by
    cases t.kind <;> decide
  have hclamps : clamps .sqlite t = false := by
    unfold clamps
    split <;> rfl
  unfold losses
  rw [hclamps, if_neg Bool.false_ne_true, List.nil_append]
  by_cases hlisted : t.kind.isListed = true
  · rw [if_pos (hconstruct.2 hlisted)]
    simp [hlisted]
  · rw [if_neg (hconstruct.not.2 hlisted)]
    simp [hlisted, dropsUnsigned]

section Subjects

variable (d : Dialect) (t : ColumnType) (place : Place)

theorem subjects_sizeParameters (h : t.kind.isSized = true) :
    (sizeParameters d t place).findings.map Finding.subject =
      place.subjects (if clamps d t then ["type.clamped"] else []) := by
  unfold sizeParameters clamps
  split
  · next hd =>
    rw [hd]
    cases t.kind <;> rfl
  split
  · next hkind =>
    rw [hkind]
    cases t.size with
    | none => cases lengthLimit? d <;> (dsimp only; split <;> rfl)
    | some n =>
      cases lengthLimit? d with
      | none => dsimp only; split <;> rfl
      | some limit =>
        by_cases hlimit : limit < n
        · simp only [hlimit, if_true, Option.any_some, decide_true]
          split <;> rfl
        · simp only [hlimit, if_false, Option.any_some, decide_false]
          split <;> rfl
  · next hkind =>
    cases hk : t.kind <;> first | rfl | (rw [hk] at h hkind; contradiction)

/-- Digits are cut down exactly when there is no room for them. -/
theorem digits_ne_iff (precision scale maxPrecision maxScale : Int) :
    (min precision maxPrecision, min (min scale maxScale) (min precision maxPrecision)) ≠
        (precision, scale) ↔
      maxPrecision < precision ∨ maxScale < scale ∨ precision < scale := by
  rw [ne_eq, Prod.mk.injEq]
  omega

theorem subjects_decimalParameters (h : t.kind = .decimal) :
    (decimalParameters d t place).findings.map Finding.subject =
      place.subjects (if clamps d t then ["type.clamped"] else []) := by
  unfold decimalParameters clamps
  rw [h]
  cases t.precision with
  | none => cases decimalLimit? d <;> rfl
  | some precision =>
    cases decimalLimit? d with
    | none => dsimp only; split <;> rfl
    | some limits =>
      obtain ⟨maxPrecision, maxScale⟩ := limits
      simp only [Option.any_some, Bool.or_eq_true, decide_eq_true_eq, or_assoc,
        ← digits_ne_iff precision (t.scale.getD 0)]
      unfold Noted.noteIf
      split
      · split <;> rfl
      · split <;> rfl

theorem subjects_withUnsigned (r : Rendered) :
    (withUnsigned d t r place).findings.map Finding.subject =
      place.subjects (if dropsUnsigned d then ["type.unsigned_dropped"] else []) := by
  cases d with
  | laravel =>
    unfold withUnsigned
    dsimp only
    split <;> rfl
  | mysql | postgres | sqlite | mssql | dbml => rfl

theorem subjects_ownParameters {c : Construct} (hc : Construct.of d t.kind = some c) :
    (ownParameters d t c place).findings.map Finding.subject =
      place.subjects (if clamps d t then ["type.clamped"] else []) := by
  unfold ownParameters
  split
  · next h => exact subjects_sizeParameters d t place h.1
  split
  · next h => exact subjects_decimalParameters d t place h
  · next hsized hdecimal =>
    -- nothing else is cut down: a text of varying length has no fixed parameters
    have hclamps : clamps d t = false := by
      unfold clamps
      split
      · next hk =>
        refine absurd ⟨by rw [hk]; rfl, ?_⟩ hsized
        rw [hk] at hc
        cases d <;> cases hc <;> rfl
      · next hk => exact absurd hk hdecimal
      · rfl
    rw [hclamps]
    split <;> rfl

/-- What a type is rendered as when there is no construct for it loses nothing. -/
theorem clamps_fallback : clamps d (Construct.fallback d) = false := by
  cases d <;> decide +kernel

theorem unsigned_fallback : (Construct.fallback d).unsigned = false := by
  cases d <;> rfl

/-- The warnings about a type are those about its losses. -/
theorem subjects_ofType : (ofType d t place).findings.map Finding.subject =
    place.subjects (losses d t) := by
  unfold ofType losses choose
  cases hc : Construct.of d t.kind with
  | none =>
    have hown := subjects_ownParameters d (Construct.fallback d) place (Construct.of_fallback d)
    rw [clamps_fallback] at hown
    simp only [if_true, Noted.findings_bind, Noted.value_bind, Noted.value_pure, List.map_append,
      unsigned_fallback, hown]
    rfl
  | some c =>
    have hown := subjects_ownParameters d t place hc
    simp only [reduceCtorEq, if_false, Noted.findings_bind, Noted.findings_pure, Noted.value_pure,
      List.nil_append, List.map_append, hown, Place.subjects, List.map_append]
    congr 1
    cases t.unsigned with
    | false => rfl
    | true => exact subjects_withUnsigned d t place _

end Subjects

end Rendered

end Schemata
