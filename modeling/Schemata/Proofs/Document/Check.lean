import Schemata.Document.Basic
import Schemata.Proofs.Document.Library

/-!
# Documents are accepted

Every library that keeps its promises takes a document from what `Document.toJson` writes for it
(`Document.takes_toJson`), when no length and no number of digits is too small and every index has a
field (`TableDoc.IsSound`). Each member is of the form that its reader takes as it stands. The other way
round, whatever is accepted has no such flaw (`Document.isSound_of_ofJson`).
-/

namespace Schemata

theorem Cardinality.ofName?_name (c : Cardinality) : ofName? c.name = some c := by cases c <;> rfl

theorem Dialect.ofAlias?_name (d : Dialect) : ofAlias? d.name = some d := by cases d <;> rfl

/-- A length and a number of digits are positive, and no number of decimals is negative. -/
structure FieldDoc.IsSound (f : FieldDoc) : Prop where
  size : ∀ n ∈ f.size, 1 ≤ n
  precision : ∀ n ∈ f.precision, 1 ≤ n
  scale : ∀ n ∈ f.scale, 0 ≤ n

structure TableDoc.IsSound (t : TableDoc) : Prop where
  fields : ∀ f ∈ t.fields, f.IsSound
  indexes : ∀ i ∈ t.indexes, i.fields ≠ []

theorem construct_of_takes {α : Type} {check : Check α} {j : Json} {a : α} (h : check.Takes j a) :
    construct check j = .ok a := by
  rw [construct, h []]
  rfl

variable {lib : Validation} (hlib : lib.IsDocumented)
include hlib

/-! ## The parts of a document -/

theorem FieldDoc.takes_toJson {f : FieldDoc} (hf : f.IsSound) (byAlias : Bool) :
    (FieldDoc.check lib).Takes (f.toJson byAlias) f := by
  cases byAlias
  all_goals
    refine hlib.record (a := (f.id, f.name, f.kind, f.size, f.precision, f.scale, f.values,
      f.enumName, f.unsigned, f.primary, f.unique, f.notNull, f.increment, f.default,
      f.isExpression, f.comment)) ?_ _
    exact hlib.both (hlib.member rfl (hlib.string _)) <|
      hlib.both (hlib.member rfl (hlib.string _)) <|
      hlib.both (hlib.member rfl (hlib.named (Kind.ofName?_name _))) <|
      hlib.both (hlib.member rfl (hlib.nullable_bounded hf.size)) <|
      hlib.both (hlib.member rfl (hlib.nullable_bounded hf.precision)) <|
      hlib.both (hlib.member rfl (hlib.nullable_bounded hf.scale)) <|
      hlib.both (hlib.member rfl (hlib.list_strings _)) <|
      hlib.both (hlib.member rfl (hlib.nullable_ofOption _)) <|
      hlib.both (hlib.member rfl (hlib.bool _)) <|
      hlib.both (hlib.member rfl (hlib.bool _)) <|
      hlib.both (hlib.member rfl (hlib.bool _)) <|
      hlib.both (hlib.member rfl (hlib.bool _)) <|
      hlib.both (hlib.member rfl (hlib.bool _)) <|
      hlib.both (hlib.member rfl (hlib.nullable_scalar _)) <|
      hlib.both (hlib.member rfl (hlib.bool _)) <|
      hlib.member rfl (hlib.string _)

theorem FieldDoc.isSound_of_gives {f : FieldDoc} (h : (FieldDoc.check lib).Gives f) :
    f.IsSound := by
  obtain ⟨⟨_, _, _, size, precision, scale, _⟩, hparts, rfl⟩ := hlib.of_record h
  obtain ⟨-, hparts⟩ := hlib.of_both hparts
  obtain ⟨-, hparts⟩ := hlib.of_both hparts
  obtain ⟨-, hparts⟩ := hlib.of_both hparts
  obtain ⟨hsize, hparts⟩ := hlib.of_both hparts
  obtain ⟨hprecision, hparts⟩ := hlib.of_both hparts
  obtain ⟨hscale, -⟩ := hlib.of_both hparts
  exact ⟨hlib.le_of_optional hsize, hlib.le_of_optional hprecision, hlib.le_of_optional hscale⟩

theorem IndexDoc.takes_toJson {i : IndexDoc} (hi : i.fields ≠ []) :
    (IndexDoc.check lib).Takes i.toJson i := by
  refine hlib.record (a := (i.fields, i.unique, i.name)) ?_ _
  exact hlib.both (hlib.member rfl (hlib.nonempty_strings hi)) <|
    hlib.both (hlib.member rfl (hlib.bool _)) <|
    hlib.member rfl (hlib.nullable_ofOption _)

theorem IndexDoc.ne_nil_of_gives {i : IndexDoc} (h : (IndexDoc.check lib).Gives i) :
    i.fields ≠ [] := by
  obtain ⟨⟨fields, _⟩, hparts, rfl⟩ := hlib.of_record h
  obtain ⟨hfields, -⟩ := hlib.of_both hparts
  exact hlib.of_nonempty (hlib.of_required hfields)

theorem TableDoc.takes_toJson {t : TableDoc} (ht : t.IsSound) :
    (TableDoc.check lib).Takes t.toJson t := by
  refine hlib.record (a := (t.id, t.name, t.fields, t.indexes, t.comment, t.color, t.x, t.y)) ?_ _
  exact hlib.both (hlib.member rfl (hlib.string _)) <|
    hlib.both (hlib.member rfl (hlib.string _)) <|
    hlib.both (hlib.member rfl (hlib.list_map fun f hf =>
      FieldDoc.takes_toJson hlib (ht.fields f hf) true)) <|
    hlib.both (hlib.member rfl (hlib.list_map fun i hi =>
      IndexDoc.takes_toJson hlib (ht.indexes i hi))) <|
    hlib.both (hlib.member rfl (hlib.string _)) <|
    hlib.both (hlib.member rfl (hlib.string _)) <|
    hlib.both (hlib.member rfl (hlib.float _)) <|
    hlib.member rfl (hlib.float _)

theorem TableDoc.isSound_of_gives {t : TableDoc} (h : (TableDoc.check lib).Gives t) :
    t.IsSound := by
  obtain ⟨⟨_, _, fields, indexes, _⟩, hparts, rfl⟩ := hlib.of_record h
  obtain ⟨-, hparts⟩ := hlib.of_both hparts
  obtain ⟨-, hparts⟩ := hlib.of_both hparts
  obtain ⟨hfields, hparts⟩ := hlib.of_both hparts
  obtain ⟨hindexes, -⟩ := hlib.of_both hparts
  exact ⟨hlib.forall_mem_of_optional (fun _ => FieldDoc.isSound_of_gives hlib) hfields,
    hlib.forall_mem_of_optional (fun _ => IndexDoc.ne_nil_of_gives hlib) hindexes⟩

namespace Document

theorem takes_referenceJson (r : Reference) (byAlias : Bool) :
    (checkReference lib).Takes (referenceJson r byAlias) r := by
  have haction : ∀ a : Action, (checkAction lib).Takes (.str a.name) a := fun a =>
    hlib.parsed (congrArg Except.ok a.ofText_name)
  cases byAlias
  all_goals
    refine hlib.record (a := (r.id, r.name, r.sourceTable, r.sourceField, r.targetTable,
      r.targetField, r.cardinality, r.onUpdate, r.onDelete)) ?_ _
    exact hlib.both (hlib.member rfl (hlib.string _)) <|
      hlib.both (hlib.member rfl (hlib.nullable_ofOption _)) <|
      hlib.both (hlib.member rfl (hlib.string _)) <|
      hlib.both (hlib.member rfl (hlib.string _)) <|
      hlib.both (hlib.member rfl (hlib.string _)) <|
      hlib.both (hlib.member rfl (hlib.string _)) <|
      hlib.both (hlib.member rfl (hlib.named (Cardinality.ofName?_name _))) <|
      hlib.both (hlib.member rfl (haction _)) <|
      hlib.member rfl (haction _)

theorem takes_enumJson (e : EnumType) : (checkEnum lib).Takes (enumJson e) e := by
  refine hlib.record (a := (e.name, e.values)) ?_ _
  exact hlib.both (hlib.member rfl (hlib.string _)) (hlib.member rfl (hlib.list_strings _))

/-- A document is taken from what is written for it. -/
theorem takes_toJson {d : Document} (hd : ∀ t ∈ d.tables, t.IsSound) :
    (check lib).Takes d.toJson d := by
  have hdialect : lib.dialect.Takes (.str d.database.name) d.database := by
    apply hlib.parsed
    simp only [Dialect.ofAlias?_name]
  refine hlib.record (a := (d.title, d.database, d.tables, d.references, d.enums)) ?_ _
  exact hlib.both (hlib.member rfl (hlib.string _)) <|
    hlib.both (hlib.member rfl hdialect) <|
    hlib.both (hlib.member rfl (hlib.list_map fun t ht => TableDoc.takes_toJson hlib (hd t ht))) <|
    hlib.both (hlib.member rfl (hlib.list_map fun r _ => takes_referenceJson hlib r true)) <|
    hlib.member rfl (hlib.list_map fun e _ => takes_enumJson hlib e)

/-- A document that was accepted has no flaw in its tables. -/
theorem isSound_of_ofJson {j : Json} {d : Document} (h : ofJson j lib = .ok d) :
    ∀ t ∈ d.tables, t.IsSound := by
  cases hcheck : check lib [] j with
  | invalid vs =>
    rw [ofJson, hcheck] at h
    cases h
  | valid d' =>
    rw [ofJson, hcheck] at h
    cases h
    obtain ⟨⟨_, _, tables, _⟩, hparts, rfl⟩ := hlib.of_record ⟨[], j, hcheck⟩
    obtain ⟨-, hparts⟩ := hlib.of_both hparts
    obtain ⟨-, hparts⟩ := hlib.of_both hparts
    obtain ⟨htables, -⟩ := hlib.of_both hparts
    exact hlib.forall_mem_of_optional (fun _ => TableDoc.isSound_of_gives hlib) htables

end Document

end Schemata
