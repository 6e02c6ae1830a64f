import Mathlib.Algebra.Order.BigOperators.Group.List
import Mathlib.Algebra.Order.Group.Nat
import Mathlib.Data.List.Forall2
import Mathlib.Data.List.Nodup
import Mathlib.Data.Set.Function
import Schemata.Schema.Basic

/-!
# Schemas with other ids

Ids tell tables and fields apart and carry no meaning of their own. A `Renaming` gives every text a new
id, different ones to different texts, and a schema keeps its form under it. It is enough to know the
new ids of the ids that a schema has: such a choice is part of a renaming of all texts
(`Schema.IsRenamed.exists_rename`).
-/

namespace Schemata

/-- New ids of all texts, different ones for different tables and for different fields. -/
structure Renaming where
  table : String → String
  field : String → String
  reference : String → String
  table_injective : Function.Injective table
  field_injective : Function.Injective field

/-! ## Renamed parts -/

section Parts

variable (ρ : Renaming)

def Field.rename (f : Field) : Field := { f with id := ρ.field f.id }

def Table.rename (t : Table) : Table :=
  { t with
    id := ρ.table t.id
    fields := t.fields.map (Field.rename ρ)
    nodup_fields := by
      have hids : (t.fields.map (Field.rename ρ)).map Field.id =
          (t.fields.map Field.id).map ρ.field := by
        rw [List.map_map, List.map_map]
        rfl
      rw [hids]
      exact t.nodup_fields.map ρ.field_injective }

def Reference.rename (r : Reference) : Reference :=
  { r with
    id := ρ.reference r.id
    sourceTable := ρ.table r.sourceTable
    sourceField := ρ.field r.sourceField
    targetTable := ρ.table r.targetTable
    targetField := ρ.field r.targetField }

def Schema.rename (s : Schema) : Schema :=
  { s with
    tables := s.tables.map (Table.rename ρ)
    references := s.references.map (Reference.rename ρ)
    nodup_tables := by
      have hids : (s.tables.map (Table.rename ρ)).map Table.id =
          (s.tables.map Table.id).map ρ.table := by
        rw [List.map_map, List.map_map]
        rfl
      rw [hids]
      exact s.nodup_tables.map ρ.table_injective }

end Parts

/-! ## What is found in them -/

section Lookups

variable {ρ : Renaming}

theorem Schema.tableById?_rename (s : Schema) (id : String) :
    (s.rename ρ).tableById? (ρ.table id) = (s.tableById? id).map (Table.rename ρ) := by
  have hsame : ((fun t : Table => decide (t.id = ρ.table id)) ∘ Table.rename ρ) =
      fun t : Table => decide (t.id = id) :=
    funext fun _ => decide_eq_decide.2 ρ.table_injective.eq_iff
  unfold Schema.tableById? Schema.rename
  rw [List.find?_map, hsame]

theorem Table.fieldById?_rename (t : Table) (id : String) :
    (t.rename ρ).fieldById? (ρ.field id) = (t.fieldById? id).map (Field.rename ρ) := by
  have hsame : ((fun f : Field => decide (f.id = ρ.field id)) ∘ Field.rename ρ) =
      fun f : Field => decide (f.id = id) :=
    funext fun _ => decide_eq_decide.2 ρ.field_injective.eq_iff
  unfold Table.fieldById? Table.rename
  rw [List.find?_map, hsame]

theorem Table.fieldByName?_rename (t : Table) (name : String) :
    (t.rename ρ).fieldByName? name = (t.fieldByName? name).map (Field.rename ρ) :=
  List.find?_map

theorem Table.primaryKey_rename (t : Table) :
    (t.rename ρ).primaryKey = t.primaryKey.map (Field.rename ρ) :=
  List.filter_map

end Lookups

/-! ## Renamings of a schema -/

/-- New ids for some texts that differ are part of new ids for all texts that differ. -/
theorem exists_injective_eqOn {ids : List String} {f : String → String}
    (hf : Set.InjOn f {id | id ∈ ids}) :
    ∃ g : String → String, Function.Injective g ∧ Set.EqOn g f {id | id ∈ ids} := by
  -- the other texts go to texts that are longer than the new ids
  let pad := String.ofList (List.replicate ((ids.map fun id => (f id).length).sum + 1) 'x')
  have hshort : ∀ id ∈ ids, ∀ text : String, f id ≠ pad ++ text := by
    intro id hid text heq
    have hle : (f id).length ≤ (ids.map fun id => (f id).length).sum :=
      List.le_sum_of_mem (List.mem_map_of_mem hid)
    have hlength := congrArg String.length heq
    rw [String.length_append] at hlength
    have hpad : pad.length = (ids.map fun id => (f id).length).sum + 1 := by simp [pad]
    omega
  refine ⟨fun id => if id ∈ ids then f id else pad ++ id, ?_, fun id hid => if_pos hid⟩
  intro a b hab
  dsimp only at hab
  by_cases ha : a ∈ ids <;> by_cases hb : b ∈ ids
  · rw [if_pos ha, if_pos hb] at hab
    exact hf ha hb hab
  · rw [if_pos ha, if_neg hb] at hab
    exact absurd hab (hshort a ha b)
  · rw [if_neg ha, if_pos hb] at hab
    exact absurd hab.symm (hshort b hb a)
  · rw [if_neg ha, if_neg hb] at hab
    exact (String.append_right_inj pad).1 hab

/-- The ids of tables that occur in a schema. -/
def Schema.tableIds (s : Schema) : List String :=
  s.tables.map (·.id) ++ s.references.flatMap fun r => [r.sourceTable, r.targetTable]

/-- The ids of fields that occur in a schema. -/
def Schema.fieldIds (s : Schema) : List String :=
  s.tables.flatMap (fun t => t.fields.map (·.id)) ++
    s.references.flatMap fun r => [r.sourceField, r.targetField]

/-- A table and its fields have new ids, and all else is as it was. -/
structure Table.IsRenamed (table field : String → String) (t t' : Table) : Prop where
  id : t'.id = table t.id
  fields : t'.fields = t.fields.map fun f => { f with id := field f.id }
  kept : (t'.name, t'.indexes, t'.comment, t'.color, t'.x, t'.y) =
    (t.name, t.indexes, t.comment, t.color, t.x, t.y)

/-- A schema has new ids, where they are defined and where references name them, and all else is as it
was. Tables with different ids get different ones, and so do fields, those of different tables as
well. -/
structure Schema.IsRenamed (table field reference : String → String) (s s' : Schema) : Prop where
  injOn_table : Set.InjOn table {id | id ∈ s.tableIds}
  injOn_field : Set.InjOn field {id | id ∈ s.fieldIds}
  tables : List.Forall₂ (Table.IsRenamed table field) s.tables s'.tables
  references : s'.references = s.references.map fun r =>
    { r with
      id := reference r.id
      sourceTable := table r.sourceTable
      sourceField := field r.sourceField
      targetTable := table r.targetTable
      targetField := field r.targetField }
  kept : (s'.enums, s'.dialect) = (s.enums, s.dialect)

theorem Schema.isRenamed_rename (ρ : Renaming) (s : Schema) :
    s.IsRenamed ρ.table ρ.field ρ.reference (s.rename ρ) where
  injOn_table := ρ.table_injective.injOn
  injOn_field := ρ.field_injective.injOn
  tables := List.forall₂_map_right_iff.2 (List.forall₂_same.2 fun _ _ => ⟨rfl, rfl, rfl⟩)
  references := rfl
  kept := rfl

theorem Table.IsRenamed.eq_rename {table field : String → String} {t t' : Table}
    (h : t.IsRenamed table field t') {ρ : Renaming} (htable : ρ.table t.id = table t.id)
    (hfield : ∀ f ∈ t.fields, ρ.field f.id = field f.id) : t' = t.rename ρ := by
  obtain ⟨id, name, fields, indexes, comment, color, x, y, hnodup⟩ := t'
  obtain ⟨hid, hfields, hkept⟩ := h
  have hrename : (t.fields.map fun f => { f with id := field f.id }) =
      t.fields.map (Field.rename ρ) := by
    refine List.map_congr_left fun f hf => ?_
    rw [← hfield f hf]
    rfl
  obtain rfl : id = ρ.table t.id := hid.trans htable.symm
  obtain rfl : fields = t.fields.map (Field.rename ρ) := hfields.trans hrename
  cases hkept
  rfl

theorem eq_map_of_forall₂ {α β : Type} {R : α → β → Prop} {f : α → β} {l : List α} {l' : List β}
    (h : List.Forall₂ R l l') (hf : ∀ a ∈ l, ∀ b, R a b → b = f a) : l' = l.map f := by
  induction h with
  | nil => rfl
  | cons hab _ ih =>
    rw [List.map_cons, ← hf _ List.mem_cons_self _ hab,
      ← ih fun a ha => hf a (List.mem_cons_of_mem _ ha)]

/-- A renamed schema is one under a renaming of all texts. -/
theorem Schema.IsRenamed.exists_rename {table field reference : String → String} {s s' : Schema}
    (h : s.IsRenamed table field reference s') :
    ∃ ρ : Renaming, s' = s.rename ρ ∧ (∀ t ∈ s.tables, ρ.table t.id = table t.id) ∧
      ∀ t ∈ s.tables, ∀ f ∈ t.fields, ρ.field f.id = field f.id := by
  obtain ⟨table', htable_inj, htable⟩ := exists_injective_eqOn h.injOn_table
  obtain ⟨field', hfield_inj, hfield⟩ := exists_injective_eqOn h.injOn_field
  let ρ : Renaming := ⟨table', field', reference, htable_inj, hfield_inj⟩
  have htables : ∀ t ∈ s.tables, ρ.table t.id = table t.id := fun t ht =>
    htable (List.mem_append_left _ (List.mem_map_of_mem ht))
  have hfields : ∀ t ∈ s.tables, ∀ f ∈ t.fields, ρ.field f.id = field f.id := fun t ht f hf =>
    hfield (List.mem_append_left _ (List.mem_flatMap.2 ⟨t, ht, List.mem_map_of_mem hf⟩))
  have hreferences : s'.references = s.references.map (Reference.rename ρ) := by
    rw [h.references]
    refine List.map_congr_left fun r hr => ?_
    have hends : ∀ id ∈ [r.sourceTable, r.targetTable], table id = ρ.table id := fun id hid =>
      (htable (List.mem_append_right _ (List.mem_flatMap.2 ⟨r, hr, hid⟩))).symm
    have hends' : ∀ id ∈ [r.sourceField, r.targetField], field id = ρ.field id := fun id hid =>
      (hfield (List.mem_append_right _ (List.mem_flatMap.2 ⟨r, hr, hid⟩))).symm
    rw [hends r.sourceTable (by simp), hends r.targetTable (by simp), hends' r.sourceField (by simp),
      hends' r.targetField (by simp)]
    rfl
  refine ⟨ρ, ?_, htables, hfields⟩
  obtain ⟨tables', references', enums', dialect', hnodup⟩ := s'
  obtain rfl : tables' = s.tables.map (Table.rename ρ) :=
    eq_map_of_forall₂ h.tables fun t ht _ hrenamed =>
      hrenamed.eq_rename (htables t ht) (hfields t ht)
  obtain rfl : references' = s.references.map (Reference.rename ρ) := hreferences
  cases h.kept
  rfl

end Schemata
