import Schemata.Proofs.Code.Sql.Script
import Schemata.Proofs.Plan.Names

/-!
# Whole numbers at both ends of a key

A key and the column it points to are compared once, by the kinds that they are stored as and whether
they are unsigned; what they become is up to the words of each target. `form?_ofType` shows that a
counting kind becomes what its storage kind does, and that only Laravel makes it unsigned; what makes
a column count up in a database does not change what it stores. So the columns at both ends of an
edge without a mismatch store whole numbers alike in every database, and in Laravel unless just one
of them counts (`ends_stored_alike`).
-/

namespace Schemata

/-- How whole numbers are stored: in how many bits, and whether they can be negative. -/
structure IntegerForm where
  bits : Nat
  signed : Bool
  deriving DecidableEq

def IntegerForm.unsigned (x : IntegerForm) : IntegerForm := { x with signed := false }

namespace Code

/-! ## What the targets store -/

/-- What a type word of a database stores, without modifiers. -/
def Engine.wordForm? : Engine → String → Option IntegerForm
  | .mysql, "BOOLEAN" | .mysql, "TINYINT" => some ⟨8, true⟩
  | .mysql, "SMALLINT" => some ⟨16, true⟩
  | .mysql, "INT" => some ⟨32, true⟩
  | .mysql, "BIGINT" => some ⟨64, true⟩
  | .postgres, "BOOLEAN" => some ⟨1, false⟩
  | .postgres, "SMALLINT" => some ⟨16, true⟩
  | .postgres, "INTEGER" | .postgres, "SERIAL" => some ⟨32, true⟩
  | .postgres, "BIGINT" | .postgres, "BIGSERIAL" => some ⟨64, true⟩
  | .sqlite, "INTEGER" => some ⟨64, true⟩
  | .mssql, "BIT" => some ⟨1, false⟩
  | .mssql, "TINYINT" => some ⟨8, false⟩
  | .mssql, "SMALLINT" => some ⟨16, true⟩
  | .mssql, "INT" => some ⟨32, true⟩
  | .mssql, "BIGINT" => some ⟨64, true⟩
  | _, _ => none

/-- What a method of the migration builder of Laravel makes a column store. -/
def methodForm? : String → Option IntegerForm
  | "boolean" | "tinyInteger" => some ⟨8, true⟩
  | "smallInteger" => some ⟨16, true⟩
  | "integer" => some ⟨32, true⟩
  | "bigInteger" => some ⟨64, true⟩
  | "unsignedTinyInteger" => some ⟨8, false⟩
  | "unsignedSmallInteger" => some ⟨16, false⟩
  | "unsignedInteger" | "increments" => some ⟨32, false⟩
  | "unsignedBigInteger" | "bigIncrements" => some ⟨64, false⟩
  | _ => none

/-- What a rendered type stores. -/
def Target.form? (target : Target) (r : Rendered) : Option IntegerForm :=
  match target with
  | .sql e => (e.wordForm? r.word).map fun x => if "UNSIGNED" ∈ r.modifiers then x.unsigned else x
  | .laravel =>
    (methodForm? r.word).map fun x => if "unsigned()" ∈ r.modifiers then x.unsigned else x

/-- What a line of a migration makes a column store. -/
def Migration.Line.form? : Line → Option IntegerForm
  | .id _ => some ⟨64, false⟩
  | .column method _ _ links =>
    (methodForm? method).map fun x => if .modifier "unsigned()" ∈ links then x.unsigned else x
  | _ => none

/-- What the column stores that a table is created with for its field at some place. -/
def createdForm? (target : Target) (o : Options) (t : Task) (place : Nat) : Option IntegerForm :=
  match target with
  | .sql e =>
    let columns := ((Sql.script e o t).filterMap Sql.Statement.made?).flatMap fun m =>
      m.2.filterMap Sql.Clause.column?
    columns[place]?.bind fun c => (Target.sql e).form? c.type
  | .laravel => (Migration.createLines o t.table).value[place]?.bind Migration.Line.form?

/-! ## Types -/

/-- A counting kind is stored in the bits of its storage kind, and with its sign except in Laravel,
where it is unsigned. -/
theorem form?_ofType (target : Target) {t : ColumnType} (h : t.family = .integer)
    (place : Rendered.Place) :
    ∃ x, target.form? (Rendered.ofType target.dialect (.plain t.kind.storage t.unsigned)).value =
        some x ∧
      target.form? (Rendered.ofType target.dialect t place).value =
        some (if target = .laravel ∧ t.kind.isSerial then x.unsigned else x) ∧
      (target = .laravel → x.signed = !t.unsigned) := by
  obtain ⟨kind, size, precision, scale, values, enumName, unsigned, hs, hp, hv⟩ := t
  obtain e | - := target
  · cases kind <;> cases h <;> cases unsigned <;> cases e <;> refine ⟨_, rfl, rfl, nofun⟩
  · cases kind <;> cases h <;> cases unsigned <;> exact ⟨_, rfl, rfl, fun _ => rfl⟩

/-! ## Columns -/

/-- Taking the words that make a type count up out of it does not change what it stores. -/
theorem form?_withoutIncrement (e : Engine) (r : Rendered) :
    (Target.sql e).form? (Sql.withoutIncrement r) = (Target.sql e).form? r := by
  simp [Target.form?, Sql.withoutIncrement]

/-- The line of a column stores what its type does, also when it is the numbered key. -/
theorem form?_columnLine (o : Options) (f : Field) (r : Rendered) (soleKey : Bool) :
    (Migration.columnLine o f r soleKey).form? = Target.laravel.form? r := by
  have hlink : Migration.Link.modifier "unsigned()" ∈ Migration.columnLinks o f r soleKey ↔
      "unsigned()" ∈ r.modifiers := by
    have hdefault : ∀ v, Migration.defaultLink v ≠ .modifier "unsigned()" := by
      intro v
      unfold Migration.defaultLink
      split
      · split <;> nofun
      · nofun
    simp [Migration.columnLinks, hdefault]
  unfold Migration.columnLine
  dsimp only
  split
  · next h =>
    simp only [Bool.and_eq_true, decide_eq_true_eq] at h
    rw [Target.form?, h.2]
    simp [Migration.Line.form?, methodForm?, IntegerForm.unsigned]
  · simp only [Migration.Line.form?, Target.form?, hlink]

theorem typedColumns_getElem? (e : Engine) (o : Options) {t : Table} {i : Nat} {f : Field}
    (h : t.fields[i]? = some f) : (Sql.typedColumns e o t).value[i]? =
      some (f, (Rendered.ofType e.dialect f.type ⟨some t.name, some f.name⟩).value) := by
  unfold Sql.typedColumns
  simp only [Noted.value_bind, Noted.value_pure, Noted.value_mapM]
  rw [List.getElem?_append_left, List.getElem?_map, h]
  · rfl
  · rw [List.length_map]
    exact (List.getElem?_eq_some_iff.1 h).1

/-- A table is created with a column for each of its fields that stores what the type of the field
is rendered as. -/
theorem createdForm?_idxOf (target : Target) (o : Options) {t : Task} (ht : t.phase = .createTable)
    {f : Field} (hf : f ∈ t.table.fields) :
    createdForm? target o t (t.table.fields.idxOf f) = target.form?
      (Rendered.ofType target.dialect f.type ⟨some t.table.name, some f.name⟩).value := by
  have hplace : t.table.fields[t.table.fields.idxOf f]? = some f := by
    rw [List.getElem?_eq_getElem (List.idxOf_lt_length_of_mem hf), List.getElem_idxOf]
  unfold createdForm?
  cases target with
  | sql e =>
    dsimp only
    rw [Sql.made_script e o ht, List.flatMap_singleton, Sql.columns_clauses, List.getElem?_map,
      typedColumns_getElem? e o hplace]
    exact form?_withoutIncrement e _
  | laravel =>
    dsimp only
    unfold Migration.createLines
    simp only [Noted.value_bind, Noted.value_pure, Noted.value_mapM, List.append_assoc]
    rw [List.getElem?_append_left, List.getElem?_map, hplace]
    · exact form?_columnLine ..
    · rw [List.length_map]
      exact List.idxOf_lt_length_of_mem hf

/-! ## Keys -/

/-- The columns at both ends of an edge for which no mismatch of types is noted are created with as
many bits for their whole numbers, whatever the target. Both are signed or both are not, except in
Laravel, where a counting column is unsigned: there this needs both to count, or neither, or both to
be unsigned anyway. -/
theorem ends_stored_alike {s : Schema} {edges : List Edge} (h : s.resolve.outcome = .ok edges)
    {e : Edge} (he : e ∈ edges) (hinteger : e.ownerField.type.family = .integer)
    (hmatch : e.typeMismatch ∉ e.checkTypes.findings) (target : Target) (o : Options) {a b : Task}
    (ha : a.phase = .createTable) (hb : b.phase = .createTable) (howner : a.table = e.owner)
    (htarget : b.table = e.target) :
    e.checkTypes.findings ⊆ s.resolve.findings ∧
    ∃ x y, createdForm? target o a (e.owner.fields.idxOf e.ownerField) = some x ∧
      createdForm? target o b (e.target.fields.idxOf e.targetField) = some y ∧
      x.bits = y.bits ∧
      (x.signed = y.signed ↔ target ≠ .laravel ∨ e.ownerField.type.unsigned = true ∨
        e.ownerField.type.kind.isSerial = e.targetField.type.kind.isSerial) := by
  have hfits := Schema.fits_of_resolve h
  have hfamily := hfits.families e he
  have hshape := Edge.shape_eq_of_notMem hfamily hmatch
  obtain ⟨hf, hg⟩ := hfits.fields_mem e he
  simp only [Edge.shape, Prod.mk.injEq] at hshape
  obtain ⟨hstorage, -, -, -, hunsigned⟩ := hshape
  obtain ⟨x, hx, hxt, hxs⟩ := form?_ofType target hinteger
    ⟨some e.owner.name, some e.ownerField.name⟩
  obtain ⟨y, hy, hyt, -⟩ := form?_ofType target (hfamily.symm.trans hinteger)
    ⟨some e.target.name, some e.targetField.name⟩
  rw [← hstorage, ← hunsigned, hx, Option.some.injEq] at hy
  subst hy
  rw [← howner] at hf hxt ⊢
  rw [← htarget] at hg hyt ⊢
  refine ⟨Schema.findings_checkTypes_subset h he, _, _, (createdForm?_idxOf target o ha hf).trans hxt,
    (createdForm?_idxOf target o hb hg).trans hyt, ?_, ?_⟩
  · split <;> split <;> rfl
  · cases target with
    | sql engine => simp
    | laravel =>
      have hsigned := hxs rfl
      cases e.ownerField.type.kind.isSerial <;> cases e.targetField.type.kind.isSerial <;>
        simp [IntegerForm.unsigned, hsigned]

def counter : Field := { Plan.keyField with type := .plain .serial }

/-- A whole number that points to a key that counts. -/
def countedEdge : Edge where
  reference := ⟨"r", "p", "c", "u", "k", .manyToOne, .restrict, .restrict, none⟩
  owner := { id := "p", name := "posts", fields := [Plan.column "c" "user_id"] }
  ownerField := Plan.column "c" "user_id"
  target := { id := "u", name := "users", fields := [counter] }
  targetField := counter

def counted : Schema where
  tables := [countedEdge.target, countedEdge.owner]
  references := [countedEdge.reference]
  nodup_tables := by decide

/-- No mismatch is noted of the whole number and the key that counts, and they are stored alike in
every target but Laravel. -/
theorem ends_stored_alike_counted : counted.resolve.outcome = .ok [countedEdge] ∧
    countedEdge.typeMismatch ∉ countedEdge.checkTypes.findings ∧ ∀ (target : Target) (s : Stamp),
      ∃ x y, createdForm? target {} ⟨.createTable, countedEdge.owner, [], s⟩ 0 = some x ∧
        createdForm? target {} ⟨.createTable, countedEdge.target, [], s⟩ 0 = some y ∧
        x.bits = y.bits ∧ (x.signed = y.signed ↔ target ≠ .laravel) := by
  have hfits : counted.Fits (Plan.edgesOf counted) := by
    constructor <;> decide +kernel
  have hedges := Plan.resolve_edgesOf hfits (Graph.cycle?_eq_none_of_sinks (by decide +kernel))
  rw [show Plan.edgesOf counted = [countedEdge] by decide +kernel] at hedges
  have hmatch : countedEdge.typeMismatch ∉ countedEdge.checkTypes.findings := by decide +kernel
  refine ⟨hedges, hmatch, fun target s => ?_⟩
  obtain ⟨-, x, y, hx, hy, hbits, hsigned⟩ := ends_stored_alike hedges List.mem_cons_self rfl
    hmatch target {} (a := ⟨.createTable, countedEdge.owner, [], s⟩)
    (b := ⟨.createTable, countedEdge.target, [], s⟩) rfl rfl rfl rfl
  refine ⟨x, y, hx, hy, hbits, hsigned.trans (or_iff_left ?_)⟩
  decide

end Code

end Schemata
