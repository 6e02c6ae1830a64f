import Schemata.Proofs.Computation
import Schemata.Proofs.Code.Sql.Script

/-!
# The primary key of a created table

A table declares its primary key in one of several places: in a clause of its own, at the column, or,
in Laravel, by a method or a link that makes a column count. `declaredKeys` collects what a file that
creates a table declares, each declaration once. In a database that is the primary key of the table
once, or nothing if it has none. In Laravel every column that counts declares itself
(`declaredKeys_columnLine`), also when it is part of a larger key or of none, so there the key is
declared once if and only if no column counts but a sole key (`declaredKeys_eq_iff`).
-/

namespace Schemata

/-- Whether a field counts up, by itself or by its type. -/
def Field.isCounting (f : Field) : Bool := f.autoIncrement || f.type.kind.isSerial

/-- The one declaration that a table with a primary key is due. -/
def Table.keyDeclarations (t : Table) : List (List String) :=
  if t.primaryKey = [] then [] else [t.primaryKey.map (·.name)]

namespace Code

/-! ## What is declared -/

/-- The columns of each primary key that a clause declares. -/
def Sql.Clause.declaredKeys : Clause → List (List String)
  | column c => List.replicate (c.attributes.count .incrementKey) [c.name]
  | primaryKey columns => [columns]
  | _ => []

namespace Migration

/-- Whether a link makes its column the primary key. -/
def Link.declaresKey : Link → Bool
  | primary | autoIncrement => true
  | modifier s => s ∈ ["primary()", "autoIncrement()"]
  | _ => false

/-- The methods of the migration builder that make a column count and the primary key. -/
def incrementMethods : List String := ["increments", "bigIncrements"]

/-- The columns of each primary key that a line declares. -/
def Line.declaredKeys : Line → List (List String)
  | id links => List.replicate (1 + links.countP Link.declaresKey) ["id"]
  | column method name _ links =>
    List.replicate ((if method ∈ incrementMethods then 1 else 0) + links.countP Link.declaresKey)
      [name]
  | primary columns => [columns]
  | _ => []

end Migration

/-- The columns of each primary key that the file for a task declares. -/
def declaredKeys (target : Target) (o : Options) (t : Task) : List (List String) :=
  match target with
  | .sql e => ((Sql.script e o t).filterMap Sql.Statement.made?).flatMap fun m =>
      m.2.flatMap Sql.Clause.declaredKeys
  | .laravel => (Migration.createLines o t.table).value.flatMap Migration.Line.declaredKeys

theorem flatMap_ite_singleton {α β : Type} (p : α → Bool) (g : α → β) (l : List α) :
    l.flatMap (fun a => if p a then [g a] else []) = (l.filter p).map g := by
  induction l with
  | nil => rfl
  | cons a l ih =>
    rw [List.flatMap_cons, ih, List.filter_cons]
    split <;> rfl

/-! ## Databases -/

namespace Sql

variable (e : Engine) (o : Options) (t : Table)

/-- Only SQLite declares the key at a column, and only at a sole key that counts. -/
theorem declaredKeys_columnDef (c : Field × Rendered) :
    (Clause.column (columnDef e o t c)).declaredKeys =
      if isInlineKey e t && c.1.primaryKey then [[c.1.name]] else [] := by
  have hnull : (nullAttributes e c.1).count .incrementKey = 0 := by
    unfold nullAttributes
    split
    · rfl
    · split <;> rfl
  have hdefault : (defaultAttributes e c.1).count .incrementKey = 0 :=
    List.count_eq_zero.2 (by simp [defaultAttributes])
  have hif : ∀ (p : Prop) [Decidable p] (a : Attribute),
      (if p then [a] else []).count .incrementKey = if p ∧ a = .incrementKey then 1 else 0 := by
    intro p _ a
    by_cases hp : p <;> simp [hp, List.count_singleton]
  have hkeys : (attributes e o t c.1).count .incrementKey =
      if isInlineKey e t && c.1.primaryKey then 1 else 0 := by
    cases e <;> simp [attributes, List.count_append, hnull, hdefault, hif, isInlineKey]
  rw [Clause.declaredKeys, columnDef, hkeys]
  split <;> rfl

theorem map_fst_typedColumns : (typedColumns e o t).value.map (·.1) = t.fields ++ o.addedFields t := by
  unfold typedColumns
  simp only [Noted.value_bind, Noted.value_pure, Noted.value_mapM]
  simp [Function.comp_def]

/-- The columns of a table declare its key at the fields of the key, if they do so at all: the columns
that the switches add are no part of it. -/
theorem declaredKeys_columns :
    ((typedColumns e o t).value.map fun c => Clause.column (columnDef e o t c)).flatMap
        Clause.declaredKeys =
      if isInlineKey e t then t.primaryKey.map fun f => [f.name] else [] := by
  have hadded : ∀ f ∈ o.addedFields t, f.primaryKey = false := by
    intro f hf
    obtain ⟨n, -, rfl⟩ := List.mem_map.1 hf
    rfl
  have hown : (t.fields ++ o.addedFields t).filter (·.primaryKey) = t.primaryKey := by
    have hnone : (o.addedFields t).filter (·.primaryKey) = [] :=
      List.filter_eq_nil_iff.2 fun f hf => by simp [hadded f hf]
    rw [List.filter_append, hnone, List.append_nil, Table.primaryKey]
  rw [List.flatMap_map]
  simp only [declaredKeys_columnDef]
  rw [← List.flatMap_map (f := Prod.fst) (g := fun f : Field =>
    if isInlineKey e t && f.primaryKey then [[f.name]] else []), map_fst_typedColumns]
  cases isInlineKey e t with
  | false => simp
  | true => simp only [Bool.true_and, flatMap_ite_singleton, hown, if_true]

/-- The clauses of a table declare its primary key once. -/
theorem declaredKeys_clauses :
    (clauses e o t (typedColumns e o t).value []).flatMap Clause.declaredKeys =
      t.keyDeclarations := by
  have hskip : ∀ {l : List Clause}, (∀ c ∈ l, c.declaredKeys = []) → ∀ r,
      (r ++ l).flatMap Clause.declaredKeys = r.flatMap Clause.declaredKeys := by
    intro l hl r
    rw [List.flatMap_append, List.flatMap_eq_nil_iff.2 hl, List.append_nil]
  unfold clauses
  rw [List.map_nil, List.append_nil]
  refine (hskip ?indexes _).trans ?_
  case indexes =>
    split
    · exact List.forall_mem_map.2 fun _ _ => rfl
    · simp
  rw [List.flatMap_append, declaredKeys_columns, primaryKeyClause, Table.keyDeclarations]
  by_cases hinline : isInlineKey e t = true
  · obtain ⟨f, hf⟩ : ∃ f, t.primaryKey = [f] := by
      simp only [isInlineKey, keyCountsUp, Bool.and_eq_true] at hinline
      obtain ⟨-, hkey⟩ := hinline
      split at hkey
      · next f hf => exact ⟨f, hf⟩
      · cases hkey
    simp [hinline, hf]
  · by_cases hnone : t.primaryKey = [] <;> simp [hinline, hnone, Clause.declaredKeys]

end Sql

/-! ## Laravel -/

namespace Migration

/-- The method for a type counts if and only if the type does, and what is chained to it by the type
declares no key. -/
theorem ofType_counting (t : ColumnType) (place : Rendered.Place) :
    ((Rendered.ofType .laravel t place).value.word ∈ incrementMethods ↔ t.kind.isSerial) ∧
      ∀ s ∈ (Rendered.ofType .laravel t place).value.modifiers, s = "unsigned()" := by
  -- Neither depends on anything of the type but its kind and whether it is unsigned.
  have hplain : ∀ (k : Kind) (u : Bool),
      ((Rendered.ofType .laravel (.plain k u)).value.word ∈ incrementMethods ↔ k.isSerial) ∧
        ∀ s ∈ (Rendered.ofType .laravel (.plain k u)).value.modifiers, s = "unsigned()" := by
    intro k u
    cases k <;> cases u <;> decide
  have hsame : (Rendered.ofType .laravel t place).value.word =
        (Rendered.ofType .laravel (.plain t.kind t.unsigned)).value.word ∧
      (Rendered.ofType .laravel t place).value.modifiers =
        (Rendered.ofType .laravel (.plain t.kind t.unsigned)).value.modifiers := by
    obtain ⟨kind, size, precision, scale, values, enumName, unsigned, hs, hp, hv⟩ := t
    cases kind <;> cases unsigned <;> exact ⟨rfl, rfl⟩
  rw [hsame.1, hsame.2]
  exact hplain t.kind t.unsigned

/-- The links of a column make it the primary key once, if it counts by itself or is the sole key. -/
theorem countP_columnLinks (o : Options) (f : Field) {r : Rendered} (soleKey : Bool)
    (hr : ∀ s ∈ r.modifiers, s = "unsigned()") :
    (columnLinks o f r soleKey).countP Link.declaresKey =
      if !f.type.kind.isSerial && (f.autoIncrement || (f.primaryKey && soleKey)) then 1 else 0 := by
  have hmodifiers : (r.modifiers.map Link.modifier).countP Link.declaresKey = 0 := by
    refine List.countP_eq_zero.2 ?_
    simp only [List.mem_map, forall_exists_index, and_imp, forall_apply_eq_imp_iff₂]
    intro s hs
    rw [hr s hs]
    decide
  have hdefault : ((default? f).map defaultLink).toList.countP Link.declaresKey = 0 := by
    refine List.countP_eq_zero.2 fun l hl => ?_
    simp only [Option.mem_toList, Option.map_eq_some_iff] at hl
    obtain ⟨v, -, rfl⟩ := hl
    unfold defaultLink
    split
    · split <;> exact Bool.false_ne_true
    · exact Bool.false_ne_true
  have hif : ∀ (p : Prop) [Decidable p] (l : Link),
      (if p then [l] else []).countP Link.declaresKey = if p ∧ l.declaresKey then 1 else 0 := by
    intro p _ l
    by_cases hp : p <;> simp [hp, List.countP_cons]
  simp only [columnLinks, List.countP_append, hmodifiers, hdefault, hif]
  cases f.type.kind.isSerial <;> cases f.autoIncrement <;> simp [Link.declaresKey]

/-- The line of a column declares it once if it counts or is the sole key, and not at all otherwise. -/
theorem declaredKeys_columnLine (o : Options) (f : Field) (place : Rendered.Place)
    (soleKey : Bool) :
    (columnLine o f (Rendered.ofType .laravel f.type place).value soleKey).declaredKeys =
      if f.isCounting || (f.primaryKey && soleKey) then [[f.name]] else [] := by
  obtain ⟨hword, hmodifiers⟩ := ofType_counting f.type place
  have hlinks := countP_columnLinks o f soleKey hmodifiers
  unfold columnLine Field.isCounting
  dsimp only
  split
  · next h =>
    simp only [Bool.and_eq_true, decide_eq_true_eq] at h
    simp [Line.declaredKeys, hlinks, h.1.1, h.1.2]
  · rw [Line.declaredKeys, hlinks]
    simp only [hword]
    cases f.type.kind.isSerial <;> cases f.autoIncrement <;> simp
    split <;> rfl

/-- Each column that counts or is the sole key declares itself, and then a key of several columns is
declared as a whole. -/
theorem declaredKeys_createLines (o : Options) (t : Table) :
    (createLines o t).value.flatMap Line.declaredKeys =
      ((t.fields.filter fun f => f.isCounting || (f.primaryKey && t.primaryKey.length = 1)).map
        fun f => [f.name]) ++
      if 1 < t.primaryKey.length then [t.primaryKey.map (·.name)] else [] := by
  have hindexes : (if o.indexes then
      t.indexes.map fun i => Line.index i.unique i.fields (i.name.filter (· ≠ ""))
      else []).flatMap Line.declaredKeys = [] := by
    split
    · rw [List.flatMap_map]
      exact List.flatMap_eq_nil_iff.2 fun _ _ => rfl
    · rfl
  have hif : ∀ (p : Prop) [Decidable p] (l : Line),
      (if p then [l] else []).flatMap Line.declaredKeys = if p then l.declaredKeys else [] := by
    intro p _ l
    split <;> simp
  unfold createLines
  simp only [Noted.value_bind, Noted.value_pure, Noted.value_mapM, List.flatMap_append, hindexes, hif,
    List.flatMap_map, List.length_map, declaredKeys_columnLine]
  simp only [flatMap_ite_singleton, Line.declaredKeys, ite_self, List.append_nil]

end Migration

/-! ## Once or not -/

/-- The declarations of a migration are the one that is due if and only if no column counts but one that
is the whole key: any other one that counts is declared besides the key. -/
theorem builder_declarations_eq_iff (t : Table) :
    ((t.fields.filter fun f => f.isCounting || (f.primaryKey && t.primaryKey.length = 1)).map
        fun f => [f.name]) ++
      (if 1 < t.primaryKey.length then [t.primaryKey.map (·.name)] else []) = t.keyDeclarations ↔
    ∀ f ∈ t.fields, f.isCounting → t.primaryKey = [f] := by
  have hmem : ∀ f, f ∈ t.primaryKey ↔ f ∈ t.fields ∧ f.primaryKey = true := fun f => List.mem_filter
  rcases hkey : t.primaryKey with _ | ⟨k, _ | ⟨l, rest⟩⟩
  · simp [Table.keyDeclarations, hkey]
  · simp only [Table.keyDeclarations, hkey, List.length_singleton, decide_true, Bool.and_true,
      Nat.lt_irrefl, if_false, List.append_nil, reduceCtorEq, List.map_cons, List.map_nil,
      List.cons.injEq, and_true]
    obtain ⟨hk, hkprimary⟩ := (hmem k).1 (by simp [hkey])
    constructor
    · intro h f hf hcounts
      obtain ⟨x, hx⟩ := List.length_eq_one_iff.1 (by simpa using congrArg List.length h)
      have hin : ∀ g ∈ t.fields, (g.isCounting || g.primaryKey) = true → g = x := by
        intro g hg hdeclared
        have : g ∈ t.fields.filter fun f => f.isCounting || f.primaryKey :=
          List.mem_filter.2 ⟨hg, hdeclared⟩
        rw [hx] at this
        exact List.mem_singleton.1 this
      rw [hin k hk (by simp [hkprimary]), hin f hf (by simp [hcounts])]
    · intro h
      have hsame : t.fields.filter (fun f => f.isCounting || f.primaryKey) = t.primaryKey := by
        refine List.filter_congr fun f hf => ?_
        cases hcounts : f.isCounting with
        | false => rfl
        | true => rw [← h f hf hcounts, hkprimary, Bool.or_true]
      rw [hsame, hkey]
      rfl
  · simp [Table.keyDeclarations, hkey]

/-- The file that creates a table declares the primary key of the table once, and none if it has none,
if and only if the target is a database or no column counts but one that is the whole key. In Laravel
each column that counts declares itself, besides what is declared of the key. -/
theorem declaredKeys_eq_iff (target : Target) (o : Options) (t : Table) (edges : List Edge)
    (stamp : Stamp) :
    (declaredKeys target o ⟨.createTable, t, edges, stamp⟩ = t.keyDeclarations ↔
      target ≠ .laravel ∨ ∀ f ∈ t.fields, f.isCounting → t.primaryKey = [f]) ∧
    declaredKeys .laravel o ⟨.createTable, t, edges, stamp⟩ =
      ((t.fields.filter fun f => f.isCounting || (f.primaryKey && t.primaryKey.length = 1)).map
        fun f => [f.name]) ++
      if 1 < t.primaryKey.length then [t.primaryKey.map (·.name)] else [] := by
  refine ⟨?_, Migration.declaredKeys_createLines o t⟩
  cases target with
  | sql e =>
    refine iff_of_true ?_ (.inl nofun)
    rw [declaredKeys, Sql.made_script e o rfl, List.flatMap_singleton, Sql.declaredKeys_clauses]
  | laravel =>
    rw [declaredKeys, Migration.declaredKeys_createLines, builder_declarations_eq_iff]
    exact ⟨.inr, fun h => h.resolve_left (absurd rfl)⟩

example (stamp : Stamp) :
    declaredKeys .laravel {} ⟨.createTable, {
      id := "t"
      name := "seats"
      fields := [
        { id := "h", name := "hall", type := .plain .serial, primaryKey := true },
        { id := "r", name := "row", type := .plain .integer, primaryKey := true }] }, [], stamp⟩ =
      [["hall"], ["hall", "row"]] := rfl

end Code

end Schemata
