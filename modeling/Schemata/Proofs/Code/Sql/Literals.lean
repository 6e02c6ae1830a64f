import Schemata.Code.Sql.Script
import Schemata.Proofs.Computation
import Schemata.Proofs.Text.Spelled

/-!
# Values in scripts

Defaults, comments and labels stand in a script as literals. The pieces of a script are gone through
here once, from the parameters of a type over columns and tables up to whole scripts: each of them is
code with the literals of its values between (`spelled_create`, `spelled_attach`, `spelled_detach`).
-/

namespace Schemata.Code

open Text

/-! ## Types -/

/-- The labels that a type has in a dialect, none if the dialect does not list values. -/
def labels (d : Dialect) (t : ColumnType) : List String :=
  if (Construct.of d t.kind).isSome then t.values else []

theorem not_isListed {k : Kind} (h : k.isSized = true ∨ k.isSerial = true ∨ k = .decimal) :
    k.isListed ≠ true := by
  cases k <;> revert h <;> decide

theorem values_eq_nil {t : ColumnType} (h : t.kind.isListed ≠ true) : t.values = [] := by
  by_contra hv
  exact h (t.isListed_of_values hv)

section Types

variable (d : Dialect) (t : ColumnType) (place : Rendered.Place)

theorem spelled_ownParameters (c : Construct) :
    AllSpelled (Rendered.labelLiteral d) (Rendered.ownParameters d t c place).value t.values := by
  have hlabels : AllSpelled (Rendered.labelLiteral d) (t.values.map (Rendered.labelLiteral d))
      t.values := by
    have h : AllSpelled (Rendered.labelLiteral d) (t.values.map (Rendered.labelLiteral d))
        (t.values.flatMap fun v => [v]) := .map fun v _ => .of_literal v
    rwa [List.flatMap_singleton'] at h
  have hcode : t.values = [] → ∀ l, AllSpelled (Rendered.labelLiteral d) l t.values := by
    intro h l
    rw [h]
    exact .of_code l
  -- all other kinds of parameters belong to kinds that list no values
  unfold Rendered.ownParameters
  split
  · next h => exact hcode (values_eq_nil (not_isListed (.inl h.1))) _
  · split
    · next h => exact hcode (values_eq_nil (not_isListed (.inr (.inr h)))) _
    · split
      · dsimp only
        split
        · exact .singleton
            (((hlabels.intercalate ", " (by decide) (by decide)).code_append "[").append_code (by decide))
        · exact hlabels
      · next h =>
        refine hcode ?_ _
        by_contra hv
        exact h ⟨t.isListed_of_values hv, hv⟩

theorem parameters_withUnsigned (r : Rendered) :
    (Rendered.withUnsigned d t r place).value.parameters = r.parameters := by
  cases d with
  | laravel => unfold Rendered.withUnsigned; dsimp only; split <;> rfl
  | _ => rfl

theorem spelled_parameters :
    AllSpelled (Rendered.labelLiteral d) (Rendered.ofType d t place).value.parameters
      (labels d t) := by
  have hchosen : (Rendered.choose d t place).value.1.values = labels d t := by
    unfold Rendered.choose labels
    cases h : Construct.of d t.kind with
    | some c => rfl
    | none => cases d <;> rfl
  unfold Rendered.ofType
  rw [Noted.value_bind, ← hchosen]
  generalize (Rendered.choose d t place).value = chosen
  obtain ⟨t', c⟩ := chosen
  rw [Noted.value_bind]
  have hparameters := (AllSpelled.of_code c.fixed).append (spelled_ownParameters d t' place c)
  dsimp only
  by_cases hunsigned : t'.unsigned = true
  · rw [if_pos hunsigned, parameters_withUnsigned]
    exact hparameters
  · rw [if_neg hunsigned]
    exact hparameters

end Types

theorem spelled_sql {write : String → String} {r : Rendered} {vs : List String}
    (h : AllSpelled write r.parameters vs) : Spelled write r.sql vs := by
  have hmodifiers : Unquoted
      (if r.modifiers.isEmpty then "" else " " ++ " ".intercalate r.modifiers).toList := by
    split
    · decide
    · rw [String.toList_append]
      exact unquoted_append (by decide) (by decide) _
  refine Spelled.append_code (.code_append _ ?_) hmodifiers
  split
  · next hnone =>
    rw [List.isEmpty_iff.1 hnone] at h
    cases h
    exact .of_code _
  · exact ((h.intercalate ", " (by decide) (by decide)).code_append "(").append_code (by decide)

/-! ## Statements -/

namespace Sql

/-- The value that an attribute of a column holds as a literal. -/
def Attribute.literal? : Attribute → Option String
  | default (.text s) => some s
  | comment s => some s
  | _ => none

/-- The value that a statement about a comment holds as a literal. -/
def Statement.comment? : Statement → Option String
  | describeTable _ s => some s
  | describeColumn _ _ s => some s
  | _ => none

/-- The literals of a column of some type: its labels, its default and its comment. -/
def columnLiterals (e : Engine) (o : Options) (t : Table) (f : Field) (type : ColumnType) :
    List String :=
  labels e.dialect type ++ (attributes e o t f).filterMap Attribute.literal?

/-- The literals between the brackets of a table. An added column has the type of the field with its
id, if there is one. -/
def tableLiterals (e : Engine) (o : Options) (t : Table) : List String :=
  t.fields.flatMap (fun f => columnLiterals e o t f f.type) ++
    (o.addedFields t).flatMap fun f =>
      columnLiterals e o t f ((t.fields.find? (·.id = f.id)).getD f).type

/-- The literals of the script that creates a table. -/
def createLiterals (e : Engine) (o : Options) (t : Table) : List String :=
  tableLiterals e o t ++ ((storage e o t).bind (·.comment)).toList ++
    (descriptions e o t).filterMap Statement.comment?

/-- The literals of the scripts that change the keys of a table: those of the table, if it is made
anew. -/
def keyLiterals (e : Engine) (o : Options) (t : Table) : List String :=
  if e = .sqlite then tableLiterals e o t else []

section Pieces

variable (e : Engine)

theorem labelLiteral_dialect : Rendered.labelLiteral e.dialect = literal := by cases e <;> rfl

theorem spelled_attribute (a : Attribute) : Spelled literal (a.text e) a.literal?.toList := by
  match a with
  | .default (.text s) => exact ((Spelled.of_literal s).code_append _).code_append _
  | .comment s => exact (Spelled.of_literal s).code_append _
  | .default (.bool _) | .default (.int _) | .default (.decimal _) | .default (.expr _)
  | .increment | .incrementKey | .notNull | .null | .unique => exact .of_code _

theorem spelled_description (s : Statement) (h : s.comment?.isSome) :
    Spelled literal (s.text e) s.comment?.toList := by
  match s with
  | .describeTable _ c | .describeColumn _ _ c =>
    exact ((Spelled.of_literal c).code_append _).append_code (by decide)

theorem spelled_storage (s : Storage) : Spelled literal s.text s.comment.toList := by
  unfold Storage.text
  cases s.comment with
  | none => exact .of_code _
  | some c => exact ((Spelled.of_literal c).code_append _).code_append _

variable {e} {vs ws : List String}

theorem spelled_columnDef {c : ColumnDef} (h : AllSpelled literal c.type.parameters vs) :
    Spelled literal (c.text e) (vs ++ c.attributes.filterMap Attribute.literal?) := by
  have hattributes : AllSpelled literal (c.attributes.map (·.text e))
      (c.attributes.filterMap Attribute.literal?) := by
    rw [List.filterMap_eq_flatMap_toList]
    exact .map fun a _ => spelled_attribute e a
  have htype := (AllSpelled.singleton (spelled_sql h)).append hattributes
  exact ((AllSpelled.of_code [quoted e c.name]).append htype).intercalate " " (by decide) (by decide)

theorem spelled_body {clauses : List Clause} (h : AllSpelled literal (clauses.map (·.text e)) vs)
    (indent : String) : Spelled literal (Statement.body e indent clauses) vs := by
  have hlines := (h.map_code_append indent).intercalate ",\n" (by decide) (by decide)
  rwa [List.map_map] at hlines

theorem spelled_createTable {clauses : List Clause}
    (h : AllSpelled literal (clauses.map (·.text e)) vs) (guarded : Bool) (name : String)
    {storage : Option Storage} (hstorage : e = .mssql → storage = none) :
    Spelled literal (Statement.createTableText e guarded name clauses storage)
      (vs ++ (storage.bind (·.comment)).toList) := by
  have hend : Spelled literal (storage.elim "" (fun s => " " ++ s.text) ++ ";")
      (storage.bind (·.comment)).toList := by
    cases storage with
    | none => exact .of_code _
    | some s => exact ((spelled_storage s).code_append " ").append_code (by decide)
  unfold Statement.createTableText
  split
  · rw [hstorage rfl]
    simpa using ((spelled_body h _).code_append _).append_code (by decide)
  · rw [String.append_assoc, String.append_assoc]
    exact ((spelled_body h _).code_append _).append (hend.code_append _)
      (String.toList_append ▸ unquoted_append (by decide) (by decide) _)

theorem spelled_script {s : Script} (h : AllSpelled literal (s.map (·.text e)) vs) :
    Spelled literal (s.text e) vs := by
  have hlines := h.join_ending "\n" (by decide) (by decide)
  rwa [List.map_map] at hlines

end Pieces

section Scripts

variable (e : Engine) (o : Options)

theorem spelled_column (t : Table) (f : Field) (type : ColumnType) (place : Rendered.Place) :
    Spelled literal ((columnDef e o t (f, (Rendered.ofType e.dialect type place).value)).text e)
      (columnLiterals e o t f type) := by
  refine spelled_columnDef ?_
  have h := spelled_parameters e.dialect type place
  rwa [labelLiteral_dialect] at h

/-- The columns of a table have the types of its fields. An added column has that of the field with
its id, if there is one. -/
theorem value_typedColumns (t : Table) :
    let typeOf (f : Field) := (Rendered.ofType e.dialect f.type ⟨some t.name, some f.name⟩).value
    (typedColumns e o t).value = t.fields.map (fun f => (f, typeOf f)) ++
      (o.addedFields t).map fun f =>
        (f, ((t.fields.find? (·.id = f.id)).map typeOf).getD
          (Rendered.ofType e.dialect f.type).value) := by
  intro typeOf
  have hown : (t.fields.mapM fun f => do
      return (f, ← Rendered.ofType e.dialect f.type ⟨some t.name, some f.name⟩) :
      Noted (List (Field × Rendered))).value = t.fields.map fun f => (f, typeOf f) :=
    Noted.value_mapM _ _
  unfold typedColumns
  rw [Noted.value_bind, Noted.value_pure, hown]
  refine congrArg (_ ++ ·) (List.map_congr_left fun f _ => ?_)
  rw [List.find?_map, Option.map_map]
  rfl

theorem spelled_clauses (t : Table) (edges : List Edge) :
    AllSpelled literal
      ((clauses e o t (typedColumns e o t).value edges).map (·.text e)) (tableLiterals e o t) := by
  unfold clauses
  rw [value_typedColumns, List.map_append, List.map_append, List.map_append]
  refine ((AllSpelled.append_code ?_ _).append_code _).append_code _
  rw [List.map_append, List.map_append, List.map_map, List.map_map, List.map_map, List.map_map]
  refine .append (.map fun f _ => spelled_column e o t f f.type _) (.map fun f _ => ?_)
  dsimp only [Function.comp]
  generalize t.fields.find? (·.id = f.id) = named
  obtain - | f' := named
  · exact spelled_column e o t f f.type {}
  · exact spelled_column e o t f f'.type _

theorem spelled_descriptions (t : Table) :
    AllSpelled literal ((descriptions e o t).map (·.text e))
      ((descriptions e o t).filterMap Statement.comment?) := by
  rw [List.filterMap_eq_flatMap_toList]
  refine .map fun s hs => spelled_description e s ?_
  unfold descriptions at hs
  split at hs
  · rcases List.mem_append.1 hs with hs | hs
    · split at hs
      · rw [List.mem_singleton.1 hs]
        rfl
      · exact absurd hs List.not_mem_nil
    · obtain ⟨f, -, rfl⟩ := List.mem_map.1 hs
      rfl
  · exact absurd hs List.not_mem_nil

theorem spelled_create (task : Task) :
    Spelled literal ((create e o task).value.text e) (createLiterals e o task.table) := by
  have hstorage : e = .mssql → storage e o task.table = none := by
    rintro rfl
    rfl
  have htable := spelled_createTable (spelled_clauses e o task.table []) true task.table.name hstorage
  refine spelled_script ?_
  show AllSpelled literal ((header "Create table" task ++ remarks e o task.table ++ [_] ++
    indexStatements e o task.table ++ descriptions e o task.table).map _) _
  rw [List.map_append, List.map_append, List.map_append]
  exact (((AllSpelled.singleton htable).code_append _).append_code _).append
    (spelled_descriptions e o task.table)

theorem spelled_rebuild (t : Table) (edges : List Edge) :
    AllSpelled literal ((rebuild e o t (typedColumns e o t).value edges).map (·.text e))
      (tableLiterals e o t) := by
  have htable := spelled_createTable (spelled_clauses e o t edges) false (rebuildName t)
    fun _ => (rfl : none = none)
  rw [Option.bind_none, Option.toList_none, List.append_nil] at htable
  unfold rebuild
  rw [List.map_append, List.map_append]
  refine ((AllSpelled.append_code ?_ _).append_code _)
  exact ((AllSpelled.singleton htable).append_code _).code_append [_, _, _]

theorem spelled_attach (task : Task) :
    Spelled literal ((attach e o task).text e) (keyLiterals e o task.table) := by
  refine spelled_script ?_
  unfold attach keyLiterals
  rw [List.map_append]
  refine .code_append _ ?_
  split
  · exact spelled_rebuild e o task.table task.edges
  · exact .of_code _

theorem spelled_detach (task : Task) :
    Spelled literal ((detach e o task).value.text e) (keyLiterals e o task.table) := by
  refine spelled_script ?_
  unfold detach keyLiterals
  split
  · show AllSpelled literal ((_ ++ rebuild e o task.table _ []).map _) _
    rw [List.map_append]
    exact (spelled_rebuild e o task.table []).code_append _
  · exact .of_code _

end Scripts

end Sql

end Schemata.Code
