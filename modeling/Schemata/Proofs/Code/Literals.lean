import Schemata.Code.Artifact
import Schemata.Proofs.Code.Sql.Literals
import Schemata.Proofs.Text.Literal

/-!
# Values in generated files

Every file that is generated is code with the literals of its values between: labels, defaults and
comments. Whether a target reads such a literal as its value is then a matter of quoting only. All of
them do, except that MySQL takes a backslash for the beginning of an escape, while only quotes are
doubled for it: there a value is read back exactly when each of its backslashes stands before a
wildcard of patterns (`literals_read`).
-/

namespace Schemata.Code

open Text

/-! ## Migrations -/

namespace Migration

/-- The value that a link holds as a literal; an expression is handed on as one, too. -/
def Link.literal? : Link → Option String
  | default (.text s) => some s
  | default (.expr sql) => some sql
  | comment s => some s
  | _ => none

/-- The line of a column of a table. -/
def fieldLine (o : Options) (t : Table) (f : Field) : Line :=
  columnLine o f (Rendered.ofType .laravel f.type ⟨some t.name, some f.name⟩).value
    ((t.primaryKey.map (·.name)).length = 1)

/-- The literals of a column: its labels, its default and its comment. -/
def fieldLiterals (o : Options) (t : Table) (f : Field) : List String :=
  labels .laravel f.type ++ (fieldLine o t f).links.filterMap Link.literal?

/-- The literals of the migration that creates a table. -/
def createLiterals (o : Options) (t : Table) : List String :=
  t.fields.flatMap (fieldLiterals o t) ++ if o.comments && t.comment ≠ "" then [t.comment] else []

theorem spelled_link (l : Link) : Spelled literal l.text l.literal?.toList := by
  match l with
  | .default (.text s) | .comment s =>
    exact ((Spelled.of_literal s).code_append _).append_code (by decide)
  | .default (.expr sql) =>
    exact ((((Spelled.of_literal sql).code_append _).append_code (by decide)).code_append
      _).append_code (by decide)
  | .default (.bool _) | .default (.int _) | .default (.decimal _) | .modifier _ | .primary
  | .nullable | .useCurrent | .unique | .autoIncrement => exact .of_code _

theorem spelled_chain (links : List Link) :
    Spelled literal (Line.chain (links.map Link.text)) (links.filterMap Link.literal?) := by
  rw [List.filterMap_eq_flatMap_toList]
  exact AllSpelled.join_opening "->" (by decide) (by decide)
    (.map fun l _ => spelled_link l)

theorem unquoted_chain (links : List String) : Unquoted (Line.chain links).toList := by
  cases links with
  | nil => decide
  | cons l links =>
    unfold Line.chain
    rw [List.map_cons, String.join_cons, String.append_assoc, String.toList_append]
    exact unquoted_append (by decide) (by decide) _

theorem labels_eq_nil_of_isSerial {t : ColumnType} (h : t.kind.isSerial = true) :
    labels .laravel t = [] := by
  have hvalues : t.values = [] := values_eq_nil (not_isListed (.inr (.inl h)))
  rw [labels, hvalues, ite_self]

theorem spelled_fieldLine (o : Options) (t : Table) (f : Field) :
    Spelled literal (fieldLine o t f).text (fieldLiterals o t f) := by
  have hparameters : AllSpelled literal
      (Rendered.ofType .laravel f.type ⟨some t.name, some f.name⟩).value.parameters
      (labels .laravel f.type) := spelled_parameters .laravel f.type _
  unfold fieldLiterals Line.text
  refine .append_code (.code_append _ ?_) (by decide)
  unfold fieldLine columnLine
  dsimp only
  split
  · next h =>
    rw [labels_eq_nil_of_isSerial (by simp_all)]
    exact (spelled_chain _).code_append _
  · have hcall := (hparameters.code_append [literal f.name]).intercalate ", " (by decide)
      (by decide)
    exact ((hcall.code_append _).append_code (by decide)).append (spelled_chain _)
      (unquoted_chain _)

theorem spelled_createLines (o : Options) (t : Table) :
    AllSpelled literal ((createLines o t).value.map Line.text) (createLiterals o t) := by
  have hcomment : AllSpelled literal
      ((if o.comments && t.comment ≠ "" then [Line.comment t.comment] else []).map Line.text)
      (if o.comments && t.comment ≠ "" then [t.comment] else []) := by
    split
    · exact .singleton ((((Spelled.of_literal t.comment).code_append _).append_code
        (by decide)).code_append _ |>.append_code (by decide))
    · exact .nil
  unfold createLines createLiterals
  dsimp only
  rw [Noted.value_bind, Noted.value_mapM, Noted.value_pure, List.map_append, List.map_append,
    List.map_append, List.map_append, List.map_append]
  refine .append ?_ hcomment
  refine (((AllSpelled.append_code ?_ _).append_code _).append_code _).append_code _
  rw [List.map_map]
  exact .map fun f _ => spelled_fieldLine o t f

/-- The literals of a file are those of its first method, when the second one is code. -/
theorem spelled_fileText {up : String} {vs : List String} (h : Spelled literal up vs)
    (imports : String) {down : String} (hdown : Unquoted down.toList) :
    Spelled literal (fileText imports up down) vs := by
  unfold fileText
  refine (Spelled.append_code ?_ hdown).append_code (by decide)
  exact (((h.code_append _).append_code (by decide)).append_code (by decide)).append_code
    (by decide)

theorem spelled_create (o : Options) (task : Task) :
    Spelled literal (create o task).value (createLiterals o task.table) := by
  have hblock := ((spelled_createLines o task.table).map_code_append "            ").intercalate
    "\n" (by decide) (by decide)
  rw [List.map_map] at hblock
  have hcall : Spelled literal (builderCall "create" task.table.name (createLines o task.table).value)
      (createLiterals o task.table) := (hblock.code_append _).append_code (by decide)
  refine spelled_fileText hcall _ ?_
  rw [String.append_assoc, String.toList_append]
  exact unquoted_append (by decide) (by decide) _

end Migration

/-! ## Files -/

/-- The literals of the file that carries out a task. -/
def literals (target : Target) (o : Options) (task : Task) : List String :=
  match target, task.phase with
  | .sql e, .createTable => Sql.createLiterals e o task.table
  | .sql e, .attachForeignKeys => Sql.keyLiterals e o task.table
  | .laravel, .createTable => Migration.createLiterals o task.table
  | .laravel, .attachForeignKeys => []

/-- The literals of the file that undoes a task in a database. -/
def rollbackLiterals (e : Engine) (o : Options) (task : Task) : List String :=
  match task.phase with
  | .createTable => []
  | .attachForeignKeys => Sql.keyLiterals e o task.table

/-- A value as it is written for a target. -/
def Target.literal : Target → String → String
  | .sql _ => Sql.literal
  | .laravel => Migration.literal

/-- The pairs of characters that stand for something else in a literal of a target. -/
def Target.pair? : Target → Pairs
  | .sql .mysql => mysqlPair?
  | .sql _ => doubledPair?
  | .laravel => phpPair?

/-- A target reads the literal of a value, before the rest of a text, as that value, and ends where
it was ended. -/
def Target.Reads (target : Target) (v : String) (rest : List Char) : Prop :=
  readLiteral? target.pair? ((target.literal v).toList ++ rest) = some (v.toList, rest)

theorem spelled_content (target : Target) (o : Options) (task : Task) :
    Spelled target.literal (content target o task).value (literals target o task) := by
  unfold content literals
  cases target with
  | sql e =>
    cases task.phase with
    | createTable => exact Sql.spelled_create e o task
    | attachForeignKeys => exact Sql.spelled_attach e o task
  | laravel =>
    cases task.phase with
    | createTable => exact Migration.spelled_create o task
    | attachForeignKeys => exact .of_code _

theorem spelled_rollbackContent (e : Engine) (o : Options) (task : Task) :
    Spelled Sql.literal (rollbackContent e o task).value (rollbackLiterals e o task) := by
  unfold rollbackContent rollbackLiterals
  cases task.phase with
  | createTable => exact .of_code _
  | attachForeignKeys => exact Sql.spelled_detach e o task

theorem reads_iff (target : Target) {v : String} {rest : List Char} (h : Unquoted rest) :
    target.Reads v rest ↔ (target = .sql .mysql → Inert v.toList) := by
  have hliteral : (Sql.literal v).toList = quoteDoubled v.toList := by simp [Sql.literal]
  unfold Target.Reads
  match target with
  | .sql .mysql =>
    show readLiteral? mysqlPair? ((Sql.literal v).toList ++ rest) = _ ↔ _
    rw [hliteral, readLiteral?_quoteDoubled_mysql h]
    simp
  | .sql .postgres | .sql .sqlite | .sql .mssql =>
    show readLiteral? doubledPair? ((Sql.literal v).toList ++ rest) = _ ↔ _
    rw [hliteral, readLiteral?_quoteDoubled _ h]
    simp
  | .laravel =>
    show readLiteral? phpPair? ((Migration.literal v).toList ++ rest) = _ ↔ _
    unfold Migration.literal
    rw [String.toList_ofList, readLiteral?_backslashed]
    simp

/-- Every file is code with the literals of its values between, each of which is read as its value up
to its end; in MySQL exactly if each backslash of the value stands before a wildcard of patterns. -/
theorem literals_read (target : Target) (o : Options) (task : Task) :
    Spells target.literal (fun v rest => target.Reads v rest ↔
        (target = .sql .mysql → Inert v.toList))
      (content target o task).value.toList (literals target o task) ∧
    ∀ e, target = .sql e →
      Spells target.literal (fun v rest => target.Reads v rest ↔
          (target = .sql .mysql → Inert v.toList))
        (rollbackContent e o task).value.toList (rollbackLiterals e o task) := by
  refine ⟨(spelled_content target o task).mono fun v r => reads_iff target, ?_⟩
  rintro e rfl
  exact (spelled_rollbackContent e o task).mono fun v r => reads_iff (.sql e)

end Schemata.Code
