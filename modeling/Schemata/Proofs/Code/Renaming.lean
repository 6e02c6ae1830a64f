import Mathlib.Data.List.Find
import Schemata.Proofs.Code.Files
import Schemata.Proofs.Code.Sql.Literals
import Schemata.Proofs.Plan.Renaming

/-!
# Files for tables with other ids

What is written for a table says nothing of its ids, with one exception: a column that the switches add
gets an id made of the id of its table, and if a field has this id the column takes the type of the
field. So other ids change nothing as long as added columns keep their types (`Options.KeepsAdded`), and
in any case they change nothing but contents.
-/

/-! ## Types -/

namespace Schemata.Rendered

variable (d : Dialect) (t : ColumnType) (place : Place)

theorem value_choose : (choose d t place).value = (choose d t {}).value := by
  unfold choose
  cases Construct.of d t.kind <;> rfl

theorem value_sizeParameters : (sizeParameters d t place).value = (sizeParameters d t {}).value := by
  unfold sizeParameters
  split
  · rfl
  split
  · cases t.size with
    | none => rfl
    | some n =>
      cases lengthLimit? d with
      | none => rfl
      | some limit =>
        dsimp only
        split <;> split <;> rfl
  · rfl

theorem value_decimalParameters :
    (decimalParameters d t place).value = (decimalParameters d t {}).value := by
  unfold decimalParameters
  cases t.precision with
  | none => rfl
  | some precision =>
    cases decimalLimit? d with
    | none => rfl
    | some limits =>
      dsimp only
      split <;> rfl

theorem value_ownParameters (c : Construct) :
    (ownParameters d t c place).value = (ownParameters d t c {}).value := by
  unfold ownParameters
  split
  · exact value_sizeParameters d t place
  split
  · exact value_decimalParameters d t place
  · rfl

theorem value_withUnsigned (r : Rendered) :
    (withUnsigned d t r place).value = (withUnsigned d t r {}).value := by
  cases d <;> rfl

/-- Where a type belongs shows in what is found, not in what it is rendered as. -/
theorem value_ofType : (ofType d t place).value = (ofType d t).value := by
  unfold ofType
  simp only [Noted.value_bind, value_choose d t place, value_ownParameters _ _ place]
  split
  · exact value_withUnsigned d _ place _
  · rfl

end Schemata.Rendered

namespace Schemata.Code

variable {ρ : Renaming}

/-- The type of an added column when tables and fields have other ids: that of the first field with the
id of the column, else its own. -/
def addedType (table field : String → String) (t : Table) (name : String) : ColumnType :=
  ((t.fields.find? fun f => field f.id = table t.id ++ ":" ++ name).map (·.type)).getD
    (.plain .timestamp)

/-- The added columns of a table have the same types with other ids. -/
def Options.KeepsAdded (o : Options) (table field : String → String) (t : Table) : Prop :=
  ∀ name ∈ o.addedNames t, addedType table field t name = addedType id id t name

/-- Only the ids of the table and of its fields count. -/
theorem Options.KeepsAdded.of_eqOn {o : Options} {table field table' field' : String → String}
    {t : Table} (h : o.KeepsAdded table field t) (htable : table' t.id = table t.id)
    (hfield : ∀ f ∈ t.fields, field' f.id = field f.id) : o.KeepsAdded table' field' t := by
  intro name hname
  have hfind : (t.fields.find? fun f => field' f.id = table t.id ++ ":" ++ name) =
      t.fields.find? fun f => field f.id = table t.id ++ ":" ++ name :=
    List.find?_congr fun f hf => by rw [hfield f hf]
  rw [← h name hname, addedType, addedType, htable, hfind]

theorem Options.addsTimestamps_rename (o : Options) (t : Table) :
    o.addsTimestamps (t.rename ρ) = o.addsTimestamps t := by
  unfold addsTimestamps
  simp only [Table.fieldByName?_rename, Option.isSome_map]

theorem Options.addsSoftDelete_rename (o : Options) (t : Table) :
    o.addsSoftDelete (t.rename ρ) = o.addsSoftDelete t := by
  unfold addsSoftDelete
  simp only [Table.fieldByName?_rename, Option.isNone_map]

theorem Options.addedNames_rename (o : Options) (t : Table) :
    o.addedNames (t.rename ρ) = o.addedNames t := by
  rw [addedNames, addsTimestamps_rename, addsSoftDelete_rename]
  rfl

theorem isTerse_rename (e : Edge) : isTerse (e.rename ρ) = isTerse e := by
  have hkey : (e.rename ρ).targetsSoleKey = e.targetsSoleKey := by
    have hids : (e.target.rename ρ).primaryKey.map (·.id) =
        (e.target.primaryKey.map (·.id)).map ρ.field := by
      rw [Table.primaryKey_rename, List.map_map, List.map_map]
      rfl
    show ((e.target.rename ρ).primaryKey.map (·.id) == [e.targetField.id].map ρ.field) =
      (e.target.primaryKey.map (·.id) == [e.targetField.id])
    rw [hids, Bool.eq_iff_iff, beq_iff_eq, beq_iff_eq]
    exact (List.map_injective_iff.2 ρ.field_injective).eq_iff
  unfold isTerse
  rw [hkey]
  rfl

/-! ## Scripts -/

namespace Sql

variable (e : Engine) (o : Options) (t : Table)

theorem keyDef_rename (edge : Edge) : keyDef e (edge.rename ρ) = keyDef e edge := by
  unfold keyDef
  rw [isTerse_rename]
  rfl

theorem isInlineKey_rename : isInlineKey e (t.rename ρ) = isInlineKey e t := by
  unfold isInlineKey keyCountsUp
  rw [Table.primaryKey_rename]
  rcases t.primaryKey with _ | ⟨f, _ | ⟨g, fields⟩⟩ <;> rfl

theorem columnDef_rename (f : Field) (r : Rendered) (id : String) :
    columnDef e o (t.rename ρ) ({ f with id }, r) = columnDef e o t (f, r) := by
  unfold columnDef attributes
  rw [isInlineKey_rename]
  rfl

/-- An added column is rendered from the type that it has. -/
theorem value_typedColumns_eq : (typedColumns e o t).value =
    t.fields.map (fun f => (f, (Rendered.ofType e.dialect f.type).value)) ++
      (o.addedNames t).map fun name => (Options.addedField t name,
        (Rendered.ofType e.dialect (addedType id id t name)).value) := by
  rw [value_typedColumns]
  simp only [Rendered.value_ofType e.dialect _ ⟨_, _⟩]
  congr 1
  unfold Options.addedFields
  rw [List.map_map]
  refine List.map_congr_left fun name _ => congrArg (Prod.mk _) ?_
  unfold addedType
  show Option.getD (Option.map _ (t.fields.find? fun f => f.id = t.id ++ ":" ++ name)) _ =
    (Rendered.ofType e.dialect (Option.getD (Option.map _ (t.fields.find? fun f =>
      f.id = t.id ++ ":" ++ name)) _)).value
  cases t.fields.find? fun f => f.id = t.id ++ ":" ++ name <;> rfl

theorem addedType_rename (name : String) :
    addedType id id (t.rename ρ) name = addedType ρ.table ρ.field t name := by
  unfold addedType Table.rename
  rw [List.find?_map, Option.map_map]
  rfl

/-- The columns of a table are the same. -/
theorem columnDefs_rename (h : o.KeepsAdded ρ.table ρ.field t) :
    (typedColumns e o (t.rename ρ)).value.map (columnDef e o (t.rename ρ)) =
      (typedColumns e o t).value.map (columnDef e o t) := by
  rw [value_typedColumns_eq, value_typedColumns_eq, List.map_append, List.map_append]
  congr 1
  · show ((t.fields.map (Field.rename ρ)).map _).map _ = _
    rw [List.map_map, List.map_map, List.map_map]
    exact List.map_congr_left fun f _ => columnDef_rename e o t f _ _
  · rw [Options.addedNames_rename, List.map_map, List.map_map]
    refine List.map_congr_left fun name hname => ?_
    rw [Function.comp_apply, addedType_rename, h name hname]
    exact columnDef_rename e o t (Options.addedField t name) _ _

theorem findings_typedColumns :
    (typedColumns e o t).findings = t.fields.flatMap fun f =>
      (Rendered.ofType e.dialect f.type ⟨some t.name, some f.name⟩).findings := by
  unfold typedColumns
  rw [Noted.findings_bind, Noted.findings_mapM, Noted.findings_pure, List.append_nil]
  exact List.flatMap_congr fun f _ => List.append_nil _

theorem findings_typedColumns_rename :
    (typedColumns e o (t.rename ρ)).findings = (typedColumns e o t).findings := by
  rw [findings_typedColumns, findings_typedColumns]
  exact List.flatMap_map _ _ _

theorem clauses_rename (h : o.KeepsAdded ρ.table ρ.field t) (edges : List Edge) :
    clauses e o (t.rename ρ) (typedColumns e o (t.rename ρ)).value (edges.map (Edge.rename ρ)) =
      clauses e o t (typedColumns e o t).value edges := by
  have hcolumns := congrArg (List.map Clause.column) (columnDefs_rename e o t h)
  rw [List.map_map, List.map_map] at hcolumns
  have hkey : primaryKeyClause e (t.rename ρ) = primaryKeyClause e t := by
    unfold primaryKeyClause
    rw [isInlineKey_rename, Table.primaryKey_rename, List.map_map]
    simp only [List.map_eq_nil_iff]
    rfl
  have hedges : (edges.map (Edge.rename ρ)).map (fun k => Clause.foreignKey (keyDef e k)) =
      edges.map fun k => .foreignKey (keyDef e k) := by
    rw [List.map_map]
    exact List.map_congr_left fun k _ => congrArg Clause.foreignKey (keyDef_rename e k)
  unfold clauses
  rw [hkey, hedges]
  exact congrArg (fun columns => columns ++ _ ++ _ ++ _) hcolumns

theorem rebuild_rename (h : o.KeepsAdded ρ.table ρ.field t) (edges : List Edge) :
    rebuild e o (t.rename ρ) (typedColumns e o (t.rename ρ)).value (edges.map (Edge.rename ρ)) =
      rebuild e o t (typedColumns e o t).value edges := by
  have hnames := congrArg (List.map ColumnDef.name) (columnDefs_rename e o t h)
  rw [List.map_map, List.map_map] at hnames
  have hnames' : (typedColumns e o (t.rename ρ)).value.map (·.1.name) =
      (typedColumns e o t).value.map (·.1.name) := hnames
  unfold rebuild
  rw [clauses_rename e o t h, hnames']
  rfl

theorem remarks_rename : remarks e o (t.rename ρ) = remarks e o t := by
  have hfields : ((t.rename ρ).fields.filter (·.comment ≠ "")) =
      (t.fields.filter (·.comment ≠ "")).map (Field.rename ρ) := List.filter_map
  unfold remarks
  rw [hfields, List.map_map]
  rfl

theorem descriptions_rename : descriptions e o (t.rename ρ) = descriptions e o t := by
  have hfields : ((t.rename ρ).fields.filter (·.comment ≠ "")) =
      (t.fields.filter (·.comment ≠ "")).map (Field.rename ρ) := List.filter_map
  unfold descriptions
  rw [hfields, List.map_map]
  rfl

variable (task : Task)

theorem findings_create_rename :
    (create e o (task.rename ρ)).findings = (create e o task).findings := by
  show (typedColumns e o (task.table.rename ρ)).findings ++ [] =
    (typedColumns e o task.table).findings ++ []
  rw [findings_typedColumns_rename]

theorem value_create_rename (h : o.KeepsAdded ρ.table ρ.field task.table) :
    (create e o (task.rename ρ)).value = (create e o task).value := by
  have hclauses := clauses_rename e o task.table h []
  show header _ _ ++ remarks e o (task.table.rename ρ) ++
    [.createTable true _ (clauses e o (task.table.rename ρ)
      (typedColumns e o (task.table.rename ρ)).value []) _] ++ indexStatements e o _ ++
      descriptions e o (task.table.rename ρ) = _
  rw [List.map_nil] at hclauses
  rw [remarks_rename, descriptions_rename, hclauses]
  rfl

theorem attach_rename (h : o.KeepsAdded ρ.table ρ.field task.table) :
    attach e o (task.rename ρ) = attach e o task := by
  have hedges : (task.edges.map (Edge.rename ρ)).map
      (fun k => Statement.addForeignKey k.owner.name (keyDef e k)) =
        task.edges.map fun k => .addForeignKey k.owner.name (keyDef e k) := by
    rw [List.map_map]
    refine List.map_congr_left fun k _ => ?_
    rw [Function.comp_apply, keyDef_rename]
    rfl
  show header _ _ ++ (if e = .sqlite then rebuild e o (task.table.rename ρ)
    (typedColumns e o (task.table.rename ρ)).value (task.edges.map (Edge.rename ρ))
      else (task.edges.map (Edge.rename ρ)).map _) = _
  rw [hedges, rebuild_rename e o task.table h]
  rfl

theorem findings_detach_rename :
    (detach e o (task.rename ρ)).findings = (detach e o task).findings := by
  unfold detach
  dsimp only
  split
  · show (typedColumns e o (task.table.rename ρ)).findings ++ [] =
      (typedColumns e o task.table).findings ++ []
    rw [findings_typedColumns_rename]
  · rfl

theorem value_detach_rename (h : o.KeepsAdded ρ.table ρ.field task.table) :
    (detach e o (task.rename ρ)).value = (detach e o task).value := by
  have hrebuild := rebuild_rename e o task.table h []
  rw [List.map_nil] at hrebuild
  have hedges : (task.edges.map (Edge.rename ρ)).map
      (fun k => Statement.dropForeignKey task.table.name k.constraintName) =
        task.edges.map fun k => .dropForeignKey task.table.name k.constraintName := by
    rw [List.map_map]
    rfl
  unfold detach
  dsimp only
  split
  · exact congrArg (header _ _ ++ ·) hrebuild
  · exact congrArg (header _ _ ++ ·) hedges

end Sql

/-! ## Migrations -/

namespace Migration

variable (o : Options)

theorem createLines_rename (t : Table) : createLines o (t.rename ρ) = createLines o t := by
  have hkey : (t.rename ρ).primaryKey.map (·.name) = t.primaryKey.map (·.name) := by
    rw [Table.primaryKey_rename, List.map_map]
    rfl
  unfold createLines
  rw [hkey, Options.addsTimestamps_rename, Options.addsSoftDelete_rename]
  show ((t.fields.map (Field.rename ρ)).mapM _ >>= _) = _
  rw [List.mapM_map]
  rfl

theorem create_rename (task : Task) : create o (task.rename ρ) = create o task := by
  unfold create
  show (createLines o (task.table.rename ρ) >>= _) = _
  rw [createLines_rename]
  rfl

theorem attach_rename (task : Task) : attach (task.rename ρ) = attach task := by
  have hattach : (task.edges.map (Edge.rename ρ)).map attachLine = task.edges.map attachLine := by
    rw [List.map_map]
    refine List.map_congr_left fun k _ => ?_
    rw [Function.comp_apply, attachLine, isTerse_rename]
    rfl
  have hdetach : (task.edges.map (Edge.rename ρ)).map detachLine = task.edges.map detachLine := by
    rw [List.map_map]
    refine List.map_congr_left fun k _ => ?_
    rw [Function.comp_apply, detachLine, isTerse_rename]
    rfl
  unfold attach
  show fileText _ (builderCall _ _ ((task.edges.map (Edge.rename ρ)).map attachLine))
    (builderCall _ _ ((task.edges.map (Edge.rename ρ)).map detachLine)) = _
  rw [hattach, hdetach]
  rfl

end Migration

/-! ## Files -/

/-- A file without what is written in it. -/
def Artifact.heading (a : Artifact) : Artifact := { a with content := "" }

section Files

variable (target : Target) (e : Engine) (o : Options) (task : Task)

theorem findings_content_rename :
    (content target o (task.rename ρ)).findings = (content target o task).findings := by
  cases target with
  | sql e =>
    obtain ⟨phase, table, edges, stamp⟩ := task
    cases phase with
    | createTable => exact congrArg (· ++ []) (Sql.findings_create_rename e o _)
    | attachForeignKeys => rfl
  | laravel =>
    obtain ⟨phase, table, edges, stamp⟩ := task
    cases phase with
    | createTable => exact congrArg Noted.findings (Migration.create_rename o _)
    | attachForeignKeys => rfl

theorem value_content_rename (h : target = .laravel ∨ o.KeepsAdded ρ.table ρ.field task.table) :
    (content target o (task.rename ρ)).value = (content target o task).value := by
  cases target with
  | sql e =>
    have hkeeps := h.resolve_left nofun
    obtain ⟨phase, table, edges, stamp⟩ := task
    cases phase with
    | createTable => exact congrArg (·.text e) (Sql.value_create_rename e o _ hkeeps)
    | attachForeignKeys => exact congrArg (·.text e) (Sql.attach_rename e o _ hkeeps)
  | laravel =>
    obtain ⟨phase, table, edges, stamp⟩ := task
    cases phase with
    | createTable => exact congrArg Noted.value (Migration.create_rename o _)
    | attachForeignKeys => exact Migration.attach_rename _

theorem findings_rollbackContent_rename :
    (rollbackContent e o (task.rename ρ)).findings = (rollbackContent e o task).findings := by
  obtain ⟨phase, table, edges, stamp⟩ := task
  cases phase with
  | createTable => rfl
  | attachForeignKeys => exact congrArg (· ++ []) (Sql.findings_detach_rename e o _)

theorem value_rollbackContent_rename (h : o.KeepsAdded ρ.table ρ.field task.table) :
    (rollbackContent e o (task.rename ρ)).value = (rollbackContent e o task).value := by
  obtain ⟨phase, table, edges, stamp⟩ := task
  cases phase with
  | createTable => rfl
  | attachForeignKeys => exact congrArg (·.text e) (Sql.value_detach_rename e o _ h)

variable (p : Plan)

theorem ascending_rename : ascending (p.rename ρ) = (ascending p).map (Task.rename ρ) :=
  (List.map_mergeSort (f := Task.rename ρ) fun _ _ _ _ => rfl).symm

theorem descending_rename : descending (p.rename ρ) = (descending p).map (Task.rename ρ) :=
  (List.map_mergeSort (f := Task.rename ρ) fun _ _ _ _ => rfl).symm

/-- What is found on the way to the files for the chosen tasks is the same if it is for each task. -/
theorem findings_chosen_rename {f : Task → Noted Artifact}
    (h : ∀ t, (f (t.rename ρ)).findings = (f t).findings) (tasks : List Task) :
    ((o.chosen (tasks.map (Task.rename ρ))).mapM f).findings =
      ((o.chosen tasks).mapM f).findings := by
  have hchosen : o.chosen (tasks.map (Task.rename ρ)) = (o.chosen tasks).map (Task.rename ρ) :=
    List.filter_map
  rw [hchosen, Noted.findings_mapM, Noted.findings_mapM, List.flatMap_map]
  exact List.flatMap_congr fun t _ => h t

/-- What files for the chosen tasks have in common with those for renamed ones is what the files for
each task have in common with those for the renamed task. -/
theorem value_chosen_rename {α : Type} {f : Task → Noted Artifact} {g : Artifact → α}
    {tasks : List Task} (h : ∀ t ∈ tasks, g (f (t.rename ρ)).value = g (f t).value) :
    ((o.chosen (tasks.map (Task.rename ρ))).mapM f).value.map g =
      ((o.chosen tasks).mapM f).value.map g := by
  have hchosen : o.chosen (tasks.map (Task.rename ρ)) = (o.chosen tasks).map (Task.rename ρ) :=
    List.filter_map
  rw [hchosen, Noted.value_mapM, Noted.value_mapM, List.map_map, List.map_map, List.map_map]
  exact List.map_congr_left fun t ht => h t (List.mem_of_mem_filter ht)

theorem findings_render_rename :
    (render target o (p.rename ρ)).findings = (render target o p).findings := by
  unfold render
  rw [ascending_rename]
  exact findings_chosen_rename o
    (fun t => congrArg (· ++ []) (findings_content_rename target o t)) _

theorem heading_render_rename :
    (render target o (p.rename ρ)).value.map Artifact.heading =
      (render target o p).value.map Artifact.heading := by
  unfold render
  rw [ascending_rename]
  exact value_chosen_rename o fun _ _ => rfl

theorem value_render_rename
    (h : ∀ t ∈ p.tasks, target = .laravel ∨ o.KeepsAdded ρ.table ρ.field t.table) :
    (render target o (p.rename ρ)).value = (render target o p).value := by
  rw [← List.map_id (render target o p).value, ← List.map_id (render target o (p.rename ρ)).value]
  unfold render
  rw [ascending_rename]
  refine value_chosen_rename o fun t ht => ?_
  have hcontent := value_content_rename target o t (h t ((List.mergeSort_perm _ _).mem_iff.1 ht))
  exact congrArg (Artifact.ofTask t _ _ · _) hcontent

theorem findings_renderRollback_rename :
    (renderRollback target o (p.rename ρ)).findings = (renderRollback target o p).findings := by
  cases target with
  | laravel => rfl
  | sql e =>
    unfold renderRollback
    dsimp only
    rw [descending_rename]
    exact findings_chosen_rename o
      (fun t => congrArg (· ++ []) (findings_rollbackContent_rename e o t)) _

theorem heading_renderRollback_rename :
    (renderRollback target o (p.rename ρ)).value.map Artifact.heading =
      (renderRollback target o p).value.map Artifact.heading := by
  cases target with
  | laravel => rfl
  | sql e =>
    unfold renderRollback
    dsimp only
    rw [descending_rename]
    exact value_chosen_rename o fun _ _ => rfl

theorem value_renderRollback_rename
    (h : ∀ t ∈ p.tasks, target = .laravel ∨ o.KeepsAdded ρ.table ρ.field t.table) :
    (renderRollback target o (p.rename ρ)).value = (renderRollback target o p).value := by
  cases target with
  | laravel => rfl
  | sql e =>
    rw [← List.map_id (renderRollback (.sql e) o p).value,
      ← List.map_id (renderRollback (.sql e) o (p.rename ρ)).value]
    unfold renderRollback
    dsimp only
    rw [descending_rename]
    refine value_chosen_rename o fun t ht => ?_
    have hkeeps := (h t ((List.mergeSort_perm _ _).mem_iff.1 ht)).resolve_left nofun
    exact congrArg (Artifact.ofTask t _ _ · _) (value_rollbackContent_rename e o t hkeeps)

end Files

end Schemata.Code
