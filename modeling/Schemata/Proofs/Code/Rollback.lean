import Schemata.Proofs.Code.Files
import Schemata.Proofs.Code.Sql.Script

/-!
# Rolling back

The files that undo a plan are made in a second pass, by other functions and in the opposite order.
`rollback_mirrors` shows that the two passes stay paired: the files that undo a plan are one by one
the counterparts of those that carry it out, last one first (`Mirrors`), and what is attached to a
table in one file is detached from it in its counterpart (`UndoesKeys`). A migration of Laravel is
its own counterpart (`ReversesItself`).
-/

namespace Schemata.Code

/-! ## Databases -/

/-- What the script that undoes an attachment does to the keys that its script adds: it drops the
same constraints in the same order, or makes the table anew without a key where the script makes it
with them. -/
structure UndoesKeys (e : Engine) (t : Task) (script undo : Sql.Script) : Prop where
  added : e ≠ .sqlite →
    (script.filterMap Sql.Statement.addedKey?).map (·.2) = t.edges.map Edge.constraintName
  dropped : e ≠ .sqlite → undo.filterMap Sql.Statement.droppedKey? =
    (script.filterMap Sql.Statement.addedKey?).map fun k => (t.table.name, k.2)
  rebuilt : e = .sqlite → ∃ made keys, made.filterMap Sql.Clause.key? = [] ∧
    keys.map Sql.KeyDef.name = t.edges.map Edge.constraintName ∧
    Sql.Rebuilds script t.table made keys ∧ Sql.Rebuilds undo t.table made []

/-- A file that undoes what another one does: both are about one task, and if it attaches keys, the
scripts in the files add and drop the same ones. -/
structure Mirrors (e : Engine) (o : Options) (p : Plan) (back forth : Artifact) : Prop where
  phase_eq : back.phase = forth.phase
  table_eq : back.table = forth.table
  token_eq : back.token = forth.token
  isRollback : back.isRollback = true ∧ forth.isRollback = false
  keys : forth.phase = .attachForeignKeys → ∃ t ∈ p.tasks, t.phase = .attachForeignKeys ∧
    t.table.name = forth.table ∧ t.stamp.token = forth.token ∧
    forth.content = (Sql.script e o t).text e ∧ back.content = (Sql.undoScript e o t).text e ∧
    UndoesKeys e t (Sql.script e o t) (Sql.undoScript e o t)

theorem undoesKeys (e : Engine) (o : Options) {t : Task} (ht : t.phase = .attachForeignKeys) :
    UndoesKeys e t (Sql.script e o t) (Sql.undoScript e o t) where
  added he := by
    rw [Sql.addedKeys_script he ht, List.map_map]
    rfl
  dropped he := by
    rw [Sql.addedKeys_script he ht, Sql.droppedKeys_undoScript he ht, List.map_map]
    rfl
  rebuilt := by
    rintro rfl
    refine ⟨_, _, Sql.keys_clauses _ _ _ _, ?_, Sql.rebuilds_script ht, Sql.rebuilds_undoScript ht⟩
    rw [List.map_map]
    rfl

theorem mirrors_undoFile (e : Engine) (o : Options) {p : Plan} {t : Task} (ht : t ∈ p.tasks) :
    Mirrors e o p (undoFile e o t) (taskFile (.sql e) o t) where
  phase_eq := rfl
  table_eq := rfl
  token_eq := rfl
  isRollback := ⟨rfl, rfl⟩
  keys hphase :=
    ⟨t, ht, hphase, rfl, rfl, Sql.value_content e o t, Sql.value_rollbackContent e o t,
      undoesKeys e o hphase⟩

/-! ## Laravel -/

namespace Migration.Line

/-- The constraint that a line makes. A key without a name is given the one that belongs to its
column. -/
def madeKey? (derive : String → String) : Line → Option String
  | foreign key name _ _ _ _ => some (name.getD (derive key))
  | _ => none

/-- The constraint that a line drops, by its name or as the one that belongs to a column. -/
def droppedKey? (derive : String → String) : Line → Option String
  | dropForeignOn key => some (derive key)
  | dropForeign name => some name
  | _ => none

end Migration.Line

/-- The two lines for an edge make and drop one constraint, whatever names belong to columns. -/
theorem droppedKey?_detachLine (k : Edge) (derive : String → String) :
    ∃ name, (Migration.attachLine k).madeKey? derive = some name ∧
      (Migration.detachLine k).droppedKey? derive = some name := by
  unfold Migration.attachLine Migration.detachLine
  split <;> exact ⟨_, rfl, rfl⟩

/-- A migration whose second method drops, edge by edge, the constraints that its first method
makes. -/
def ReversesItself (p : Plan) (f : Artifact) : Prop :=
  ∃ t ∈ p.tasks, t.phase = .attachForeignKeys ∧ t.table.name = f.table ∧ t.stamp.token = f.token ∧
    f.content = Migration.fileText ""
      (Migration.builderCall "table" f.table (t.edges.map Migration.attachLine))
      (Migration.builderCall "table" f.table (t.edges.map Migration.detachLine)) ∧
    ∀ k ∈ t.edges, ∀ derive, ∃ name, (Migration.attachLine k).madeKey? derive = some name ∧
      (Migration.detachLine k).droppedKey? derive = some name

theorem reversesItself_taskFile (o : Options) {p : Plan} {t : Task} (ht : t ∈ p.tasks)
    (hphase : t.phase = .attachForeignKeys) : ReversesItself p (taskFile .laravel o t) := by
  refine ⟨t, ht, hphase, rfl, rfl, ?_, fun k _ derive => droppedKey?_detachLine k derive⟩
  show (content .laravel o t).value = _
  unfold content
  rw [hphase]
  rfl

/-! ## Plans -/

variable {tables : List Table} {edges : List Edge} {base : Instant} {step : Int} {p : Plan}

/-- The files that undo a plan mirror those that carry it out: there are as many of them, and each
undoes the file that stands as far from the end as it stands from the beginning. If every edge is
held by one of the tables, and these have ids of their own, then constraints are dropped from the
tables that they were added to. No file undoes a migration of Laravel, whose own second method
does. -/
theorem rollback_mirrors (h : Plan.order tables edges base step = .ok p) (o : Options) :
    (∀ e, List.Forall₂ (Mirrors e o p) (renderRollback (.sql e) o p).value
      (render (.sql e) o p).value.reverse) ∧
    ((tables.map Table.id).Nodup → (∀ k ∈ edges, k.owner ∈ tables) →
      ∀ e ≠ .sqlite, ∀ t ∈ p.attachments,
        (Sql.undoScript e o t).filterMap Sql.Statement.droppedKey? =
          (Sql.script e o t).filterMap Sql.Statement.addedKey?) ∧
    (renderRollback .laravel o p).value = [] ∧
    ∀ f ∈ (render .laravel o p).value, f.phase = .attachForeignKeys → ReversesItself p f := by
  have hascends := Plan.ascends_orderBy h
  refine ⟨fun e => ?_, fun hids howners e he t ht => ?_, rfl, fun f hf hphase => ?_⟩
  · rw [value_render hascends, value_renderRollback hascends, ← List.map_reverse,
      List.forall₂_map_left_iff, List.forall₂_map_right_iff, List.forall₂_same]
    intro t ht
    exact mirrors_undoFile e o (List.mem_of_mem_filter (List.mem_reverse.1 ht))
  · obtain ⟨ht, hphase⟩ := List.mem_filter.1 ht
    have hphase := of_decide_eq_true hphase
    rw [Sql.droppedKeys_undoScript he hphase, Sql.addedKeys_script he hphase]
    refine List.map_congr_left fun k hk => ?_
    rw [Plan.owner_eq_table hids howners h ht hk]
  · rw [value_render hascends] at hf
    obtain ⟨t, ht, rfl⟩ := List.mem_map.1 hf
    exact reversesItself_taskFile o (List.mem_of_mem_filter ht) hphase

/-- In the plan for likes, users and posts two tables have keys, which are dropped again. -/
theorem rollback_mirrors_blog : ∃ p,
    Plan.order [Plan.likes, Plan.users, Plan.posts] Plan.blogEdges ⟨0, by decide⟩ 1 = .ok p ∧
      p.attached = [Plan.posts, Plan.likes] ∧
      (∀ e, List.Forall₂ (Mirrors e {} p) (renderRollback (.sql e) {} p).value
        (render (.sql e) {} p).value.reverse) ∧
      (∀ e ≠ .sqlite, ∀ t ∈ p.attachments,
        (Sql.undoScript e {} t).filterMap Sql.Statement.droppedKey? =
          (Sql.script e {} t).filterMap Sql.Statement.addedKey?) ∧
      ∀ f ∈ (render .laravel {} p).value, f.phase = .attachForeignKeys → ReversesItself p f := by
  have hrun : (Plan.order [Plan.likes, Plan.users, Plan.posts] Plan.blogEdges ⟨0, by decide⟩
      1).toOption.map Plan.attached = some [Plan.posts, Plan.likes] := by decide +kernel
  obtain ⟨p, hp, hattached⟩ := exists_ok_of_toOption_map hrun
  obtain ⟨hmirrors, hkeys, -, hlaravel⟩ := rollback_mirrors hp {}
  exact ⟨p, hp, hattached, hmirrors, hkeys (by decide) (by decide), hlaravel⟩

end Schemata.Code
