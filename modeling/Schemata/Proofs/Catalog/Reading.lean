import Mathlib.Tactic.Common
import Schemata.Catalog.Introspection

/-!
# What readings leave behind

A reading asks as many queries as its rows call for, and any of them may fail. Each has a cursor of
its own that is closed before the reading goes on or breaks off, so a reading is tidy whatever it
does in between: every cursor that it was given is closed, and a failure among the answers that it
used up is its result (`Tidy`). All the readers are tidy (`tidy_of`).
-/

namespace Schemata.Catalog

variable {α β : Type}

/-- What goes wrong when a query gets this answer. -/
def Answer.failure? : Answer → Option Failure
  | rows _ => none
  | failure f | noCursor f => some f

/-- A wire was used with a result. -/
structure Served (w w' : Wire) (result : Except Failure α) : Prop where
  closing : w'.closing = w.closing
  /-- The cursors that were given out are closed, each once. -/
  cursors : ∃ n, w'.cursors = w.cursors + n ∧ w'.closed = w.closed ++ List.range' w.cursors n
  /-- Answers were used up from the front, and the first failure among them ended the use. -/
  answers : ∃ used, w.answers = used ++ w'.answers ∧
    ∀ a ∈ used, ∀ f, a.failure? = some f → result = .error f

/-- A reading that leaves no cursor open and passes on every failure that it meets. -/
def Tidy (x : Reading α) : Prop := ∀ w, Served w (x.run.run w).2 (x.run.run w).1

namespace Served

theorem refl (w : Wire) (result : Except Failure α) : Served w w result :=
  ⟨rfl, ⟨0, rfl, (List.append_nil _).symm⟩, [], rfl, fun _ ha => absurd ha List.not_mem_nil⟩

/-- What broke off a part breaks off the whole. -/
theorem error {w w' : Wire} {f : Failure} (h : Served w w' (.error f : Except Failure α)) :
    Served w w' (.error f : Except Failure β) := by
  obtain ⟨used, hused, hfailure⟩ := h.answers
  refine ⟨h.closing, h.cursors, used, hused, fun a ha g hg => ?_⟩
  cases hfailure a ha g hg
  rfl

/-- After a part that succeeded, and so met no failure, the rest decides about the result. -/
theorem trans {w v w' : Wire} {a : α} {result : Except Failure β} (h : Served w v (.ok a))
    (h' : Served v w' result) : Served w w' result := by
  obtain ⟨n, hcursors, hclosed⟩ := h.cursors
  obtain ⟨m, hcursors', hclosed'⟩ := h'.cursors
  obtain ⟨used, hused, hfailure⟩ := h.answers
  obtain ⟨used', hused', hfailure'⟩ := h'.answers
  refine ⟨h'.closing.trans h.closing, ⟨n + m, by omega, ?_⟩, used ++ used', ?_, ?_⟩
  · rw [hclosed', hclosed, hcursors, List.append_assoc, List.range'_append_1]
  · rw [hused, hused', List.append_assoc]
  · intro a ha f hf
    rcases List.mem_append.1 ha with ha | ha
    · cases hfailure a ha f hf
    · exact hfailure' a ha f hf

end Served

namespace Tidy

theorem pure (a : α) : Tidy (pure a) := fun w => .refl w _

theorem throw (f : Failure) : Tidy (throw f : Reading α) := fun w => .refl w _

theorem lift (x : Except Failure α) : Tidy (liftM x : Reading α) := fun w => .refl w _

theorem bind {x : Reading α} {g : α → Reading β} (hx : Tidy x) (hg : ∀ a, Tidy (g a)) :
    Tidy (x >>= g) := by
  intro w
  have hserved := hx w
  rcases hrun : x.run.run w with ⟨f | a, v⟩
  · have hbind : (x >>= g).run.run w = (.error f, v) := by
      rw [ExceptT.run_bind, StateT.run_bind, hrun]
      rfl
    rw [hrun] at hserved
    rw [hbind]
    exact hserved.error
  · have hbind : (x >>= g).run.run w = (g a).run.run v := by
      rw [ExceptT.run_bind, StateT.run_bind, hrun]
      rfl
    rw [hrun] at hserved
    rw [hbind]
    exact hserved.trans (hg a v)

theorem map {x : Reading α} {g : α → β} (hx : Tidy x) : Tidy (g <$> x) := by
  rw [map_eq_pure_bind]
  exact bind hx fun _ => pure _

theorem mapM {g : α → Reading β} (hg : ∀ a, Tidy (g a)) (l : List α) : Tidy (l.mapM g) := by
  induction l with
  | nil => exact pure []
  | cons a l ih =>
    rw [List.mapM_cons]
    exact bind (hg a) fun _ => bind ih fun _ => pure _

theorem ask (q : Query) : Tidy (Reading.ask q) := by
  rintro ⟨answers, asked, cursors, closed, closing⟩
  cases answers with
  | nil => exact ⟨rfl, ⟨1, rfl, rfl⟩, [], rfl, fun _ ha => absurd ha List.not_mem_nil⟩
  | cons a answers =>
    cases a with
    | rows rows =>
      refine ⟨rfl, ⟨1, rfl, rfl⟩, [_], rfl, fun a ha f hf => ?_⟩
      rw [List.mem_singleton.1 ha] at hf
      cases hf
    | failure g =>
      refine ⟨rfl, ⟨1, rfl, rfl⟩, [_], rfl, fun a ha f hf => ?_⟩
      rw [List.mem_singleton.1 ha] at hf
      cases hf
      rfl
    | noCursor g =>
      refine ⟨rfl, ⟨0, rfl, (List.append_nil _).symm⟩, [_], rfl, fun a ha f hf => ?_⟩
      rw [List.mem_singleton.1 ha] at hf
      cases hf
      rfl

end Tidy

/-! ## The readers -/

namespace Tidy

/-- One query, and something read from each of its rows. -/
theorem ask_mapM {g : Row → Reading α} (hg : ∀ r, Tidy (g r)) (q : Query) :
    Tidy (Reading.ask q >>= fun rows => rows.mapM g) :=
  bind (ask q) fun rows => mapM hg rows

theorem mysql_databases : Tidy Mysql.databases :=
  bind (ask _) fun _ => bind (mapM (fun _ => lift _) _) fun _ => pure _

theorem mysql_version : Tidy Mysql.version :=
  bind (ask _) fun _ => bind (lift _) fun _ => bind (lift _) fun _ => pure _

theorem mysql_tables (database : String) : Tidy (Mysql.tables database) :=
  bind (ask _) fun _ => bind (mapM (fun _ => bind (lift _) fun _ => lift _) _) fun _ => pure _

theorem mysql_columns (database table : String) : Tidy (Mysql.columns database table) :=
  ask_mapM (fun _ => lift _) _

theorem mysql_foreignKeys (database : String) (tables : List String) :
    Tidy (Mysql.foreignKeys database tables) := by
  unfold Mysql.foreignKeys
  split
  · exact pure []
  · exact ask_mapM (fun _ => lift _) _

theorem postgres_version : Tidy Postgres.version :=
  bind (ask _) fun _ => bind (lift _) fun _ => bind (lift _) fun _ => pure _

theorem postgres_databases : Tidy Postgres.databases := ask_mapM (fun _ => lift _) _

theorem postgres_tables : Tidy Postgres.tables := ask_mapM (fun _ => lift _) _

theorem postgres_enumLabels : Tidy Postgres.enumLabels :=
  bind (ask _) fun _ =>
    bind (mapM (fun _ => bind (lift _) fun _ => bind (lift _) fun _ => pure _) _) fun _ => pure _

theorem postgres_keyColumns (table kind : String) : Tidy (Postgres.keyColumns table kind) :=
  bind (ask _) fun _ =>
    bind (mapM (fun _ => bind (lift _) fun _ => bind (lift _) fun _ => pure _) _) fun _ => pure _

theorem postgres_columns (table : String) : Tidy (Postgres.columns table) :=
  bind (ask _) fun _ => bind postgres_enumLabels fun _ => bind (postgres_keyColumns _ _) fun _ =>
    bind (postgres_keyColumns _ _) fun _ => mapM (fun _ => lift _) _

theorem postgres_foreignKeys (tables : List String) : Tidy (Postgres.foreignKeys tables) := by
  unfold Postgres.foreignKeys
  split
  · exact pure []
  · exact ask_mapM (fun _ => lift _) _

theorem sqlite_version : Tidy Sqlite.version :=
  bind (ask _) fun _ => bind (lift _) fun _ => bind (lift _) fun _ => pure _

theorem sqlite_tables : Tidy Sqlite.tables := ask_mapM (fun _ => lift _) _

theorem sqlite_uniqueColumns (table : String) : Tidy (Sqlite.uniqueColumns table) := by
  refine bind (ask _) fun _ => bind (mapM (fun index => bind (lift _) fun unique => ?_) _) fun _ =>
    pure _
  split
  · refine bind (lift _) fun _ => bind (ask _) fun columns => ?_
    split
    · exact bind (lift _) fun _ => pure _
    · exact pure []
  · exact pure []

theorem sqlite_columns (table : String) : Tidy (Sqlite.columns table) :=
  bind (ask _) fun _ => bind (mapM (fun _ => lift _) _) fun _ =>
    bind (sqlite_uniqueColumns table) fun _ => mapM (fun _ => lift _) _

theorem sqlite_keyColumn? (table : String) : Tidy (Sqlite.keyColumn? table) := by
  refine bind (ask _) fun _ => bind (lift _) fun row => ?_
  split
  · exact lift _
  · exact pure none

theorem sqlite_foreignKeyRow? (table : String) (ids : List String) (r : Row) :
    Tidy (Sqlite.foreignKeyRow? table ids r) := by
  refine bind (lift _) fun target => ?_
  extract_lets rest
  have hrest : ∀ column, Tidy (rest column) := by
    intro column
    cases column with
    | none => exact pure none
    | some _ =>
      exact bind (lift _) fun _ => bind (lift _) fun _ => bind (lift _) fun _ => bind (lift _)
        fun _ => bind (lift _) fun _ => pure _
  split
  · exact bind (map (lift _)) hrest
  · exact bind (lift _) fun _ => bind (sqlite_keyColumn? _) hrest

theorem sqlite_foreignKeys (tables : List String) : Tidy (Sqlite.foreignKeys tables) := by
  refine bind (mapM (fun table => ?_) tables) fun _ => pure _
  exact bind (ask _) fun _ => bind (mapM (fun _ => bind (lift _) fun _ => pure _) _) fun ids =>
    bind (mapM (sqlite_foreignKeyRow? table ids) _) fun _ => pure _

end Tidy

/-- A reader all of whose readings are tidy. -/
structure Reader.IsTidy (r : Reader) : Prop where
  version : Tidy r.version
  databases : Tidy r.databases
  tables : ∀ database, Tidy (r.tables database)
  columns : ∀ database table, Tidy (r.columns database table)
  foreignKeys : ∀ database tables, Tidy (r.foreignKeys database tables)

theorem Reader.isTidy_of {d : Dialect} {r : Reader} (h : Reader.of d = .ok r) : r.IsTidy := by
  cases d <;> cases h
  · exact ⟨.mysql_version, .mysql_databases, .mysql_tables, .mysql_columns, .mysql_foreignKeys⟩
  · exact ⟨.postgres_version, .postgres_databases, fun _ => .postgres_tables,
      fun _ => .postgres_columns, fun _ => .postgres_foreignKeys⟩
  · exact ⟨.sqlite_version, .pure _, fun _ => .sqlite_tables, fun _ => .sqlite_columns,
      fun _ => .sqlite_foreignKeys⟩

theorem Reader.IsTidy.readRows {r : Reader} (h : r.IsTidy) (database : String)
    (chosen : Option (List String)) : Tidy (readRows database chosen r) := by
  have hcolumns : ∀ names : List String,
      Tidy (names.mapM fun name => do return (name, ← r.columns database name)) :=
    .mapM fun _ => .bind (h.columns database _) fun _ => .pure _
  refine .bind (h.tables database) fun available => ?_
  dsimp only
  split
  · exact .bind (.throw _) fun _ => .bind (hcolumns _) fun _ => .bind (h.foreignKeys database _)
      fun _ => .pure _
  · exact .bind (hcolumns _) fun _ => .bind (h.foreignKeys database _) fun _ => .pure _

end Schemata.Catalog
