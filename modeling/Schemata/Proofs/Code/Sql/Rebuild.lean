import Schemata.Proofs.Code.Files
import Schemata.Proofs.Code.Sql.Database

/-!
# Rebuilding keeps rows

SQLite cannot change the keys of a table, so the table is made anew under a temporary name and put in
the place of the old one. Run on a database (`run_rebuild`), the statements for it leave every table
with its columns and rows, except that there is no table with the temporary name afterwards. The
columns copied are all those of the table (`map_name_typedColumns`), each once.

`renews_created` says so for the files of a plan: whatever file attaches or detaches keys renews what
the file that creates the table has created. `run_attachments` is its consequence for many such files
one after another, in plans in which no table has a temporary name. In other plans such a table is
lost (`renews_created_shadow`).
-/

namespace Schemata.Code.Sql

/-- Whatever a table is called, its temporary name is another one. -/
theorem nameKey_rebuildName_ne (t : Table) : nameKey (rebuildName t) ≠ nameKey t.name := by
  intro h
  have hlen := congrArg List.length h
  simp only [nameKey, rebuildName, List.length_map, String.toList_append, List.length_append] at hlen
  have hrest : 0 < "__rebuild".toList.length := by decide
  omega

section Run

variable {V : Type} (unset : String → V)

theorem run_header (verb : String) (t : Task) (s : Script) (db : Database V) :
    run unset (header verb t ++ s) db = run unset s db :=
  rfl

theorem run_indexStatements (e : Engine) (o : Options) {t : Table} {db : Database V} {d : Stored V}
    (hd : db (nameKey t.name) = some d) : run unset (indexStatements e o t) db = some db := by
  unfold indexStatements
  split
  · rfl
  · induction namedIndexes o t with
    | nil => rfl
    | cons i l ih => rwa [List.map_cons, run_cons, exec_createIndex unset hd]

/-- Making a table anew leaves all tables as they are, except that there is none with the temporary
name any more. -/
theorem run_rebuild (o : Options) {t : Table} {columns : List (Field × Rendered)} (edges : List Edge)
    {db : Database V} {d : Stored V} (hd : db (nameKey t.name) = some d)
    (hcolumns : d.columns = columns.map (·.1.name)) :
    run unset (rebuild .sqlite o t columns edges) db =
      some (Function.update db (nameKey (rebuildName t)) none) := by
  have hne := nameKey_rebuildName_ne t
  have hnames : columnNames (clauses .sqlite o t columns edges) = d.columns := by
    rw [columnNames_clauses, hcolumns]
  -- the database with something or nothing as the temporary table
  let db' := Function.update db (nameKey (rebuildName t))
  have htable : ∀ x, db' x (nameKey t.name) = some d := fun x => by
    rw [← hd]
    exact Function.update_of_ne hne.symm _ _
  have htemp : ∀ x, db' x (nameKey (rebuildName t)) = x := fun x => Function.update_self ..
  have hset : ∀ x y, Function.update (db' x) (nameKey (rebuildName t)) y = db' y := fun x y =>
    Function.update_idem ..
  have hmake : exec unset (.createTable false (rebuildName t)
      (clauses .sqlite o t columns edges) none) (db' none) =
        some (db' (some (.empty d.columns d.columns_ne_nil d.nodup_columns))) := by
    rw [exec_createTable unset (htemp none) (hnames ▸ d.columns_ne_nil)
      (hnames ▸ d.nodup_columns), hset]
    simp only [hnames]
  have hcopy : exec unset (.copyRows (columns.map (·.1.name)) t.name (rebuildName t))
      (db' (some (.empty d.columns d.columns_ne_nil d.nodup_columns))) = some (db' (some d)) := by
    rw [← hcolumns, exec_copyRows unset (htable _) (htemp _), hset]
  have hdrop : exec unset (.dropTable false t.name) (db' (some d)) =
      some (Function.update (db' (some d)) (nameKey t.name) none) :=
    exec_dropTable unset (htable _)
  have hsame : Function.update (db' (some d)) (nameKey t.name) (some d) = db' (some d) :=
    Function.update_eq_self_iff.2 (htable (some d)).symm
  have hrename : exec unset (.renameTable (rebuildName t) t.name)
      (Function.update (db' (some d)) (nameKey t.name) none) = some (db' none) := by
    rw [exec_renameTable unset ((Function.update_of_ne hne _ _).trans (htemp _))
      (Function.update_self ..), Function.update_comm hne, Function.update_idem, hsame,
      hset]
  have hmoved : run unset [.checkKeys false, .begin, .dropTable true (rebuildName t),
      .createTable false (rebuildName t) (clauses .sqlite o t columns edges) none,
      .copyRows (columns.map (·.1.name)) t.name (rebuildName t),
      .dropTable false t.name, .renameTable (rebuildName t) t.name] db = some (db' none) := by
    show run unset (.dropTable true (rebuildName t) :: _) db = _
    rw [run_cons, exec_dropTable_guarded, Option.bind_some, run_cons, hmake, Option.bind_some,
      run_cons, hcopy, Option.bind_some, run_cons, hdrop, Option.bind_some, run_cons, hrename]
    rfl
  rw [rebuild, run_append, run_append, hmoved, Option.bind_some,
    run_indexStatements unset .sqlite o (htable none)]
  rfl

end Run

/-! ## Columns -/

theorem map_name_typedColumns (e : Engine) (o : Options) (t : Table) :
    (typedColumns e o t).value.map (·.1.name) = t.fields.map Field.name ++ o.addedNames t := by
  unfold typedColumns Options.addedFields
  simp only [Noted.value_bind, Noted.value_pure, Noted.value_mapM, List.map_append, List.map_map,
    Function.comp_def]
  rw [show (fun n => (Options.addedField t n).name) = id from rfl, List.map_id]

/-- A table is given no column of a name that it has. -/
theorem nodup_append_addedNames (o : Options) {t : Table} (h : (t.fields.map Field.name).Nodup) :
    (t.fields.map Field.name ++ o.addedNames t).Nodup := by
  have hnew : ∀ n, t.fieldByName? n = none → n ∉ t.fields.map Field.name := by
    intro n hn hmem
    obtain ⟨f, hf, rfl⟩ := List.mem_map.1 hmem
    simpa using List.find?_eq_none.1 hn f hf
  refine List.nodup_append'.2 ⟨h, ?_, ?_⟩
  · unfold Options.addedNames
    split <;> split <;> decide
  · rw [List.disjoint_comm]
    intro n hn
    refine hnew n ?_
    obtain hn | hn := List.mem_append.1 hn
    · split at hn
      · next hadds =>
        simp only [Options.addsTimestamps, Bool.and_eq_true, Bool.not_eq_true', List.any_eq_false,
          Option.not_isSome_iff_eq_none] at hadds
        exact hadds.2 n hn
      · cases hn
    · split at hn
      · next hadds =>
        simp only [Options.addsSoftDelete, Bool.and_eq_true, Option.isNone_iff_eq_none] at hadds
        rw [List.mem_singleton.1 hn]
        exact hadds.2
      · cases hn

/-! ## The files of a plan -/

/-- A script makes the table that another one has created anew, with the same clauses before its
keys, the same columns copied, and the same indexes. In a database that has the table as created, it
succeeds, and afterwards every table but the temporary one is there with the rows that it had. -/
structure Renews (created s : Script) (t : Table) : Prop where
  rebuilds : ∃ made keys, created.filterMap Statement.made? = [(t.name, made)] ∧
    (columnNames made).Nodup ∧ Rebuilds s t made keys
  indexes_eq : s.filterMap Statement.index? = created.filterMap Statement.index?
  run_eq : ∀ {V : Type} (unset : String → V) {db : Database V} {d : Stored V},
    db (nameKey t.name) = some d →
    (created.filterMap Statement.made?).map (fun m => columnNames m.2) = [d.columns] →
    run unset s db = some (Function.update db (nameKey (rebuildName t)) none)

/-- The scripts for the keys of a table make the table anew. -/
theorem exists_rebuild {o : Options} {t : Task} (ht : t.phase = .attachForeignKeys) {s : Script}
    (hs : s = script .sqlite o t ∨ s = undoScript .sqlite o t) :
    ∃ verb edges, s = header verb t ++
      rebuild .sqlite o t.table (typedColumns .sqlite o t.table).value edges := by
  obtain rfl | rfl := hs
  · exact ⟨_, _, script_of_attach ht .sqlite o⟩
  · exact ⟨_, _, undoScript_of_attach ht .sqlite o⟩

theorem renews_script {o : Options} {t c : Task} (htable : t.table = c.table)
    (ht : t.phase = .attachForeignKeys) (hc : c.phase = .createTable)
    (hfields : (c.table.fields.map Field.name).Nodup) {s : Script}
    (hs : s = script .sqlite o t ∨ s = undoScript .sqlite o t) :
    Renews (script .sqlite o c) s c.table := by
  obtain ⟨verb, edges, rfl⟩ := exists_rebuild ht hs
  rw [htable]
  have hmade := made_script .sqlite o hc
  refine ⟨⟨_, _, hmade, ?_, rebuilds_rebuild ..⟩, ?_, ?_⟩
  · rw [columnNames_clauses, map_name_typedColumns]
    exact nodup_append_addedNames o hfields
  · rw [script_of_create hc, indexes_rebuild, filterMap_create passesNotes_index?]
    rfl
  · intro V unset db d hd hcolumns
    rw [hmade, List.map_singleton, columnNames_clauses] at hcolumns
    rw [run_header]
    exact run_rebuild unset o edges hd (List.singleton_inj.1 hcolumns).symm

variable {tables : List Table} {edges : List Edge} {base : Instant} {step : Int} {p : Plan}

/-- A file that attaches or detaches keys has one of the two scripts for the keys of its table. -/
theorem exists_script (h : Plan.order tables edges base step = .ok p) {o : Options} {f : Artifact}
    (hf : f ∈ (render (.sql .sqlite) o p).value ++ (renderRollback (.sql .sqlite) o p).value)
    (hphase : f.phase = .attachForeignKeys) :
    ∃ t ∈ p.tasks, t.phase = .attachForeignKeys ∧ t.table.name = f.table ∧
      ∃ s, (s = script .sqlite o t ∨ s = undoScript .sqlite o t) ∧ f.content = s.text .sqlite := by
  have hascends := Plan.ascends_orderBy h
  rw [value_render hascends, value_renderRollback hascends] at hf
  obtain hf | hf := List.mem_append.1 hf
  · obtain ⟨t, ht, rfl⟩ := List.mem_map.1 hf
    exact ⟨t, List.mem_of_mem_filter ht, hphase, rfl, _, .inl rfl, value_content .sqlite o t⟩
  · obtain ⟨t, ht, rfl⟩ := List.mem_map.1 hf
    exact ⟨t, List.mem_of_mem_filter (List.mem_reverse.1 ht), hphase, rfl, _, .inr rfl,
      value_rollbackContent .sqlite o t⟩

/-- Every file of a plan that makes a table anew in SQLite, be it to attach keys or to detach them,
renews what the file that created the table has created. -/
theorem renews_created (h : Plan.order tables edges base step = .ok p)
    (hnames : (tables.map Table.name).Nodup)
    (hfields : ∀ t ∈ tables, (t.fields.map Field.name).Nodup) (o : Options) :
    ∀ f ∈ (render (.sql .sqlite) o p).value ++ (renderRollback (.sql .sqlite) o p).value,
      f.phase = .attachForeignKeys → ∃ s : Script, f.content = s.text .sqlite ∧
        (∃ c ∈ p.tasks, c.phase = .createTable ∧ c.table.name = f.table) ∧
        ∀ c ∈ p.tasks, c.phase = .createTable → c.table.name = f.table →
          taskFile (.sql .sqlite) o c ∈ (render (.sql .sqlite) o p).value ∧
          (taskFile (.sql .sqlite) o c).content = (script .sqlite o c).text .sqlite ∧
          Renews (script .sqlite o c) s c.table := by
  intro f hf hphase
  obtain ⟨t, ht, hphase, hname, s, hs, hcontent⟩ := exists_script h hf hphase
  rw [← hname]
  have htable := (Plan.task_of_orderBy h ht).1
  obtain ⟨c, hc, hcreates, hct⟩ := Plan.exists_create h htable
  refine ⟨s, hcontent, ⟨c, hc, hcreates, congrArg Table.name hct⟩, fun c hc hcreates hct => ?_⟩
  have hctable := (Plan.task_of_orderBy h hc).1
  have hsame : t.table = c.table := List.inj_on_of_nodup_map hnames htable hctable hct.symm
  refine ⟨?_, value_content _ o c, renews_script hsame hphase hcreates (hfields _ hctable) hs⟩
  rw [value_render (Plan.ascends_orderBy h)]
  exact List.mem_map_of_mem (List.mem_filter.2 ⟨hc, by simp [hcreates]⟩)

/-- A table with the temporary name of posts. -/
def shadow : Table := { Plan.posts with id := "s", name := "posts__rebuild" }

/-- The plan for users, posts and the shadow of posts makes posts anew. Nothing is lost of posts, and
the shadow is lost. -/
theorem renews_created_shadow : ∃ p,
    Plan.order [Plan.users, Plan.posts, shadow] [Plan.edgeBetween "r" Plan.posts Plan.users]
      ⟨0, by decide⟩ 1 = .ok p ∧
    ∃ f ∈ (render (.sql .sqlite) {} p).value, f.phase = .attachForeignKeys ∧ f.table = "posts" ∧
      ∃ s : Script, f.content = s.text .sqlite ∧
        ∀ (V : Type) (unset : String → V) (db : Database V) (d : Stored V),
          db (nameKey "posts") = some d → d.columns = ["id"] →
          ∃ db', run unset s db = some db' ∧ db' (nameKey "posts") = some d ∧
            db' (nameKey "posts__rebuild") = none := by
  have hrun : (Plan.order [Plan.users, Plan.posts, shadow]
      [Plan.edgeBetween "r" Plan.posts Plan.users] ⟨0, by decide⟩ 1).toOption.map (fun p =>
        p.tasks.map fun t => (t.phase, t.table)) = some [(.createTable, Plan.users),
          (.createTable, Plan.posts), (.createTable, shadow),
          (.attachForeignKeys, Plan.posts)] := by decide +kernel
  obtain ⟨p, hp, htasks⟩ := exists_ok_of_toOption_map hrun
  have htask : ∀ a ∈ [(.attachForeignKeys, Plan.posts), (.createTable, Plan.posts)],
      ∃ t ∈ p.tasks, (t.phase, t.table) = a := by
    simp only [← List.mem_map, htasks]
    decide
  obtain ⟨⟨t, ht, hattach⟩, ⟨c, hc, hcreated⟩, -⟩ := by simpa only [List.forall_mem_cons] using htask
  obtain ⟨hphase, htable⟩ := Prod.mk.inj hattach
  obtain ⟨hcreates, hposts⟩ := Prod.mk.inj hcreated
  have hf : taskFile (.sql .sqlite) {} t ∈ (render (.sql .sqlite) {} p).value := by
    rw [value_render (Plan.ascends_orderBy hp)]
    exact List.mem_map_of_mem (List.mem_filter.2 ⟨ht, by simp⟩)
  obtain ⟨s, hs, -, hrenews⟩ := renews_created hp (by decide) (by decide) {} _
    (List.mem_append_left _ hf) hphase
  obtain ⟨-, -, hrenews⟩ := hrenews c hc hcreates
    (congrArg Table.name (hposts.trans htable.symm))
  rw [hposts] at hrenews
  have hcolumns : ((script .sqlite {} c).filterMap Statement.made?).map
      (fun m => columnNames m.2) = [["id"]] := by
    rw [made_script .sqlite {} hcreates, List.map_singleton, columnNames_clauses,
      map_name_typedColumns, hposts]
    decide
  refine ⟨p, hp, _, hf, hphase, congrArg Table.name htable, s, hs, fun V unset db d hd hd' => ?_⟩
  refine ⟨_, hrenews.run_eq unset hd (hcolumns.trans (by rw [hd'])), ?_, Function.update_self ..⟩
  exact (Function.update_of_ne (by decide) _ _).trans hd

/-- When no table has the temporary name of another one, the keys of a plan can be attached to all
tables and detached from them, in any order, and every table keeps its rows. -/
theorem run_attachments (h : Plan.order tables edges base step = .ok p)
    (hclash : ∀ t ∈ tables, ∀ u ∈ tables, nameKey (rebuildName t) ≠ nameKey u.name) (o : Options)
    {V : Type} (unset : String → V) {db : Database V}
    (hdb : ∀ t ∈ tables, ∃ d, db (nameKey t.name) = some d ∧
      d.columns = t.fields.map Field.name ++ o.addedNames t)
    {l : List (Task × Script)} (hl : ∀ a ∈ l, a.1 ∈ p.attachments ∧
      (a.2 = script .sqlite o a.1 ∨ a.2 = undoScript .sqlite o a.1)) :
    ∃ db', run unset (l.flatMap (·.2)) db = some db' ∧
      ∀ t ∈ tables, db' (nameKey t.name) = db (nameKey t.name) := by
  induction l generalizing db with
  | nil => exact ⟨db, rfl, fun _ _ => rfl⟩
  | cons a l ih =>
    obtain ⟨⟨ha, hs⟩, hl⟩ := List.forall_mem_cons.1 hl
    obtain ⟨ht, hphase⟩ := List.mem_filter.1 ha
    have htable := (Plan.task_of_orderBy h ht).1
    obtain ⟨verb, ks, hscript⟩ := exists_rebuild (of_decide_eq_true hphase) hs
    obtain ⟨d, hd, hcolumns⟩ := hdb _ htable
    have hkept : ∀ u ∈ tables, Function.update db (nameKey (rebuildName a.1.table)) none
        (nameKey u.name) = db (nameKey u.name) := fun u hu =>
      Function.update_of_ne (hclash _ htable u hu).symm _ _
    have hdb' : ∀ u ∈ tables, ∃ d, Function.update db (nameKey (rebuildName a.1.table)) none
        (nameKey u.name) = some d ∧ d.columns = u.fields.map Field.name ++ o.addedNames u := by
      intro u hu
      rw [hkept u hu]
      exact hdb u hu
    obtain ⟨db', hrun, hrest⟩ := ih hdb' hl
    refine ⟨db', ?_, fun u hu => (hrest u hu).trans (hkept u hu)⟩
    rw [← map_name_typedColumns .sqlite] at hcolumns
    rw [List.flatMap_cons, run_append, hscript, run_header, run_rebuild unset o ks hd hcolumns]
    exact hrun

end Schemata.Code.Sql
