import Mathlib.Data.List.Perm.Basic
import Schemata.Catalog.Sqlite
import Schemata.Proofs.Plan.Names

/-!
# What foreign keys of SQLite refer to

Over a connection that answers every query from a database, a reading asks queries in an order of its own
and comes to a result (`Asks`). The foreign keys of a table are asked for with one query, and for each
column of a key that names no target the columns of the table it refers to are asked for as well
(`asks_foreignKeys`). Where a target is named, the row of the column keeps it. Where none is named, the
row refers to the first column of the primary key, whichever place in its key the column has. So a key
without targets is read as the database means it exactly if it has one column
(`foreignKeys_implicit_iff`).
-/

namespace Schemata.Catalog

/-! ## Readings of a database -/

section Asks

variable {α β : Type} {c : Query → List Row}

/-- Over a connection that answers from a database, a reading asks some queries, one after the other, and
comes to a result. -/
def Asks (c : Query → List Row) (x : Reading α) (qs : List Query) (a : α) : Prop :=
  ∀ (w : Wire) (rest : List Answer), w.answers = qs.map (fun q => .rows (c q)) ++ rest →
    ∃ w', x.run.run w = (.ok a, w') ∧ w'.answers = rest ∧ w'.asked = w.asked ++ qs

namespace Asks

theorem pure (a : α) : Asks c (pure a) [] a :=
  fun w _ hw => ⟨w, rfl, hw, (List.append_nil _).symm⟩

theorem lift {x : Except Failure α} {a : α} (h : x = .ok a) : Asks c (liftM x) [] a :=
  fun w _ hw => ⟨w, by rw [h]; rfl, hw, (List.append_nil _).symm⟩

theorem bind {x : Reading α} {f : α → Reading β} {qs qs' : List Query} {a : α} {b : β}
    (hx : Asks c x qs a) (hf : Asks c (f a) qs' b) : Asks c (x >>= f) (qs ++ qs') b := by
  intro w rest hw
  rw [List.map_append, List.append_assoc] at hw
  obtain ⟨v, hrun, hanswers, hasked⟩ := hx w _ hw
  obtain ⟨w', hrun', hanswers', hasked'⟩ := hf v rest hanswers
  refine ⟨w', ?_, hanswers', by rw [hasked', hasked, List.append_assoc]⟩
  rw [ExceptT.run_bind, StateT.run_bind, hrun]
  exact hrun'

theorem bind_nil {x : Reading α} {f : α → Reading β} {qs : List Query} {a : α} {b : β}
    (hx : Asks c x qs a) (hf : Asks c (f a) [] b) : Asks c (x >>= f) qs b := by
  rw [← List.append_nil qs]
  exact hx.bind hf

theorem map {x : Reading α} {qs : List Query} {a : α} (hx : Asks c x qs a) (f : α → β) :
    Asks c (f <$> x) qs (f a) := by
  rw [map_eq_pure_bind]
  exact hx.bind_nil (pure (f a))

theorem bind_lift {x : Except Failure α} {f : α → Reading β} {qs : List Query} {a : α} {b : β}
    (hx : x = .ok a) (hf : Asks c (f a) qs b) : Asks c (liftM x >>= f) qs b := (lift hx).bind hf

theorem ask (q : Query) : Asks c (Reading.ask q) [q] (c q) := by
  rintro ⟨answers, asked, cursors, closed, closing⟩ rest rfl
  exact ⟨_, rfl, rfl, rfl⟩

/-- Items that are read as what they stand for are read so one after the other. -/
theorem mapM {γ : Type} {R : α → γ → Prop} {f : α → Reading β} {qs : γ → List Query} {g : γ → β}
    {l : List α} {ps : List γ} (h : List.Forall₂ R l ps)
    (hf : ∀ a, ∀ p ∈ ps, R a p → Asks c (f a) (qs p) (g p)) :
    Asks c (l.mapM f) (ps.flatMap qs) (ps.map g) := by
  induction h with
  | nil => exact pure []
  | @cons a p l ps hap _ ih =>
    rw [List.mapM_cons, List.flatMap_cons, List.map_cons]
    have hrest := ih fun a p hp => hf a p (List.mem_cons_of_mem _ hp)
    exact (hf a p List.mem_cons_self hap).bind (hrest.bind_nil (pure _))

end Asks

end Asks

namespace Sqlite

/-! ## The catalog -/

/-- A column of a foreign key: the number of the key in its table, the place of the column in the key,
counted from zero, and what it refers to. The target is empty if none is named. -/
structure KeyPart where
  id : Nat
  seq : Nat
  column : String
  referencedTable : String
  target : String
  updateRule : Option String
  deleteRule : Option String
  deriving DecidableEq

/-- A column of a table and its place in the primary key, counted from one; zero if it is not in it. -/
structure KeyColumn where
  name : String
  place : Nat
  deriving DecidableEq

/-- A row of `foreign_key_list`. -/
structure KeyPart.IsListed (r : Row) (p : KeyPart) : Prop where
  id : r.value "id" = .ok (.int p.id)
  seq : r.value "seq" = .ok (.int p.seq)
  column : r.text "from" = .ok p.column
  referencedTable : r.text "table" = .ok p.referencedTable
  target : r.givenText "to" = .ok p.target
  updateRule : r.text? "on_update" = .ok p.updateRule
  deleteRule : r.text? "on_delete" = .ok p.deleteRule

/-- A row of `table_info`. -/
structure KeyColumn.IsListed (r : Row) (k : KeyColumn) : Prop where
  name : r.text "name" = .ok k.name
  place : r.value "pk" = .ok (.int k.place)

/-- What a database says about foreign keys and primary keys, by the names of the tables. -/
structure KeyCatalog where
  parts : String → List KeyPart
  columns : String → List KeyColumn

def pragmaQuery (word name : String) : Query :=
  ⟨"PRAGMA " ++ word ++ "(" ++ Naming.quote .sqlite name ++ ")", []⟩

namespace KeyCatalog

variable (k : KeyCatalog)

/-- A database says this about the foreign keys of some tables and the tables they refer to. -/
structure IsHeld (c : Query → List Row) (tables : List String) : Prop where
  parts : ∀ t ∈ tables,
    List.Forall₂ KeyPart.IsListed (c (pragmaQuery "foreign_key_list" t)) (k.parts t)
  columns : ∀ t ∈ tables, ∀ p ∈ k.parts t, List.Forall₂ KeyColumn.IsListed
    (c (pragmaQuery "table_info" p.referencedTable)) (k.columns p.referencedTable)

/-- The columns of a foreign key of a table. -/
def key (t : String) (id : Nat) : List KeyPart := (k.parts t).filter (·.id = id)

/-- The column at a place of the primary key of a table. -/
def keyColumn? (t : String) (place : Nat) : Option String :=
  ((k.columns t).find? (·.place = place)).map (·.name)

/-- The row of a column of a foreign key that refers to a column. -/
def keyRow (t : String) (p : KeyPart) (referencedColumn : String) : ForeignKeyRow where
  table := t
  column := p.column
  referencedTable := p.referencedTable
  referencedColumn := referencedColumn
  updateRule := p.updateRule
  deleteRule := p.deleteRule
  constraint := if 1 < (k.key t p.id).length then some (keyName t (.int p.id)) else none

/-- What a column of a foreign key is read as. -/
def keyRow? (t : String) (p : KeyPart) : Option ForeignKeyRow :=
  (if p.target = "" then k.keyColumn? p.referencedTable 1 else some p.target).map (k.keyRow t p)

/-- What the foreign keys of a table are read as. -/
def keyRows (t : String) : List ForeignKeyRow := (k.parts t).filterMap (k.keyRow? t)

/-- A column of a foreign key is read as one that refers to the column at a place of the primary key. -/
def References (t : String) (p : KeyPart) (place : Nat) : Prop :=
  ∃ row, k.keyRow? t p = some row ∧ k.keyColumn? p.referencedTable place = some row.referencedColumn

/-- A foreign key of some columns that names no targets, and refers to a table whose primary key has as
many columns. -/
structure IsImplicit (t : String) (id : Nat) (referenced : String) (n : Nat) : Prop where
  seqs : ((k.key t id).map (·.seq)).Perm (List.range n)
  referencedTable : ∀ p ∈ k.key t id, p.referencedTable = referenced
  target : ∀ p ∈ k.key t id, p.target = ""
  places : (((k.columns referenced).map (·.place)).filter (0 < ·)).Perm (List.range' 1 n)
  nodup_names : ((k.columns referenced).map (·.name)).Nodup

/-- What is asked about a column of a foreign key. -/
def partQueries (p : KeyPart) : List Query :=
  if p.target = "" then [pragmaQuery "table_info" p.referencedTable] else []

/-- What is asked about the foreign keys of a table. -/
def keyQueries (t : String) : List Query :=
  pragmaQuery "foreign_key_list" t :: (k.parts t).flatMap partQueries

end KeyCatalog

/-! ## The reading -/

section Reading

variable {c : Query → List Row} {k : KeyCatalog}

theorem isOne_int (n : Nat) : isOne (.int n) = decide (n = 1) := by
  have : (n : Int) = 1 ↔ n = 1 := by omega
  simp [isOne, this]

/-- Among the rows of the columns of a table the first one that is first in the primary key is found. -/
theorem exists_firstKeyRow? {rows : List Row} {columns : List KeyColumn}
    (h : List.Forall₂ KeyColumn.IsListed rows columns) : ∃ row?, firstKeyRow? rows = .ok row? ∧
      Option.Rel KeyColumn.IsListed row? (columns.find? (·.place = 1)) := by
  induction h with
  | nil => exact ⟨none, rfl, .none⟩
  | @cons r column rows columns hr _ ih =>
    have hstep : firstKeyRow? (r :: rows) =
        if column.place = 1 then .ok (some r) else firstKeyRow? rows := by
      have hone := isOne_int column.place
      simp only [firstKeyRow?, hr.place]
      show (if isOne (.int column.place) = true then _ else _) = _
      simp only [hone, decide_eq_true_eq]
      rfl
    rw [hstep]
    by_cases hplace : column.place = 1
    · rw [if_pos hplace, List.find?_cons_of_pos (by simpa using hplace)]
      exact ⟨some r, rfl, .some hr⟩
    · rw [if_neg hplace, List.find?_cons_of_neg (by simpa using hplace)]
      exact ih

theorem asText_eq_ok {j : Json} {s : String} (h : asText j = .ok s) : j = .str s := by
  cases j with
  | str t => rw [Except.ok.inj h]
  | _ => cases h

/-- A text that is there is the text that may be there. -/
theorem text?_of_text {r : Row} {column s : String} (h : r.text column = .ok s) :
    r.text? column = .ok (some s) := by
  unfold Row.text at h
  unfold Row.text?
  cases hvalue : r.value column with
  | error f => rw [hvalue] at h; cases h
  | ok j =>
    rw [hvalue] at h
    rw [asText_eq_ok h]
    rfl

theorem asks_keyColumn? {t : String}
    (h : List.Forall₂ KeyColumn.IsListed (c (pragmaQuery "table_info" t)) (k.columns t)) :
    Asks c (Sqlite.keyColumn? t) [pragmaQuery "table_info" t] (k.keyColumn? t 1) := by
  obtain ⟨row?, hfirst, hrel⟩ := exists_firstKeyRow? h
  refine (Asks.ask (pragmaQuery "table_info" t)).bind (Asks.bind_lift hfirst ?_)
  rw [KeyCatalog.keyColumn?]
  generalize (k.columns t).find? (·.place = 1) = column? at hrel
  cases hrel with
  | none => exact .pure none
  | some hr => exact .lift (text?_of_text hr.name)

/-- What is given as a text is one, and what is not given counts as the empty one. -/
theorem givenText_eq_ok {r : Row} {column s : String} (h : r.givenText column = .ok s) :
    ∃ j, r.value column = .ok j ∧
      (s = "" ∧ j.isGiven = false ∨ s ≠ "" ∧ j.isGiven = true ∧ asText j = .ok s) := by
  unfold Row.givenText at h
  cases hvalue : r.value column with
  | error f => rw [hvalue] at h; cases h
  | ok j =>
    rw [hvalue] at h
    replace h : asGivenText j = .ok s := h
    refine ⟨j, rfl, ?_⟩
    unfold asGivenText at h
    cases hgiven : j.isGiven with
    | false =>
      rw [hgiven] at h
      exact .inl ⟨(Except.ok.inj h).symm, rfl⟩
    | true =>
      rw [hgiven, if_pos rfl] at h
      refine .inr ⟨?_, rfl, h⟩
      rintro rfl
      rw [asText_eq_ok h] at hgiven
      cases hgiven

theorem asks_foreignKeyRow? {t : String} {p : KeyPart} {ids : List String} {r : Row} (hr : p.IsListed r)
    (hcolumns : List.Forall₂ KeyColumn.IsListed (c (pragmaQuery "table_info" p.referencedTable))
      (k.columns p.referencedTable))
    (hids : ids.count (Json.int p.id).shown = (k.key t p.id).length) :
    Asks c (foreignKeyRow? t ids r) (KeyCatalog.partQueries p) (k.keyRow? t p) := by
  obtain ⟨j, hvalue, hj⟩ := givenText_eq_ok hr.target
  refine .bind_lift hvalue ?_
  rw [KeyCatalog.keyRow?, KeyCatalog.partQueries]
  have hrow : ∀ referencedColumn, Asks c (do
      let id ← r.value "id"
      return some {
        table := t
        column := ← r.text "from"
        referencedTable := ← r.text "table"
        referencedColumn
        updateRule := ← r.text? "on_update"
        deleteRule := ← r.text? "on_delete"
        constraint := if 1 < ids.count id.shown then some (keyName t id) else none }) []
      (some ((k.keyRow t p) referencedColumn)) := fun _ =>
    .bind_lift hr.id <| .bind_lift hr.column <| .bind_lift hr.referencedTable <|
      .bind_lift hr.updateRule <| .bind_lift hr.deleteRule <| by
        rw [hids]
        exact .pure _
  obtain ⟨hempty, hgiven⟩ | ⟨hnamed, hgiven, htext⟩ := hj
  · rw [if_neg (by simp [hgiven]), if_pos hempty, if_pos hempty]
    refine .bind_lift hr.referencedTable ((asks_keyColumn? hcolumns).bind_nil ?_)
    cases k.keyColumn? p.referencedTable 1 with
    | none => exact .pure none
    | some referencedColumn => exact hrow referencedColumn
  · rw [if_pos hgiven, if_neg hnamed, if_neg hnamed]
    exact ((Asks.lift htext).map some).bind_nil (hrow p.target)

theorem shown_inj {m n : Nat} (h : (Json.int m).shown = (Json.int n).shown) : m = n := by
  have htext : ∀ n : Nat, (Json.int n).shown = Text.natText n := intText_natCast
  rw [htext, htext] at h
  exact natText_inj h

/-- The foreign keys of a table are asked for with one query, and with another one for each of their
columns that names no target. -/
theorem asks_foreignKeysOf {tables : List String} (h : k.IsHeld c tables) {t : String}
    (ht : t ∈ tables) : Asks c (foreignKeysOf t) (k.keyQueries t) (k.keyRows t) := by
  have hparts := h.parts t ht
  have hids : Asks c ((c (pragmaQuery "foreign_key_list" t)).mapM fun r => do
      return (← r.value "id").shown) [] ((k.parts t).map fun p => (Json.int p.id).shown) := by
    have hnone : (k.parts t).flatMap (fun _ => ([] : List Query)) = [] := by simp
    rw [← hnone]
    exact Asks.mapM hparts fun r p _ hr => .bind_lift hr.id (.pure _)
  have hcount : ∀ p ∈ k.parts t, ((k.parts t).map fun p => (Json.int p.id).shown).count
      (Json.int p.id).shown = (k.key t p.id).length := by
    intro p _
    rw [List.count, List.countP_map, KeyCatalog.key, ← List.countP_eq_length_filter]
    refine List.countP_congr fun q _ => ?_
    simpa using ⟨shown_inj, fun hid => by rw [hid]⟩
  have hrows := Asks.mapM hparts fun r p hp hr => asks_foreignKeyRow? hr (h.columns t ht p hp)
    (hcount p hp)
  have hkeys : k.keyRows t = ((k.parts t).map (k.keyRow? t)).filterMap id := by
    rw [List.filterMap_map]
    rfl
  rw [hkeys, KeyCatalog.keyQueries]
  exact (Asks.ask (pragmaQuery "foreign_key_list" t)).bind (hids.bind (hrows.bind_nil (.pure _)))

/-- The foreign keys of some tables are read table by table. -/
theorem asks_foreignKeys {tables : List String} (h : k.IsHeld c tables) :
    Asks c (foreignKeys tables) (tables.flatMap k.keyQueries) (tables.flatMap k.keyRows) := by
  rw [List.flatMap_def (f := k.keyRows)]
  refine Asks.bind_nil (Asks.mapM (List.forall₂_same.2 fun t _ => Eq.refl t) ?_) (.pure _)
  rintro _ t ht rfl
  exact asks_foreignKeysOf h ht

end Reading

/-! ## Keys without targets -/

namespace KeyCatalog

variable {k : KeyCatalog} {t referenced : String} {id n : Nat}

theorem keyRow?_of_target {p : KeyPart} (hp : p.target ≠ "") :
    k.keyRow? t p = some (k.keyRow t p p.target) := by
  rw [keyRow?, if_neg hp]
  rfl

theorem keyRow?_of_implicit {p : KeyPart} (hp : p.target = "") :
    k.keyRow? t p = (k.keyColumn? p.referencedTable 1).map (k.keyRow t p) := by
  rw [keyRow?, if_pos hp]

/-- A column that names no target refers to the column at a place exactly if that is the first one. -/
theorem references_iff {p : KeyPart} (hp : p.target = "") (place : Nat) :
    k.References t p place ↔ ∃ name, k.keyColumn? p.referencedTable 1 = some name ∧
      k.keyColumn? p.referencedTable place = some name := by
  rw [References, keyRow?_of_implicit hp]
  constructor
  · rintro ⟨row, hrow, hplace⟩
    obtain ⟨name, hname, rfl⟩ := Option.map_eq_some_iff.1 hrow
    exact ⟨name, hname, hplace⟩
  · rintro ⟨name, hname, hplace⟩
    exact ⟨k.keyRow t p name, Option.map_eq_some_iff.2 ⟨name, hname, rfl⟩, hplace⟩

theorem IsImplicit.exists_keyColumn? (h : k.IsImplicit t id referenced n) {place : Nat}
    (hplace : 1 ≤ place) (hn : place ≤ n) : ∃ name, k.keyColumn? referenced place = some name := by
  have hmem : place ∈ ((k.columns referenced).map (·.place)).filter (0 < ·) := by
    rw [h.places.mem_iff, List.mem_range'_1]
    omega
  obtain ⟨column, hcolumn, rfl⟩ := List.mem_map.1 (List.mem_of_mem_filter hmem)
  have hfound : ((k.columns referenced).find? (·.place = column.place)).isSome := by
    rw [List.find?_isSome]
    exact ⟨column, hcolumn, by simp⟩
  obtain ⟨found, hfound⟩ := Option.isSome_iff_exists.1 hfound
  exact ⟨found.name, by rw [keyColumn?, hfound]; rfl⟩

/-- Different places of a primary key have different columns. -/
theorem IsImplicit.place_inj (h : k.IsImplicit t id referenced n) {i j : Nat} {name : String}
    (hi : k.keyColumn? referenced i = some name) (hj : k.keyColumn? referenced j = some name) :
    i = j := by
  obtain ⟨x, hx, hxname⟩ := Option.map_eq_some_iff.1 hi
  obtain ⟨y, hy, hyname⟩ := Option.map_eq_some_iff.1 hj
  have hxy : x = y := List.inj_on_of_nodup_map h.nodup_names (List.mem_of_find?_eq_some hx)
    (List.mem_of_find?_eq_some hy) (hxname.trans hyname.symm)
  have hxi : x.place = i := by simpa using List.find?_some hx
  have hyj : y.place = j := by simpa using List.find?_some hy
  rw [← hxi, ← hyj, hxy]

theorem IsImplicit.references_first (h : k.IsImplicit t id referenced n) :
    ∀ p ∈ k.key t id, k.References t p 1 := by
  intro p hp
  have hseq : p.seq < n := List.mem_range.1 (h.seqs.mem_iff.1 (List.mem_map_of_mem hp))
  obtain ⟨name, hname⟩ := h.exists_keyColumn? (le_refl 1) (by omega)
  rw [← h.referencedTable p hp] at hname
  exact (references_iff (h.target p hp) 1).2 ⟨name, hname, hname⟩

/-- Each column of a key without targets is read as a row. -/
theorem IsImplicit.length_keyRows (h : k.IsImplicit t id referenced n) :
    ((k.key t id).filterMap (k.keyRow? t)).length = n := by
  have hsome : ∀ p ∈ k.key t id, (k.keyRow? t p).isSome := fun p hp => by
    obtain ⟨row, hrow, -⟩ := h.references_first p hp
    rw [hrow]
    rfl
  have hlength := h.seqs.length_eq
  rw [List.length_map, List.length_range] at hlength
  rw [List.length_filterMap_eq_countP, List.countP_eq_length.2 hsome, hlength]

/-- The columns of a key without targets refer to those of the primary key in order exactly if there is
no second one. -/
theorem IsImplicit.references_in_order_iff (h : k.IsImplicit t id referenced n) :
    (∀ p ∈ k.key t id, k.References t p (p.seq + 1)) ↔ n ≤ 1 := by
  constructor
  · intro hall
    by_contra hn
    obtain ⟨p, hp, hseq⟩ := List.mem_map.1 (h.seqs.mem_iff.2 (List.mem_range.2 (show 1 < n by omega)))
    obtain ⟨name, hfirst, hsecond⟩ := (references_iff (h.target p hp) _).1 (hall p hp)
    rw [h.referencedTable p hp] at hfirst hsecond
    have := h.place_inj hfirst hsecond
    omega
  · intro hn p hp
    have hseq : p.seq < n := List.mem_range.1 (h.seqs.mem_iff.1 (List.mem_map_of_mem hp))
    obtain hzero : p.seq = 0 := by omega
    rw [hzero]
    exact h.references_first p hp

end KeyCatalog

/-- The foreign keys of any tables are read, and each column of a key that names a target keeps it. A key
that names none has a row for each of its columns, and all of them refer to the first column of the
primary key; so they follow the order of the primary key exactly if there is no second one. -/
theorem foreignKeys_implicit_iff {c : Query → List Row} {k : KeyCatalog} {tables : List String}
    (h : k.IsHeld c tables) :
    Asks c (foreignKeys tables) (tables.flatMap k.keyQueries) (tables.flatMap k.keyRows) ∧
      (∀ t, ∀ p ∈ k.parts t, p.target ≠ "" → k.keyRow? t p = some (k.keyRow t p p.target)) ∧
      ∀ t id referenced n, k.IsImplicit t id referenced n →
        ((k.key t id).filterMap (k.keyRow? t)).Sublist (k.keyRows t) ∧
        ((k.key t id).filterMap (k.keyRow? t)).length = n ∧
        (∀ p ∈ k.key t id, k.References t p 1) ∧
        ((∀ p ∈ k.key t id, k.References t p (p.seq + 1)) ↔ n ≤ 1) := by
  refine ⟨asks_foreignKeys h, fun t p _ htarget => KeyCatalog.keyRow?_of_target htarget,
    fun t id referenced n hkey => ⟨?_, hkey.length_keyRows, hkey.references_first,
      hkey.references_in_order_iff⟩⟩
  exact List.filter_sublist.filterMap _

/-- A key over two columns that refers to a table whose primary key has two columns as well. -/
def calls : KeyCatalog where
  parts _ := [⟨0, 0, "harbor", "visits", "", some "CASCADE", none⟩,
    ⟨0, 1, "ship", "visits", "", some "CASCADE", none⟩]
  columns _ := [⟨"port", 1⟩, ⟨"vessel", 2⟩, ⟨"days", 0⟩]

def callsRows (q : Query) : List Row :=
  if q = pragmaQuery "foreign_key_list" "calls" then
    [[("id", .int 0), ("seq", .int 0), ("table", .str "visits"), ("from", .str "harbor"), ("to", .null),
      ("on_update", .str "CASCADE"), ("on_delete", .null)],
    [("id", .int 0), ("seq", .int 1), ("table", .str "visits"), ("from", .str "ship"), ("to", .null),
      ("on_update", .str "CASCADE"), ("on_delete", .null)]]
  else
    [[("name", .str "port"), ("pk", .int 1)], [("name", .str "vessel"), ("pk", .int 2)],
      [("name", .str "days"), ("pk", .int 0)]]

/-- Both columns of the key are read as ones that refer to the first column of the primary key. -/
theorem foreignKeys_implicit_iff_calls :
    calls.IsHeld callsRows ["calls"] ∧ calls.IsImplicit "calls" 0 "visits" 2 ∧
      Asks callsRows (foreignKeys ["calls"])
        [pragmaQuery "foreign_key_list" "calls", pragmaQuery "table_info" "visits",
          pragmaQuery "table_info" "visits"]
        [⟨"calls", "harbor", "visits", "port", some "CASCADE", none, some "calls_fk_0"⟩,
          ⟨"calls", "ship", "visits", "port", some "CASCADE", none, some "calls_fk_0"⟩] ∧
      ¬∀ p ∈ calls.key "calls" 0, calls.References "calls" p (p.seq + 1) := by
  have hparts : List.Forall₂ KeyPart.IsListed (callsRows (pragmaQuery "foreign_key_list" "calls"))
      (calls.parts "calls") :=
    .cons ⟨rfl, rfl, rfl, rfl, rfl, rfl, rfl⟩ (.cons ⟨rfl, rfl, rfl, rfl, rfl, rfl, rfl⟩ .nil)
  have hcolumns : List.Forall₂ KeyColumn.IsListed (callsRows (pragmaQuery "table_info" "visits"))
      (calls.columns "visits") :=
    .cons ⟨rfl, rfl⟩ (.cons ⟨rfl, rfl⟩ (.cons ⟨rfl, rfl⟩ .nil))
  have hheld : calls.IsHeld callsRows ["calls"] := by
    refine ⟨fun t ht => ?_, fun t _ p hp => ?_⟩
    · rw [List.mem_singleton.1 ht]
      exact hparts
    · obtain rfl | rfl : p = _ ∨ p = _ := by simpa [calls] using hp
      all_goals exact hcolumns
  have hkey : calls.IsImplicit "calls" 0 "visits" 2 :=
    ⟨.refl _, by decide, by decide, .refl _, by decide⟩
  obtain ⟨hasks, -, hiff⟩ := foreignKeys_implicit_iff hheld
  refine ⟨hheld, hkey, hasks, fun hall => ?_⟩
  exact absurd ((hiff _ _ _ _ hkey).2.2.2.1 hall) (by decide)

end Sqlite

end Schemata.Catalog
