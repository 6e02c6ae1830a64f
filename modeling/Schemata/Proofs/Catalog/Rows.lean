import Schemata.Catalog.Rows
import Schemata.Proofs.Column.RawType
import Schemata.Proofs.Notation.Builder

/-!
# The schema of some rows

Rows without foreign keys make up a schema if their types can be read (`outcome_toSchema`). A type
can be if each of its arguments that is made of digits is a numeral (`ColumnRow.isRead_of_hasNumerals`).
Each row is one field, its type read on its own (`ColumnRow.type`), and the enumerations are those of
the columns that list their labels, in the order of the columns.
-/

namespace Schemata.Catalog

open Text

/-! ## Fields -/

namespace ColumnRow

variable (d : Dialect) (table : String) (row : ColumnRow)

/-- Whether a row says that its column counts up. -/
def counts : Bool := row.autoIncrement || isSequenceDefault row.default

/-- The reading of the type of a column. -/
def read : Advised ColumnType :=
  ColumnType.ofRaw d row.rawType ⟨row.primaryKey, row.counts, some table, some row.name⟩

/-- Whether the type of a column can be read. -/
def isRead : Bool := (row.read d table).value?.isSome

/-- The type of a column as it is read; text, if it cannot be. -/
def readType : ColumnType := (row.read d table).value?.getD (.plain .text)

variable {d table row} in
theorem outcome_read (h : row.isRead d table = true) :
    (row.read d table).outcome = .ok (row.readType d table) := by
  obtain ⟨t, ht⟩ := Option.isSome_iff_exists.1 h
  rw [readType, ht, Option.getD_some]
  exact Advised.value?_eq_some.1 ht

variable {row} in
/-- A type is read if its arguments that are made of digits are numerals. -/
theorem isRead_of_hasNumerals (h : (RawType.ofText row.rawType).HasNumerals) :
    row.isRead d table = true := by
  obtain ⟨t, ht⟩ := ColumnType.exists_ofRaw h d
    ⟨row.primaryKey, row.counts, some table, some row.name⟩
  rw [isRead, read, Advised.value?_eq_some.2 ht]
  rfl

/-- The type of a column. -/
def type : ColumnType := (promote table row.name (row.readType d table)).1

/-- The enumeration of a column that lists its labels. -/
def enum? : Option EnumType := (promote table row.name (row.readType d table)).2

def countsUp : Bool :=
  (row.type d table).kind.isInteger && (row.counts || (row.type d table).kind.isSerial)

/-- The field of a row. -/
def field (id : String) : Field where
  id := id
  name := row.name
  type := row.type d table
  primaryKey := row.primaryKey
  unique := row.unique
  nullable := row.nullable && !row.primaryKey
  autoIncrement := row.countsUp d table
  default := if row.countsUp d table then none else defaultOf row (row.type d table)
  comment := row.comment
  isInteger_of_autoIncrement := fun h => (Bool.and_eq_true_iff.1 h).1

end ColumnRow

theorem outcome_buildField {d : Dialect} {table : String} (id : String) {row : ColumnRow}
    (h : row.isRead d table = true) :
    (buildField d table id row).outcome = .ok (row.field d table id, row.enum? d table) := by
  have hbuild : Field.build id row.name (row.type d table) row.primaryKey row.unique
      (row.nullable && !row.primaryKey) (row.countsUp d table)
      (if row.countsUp d table then none else defaultOf row (row.type d table)) row.comment =
        .ok (row.field d table id) :=
    dif_pos (row.field d table id).isInteger_of_autoIncrement
  unfold buildField
  rw [Advised.outcome_bind_eq_ok]
  refine ⟨row.readType d table, ColumnRow.outcome_read h, ?_⟩
  refine Advised.outcome_bind_eq_ok.2 ⟨(), ?_, ?_⟩
  · rw [defaultFault?_none, ite_self]
    rfl
  · exact Advised.outcome_bind_eq_ok.2 ⟨row.field d table id, hbuild, rfl⟩

/-- The fields of the rows of a table from a position on. -/
def fieldsOf (d : Dialect) (table id : String) (position : Nat) (rows : List ColumnRow) :
    List Field :=
  (rows.zipIdx position).map fun (row, k) => row.field d table (Ids.field id k)

/-- The enumerations of the columns of a table. -/
def tableEnums (d : Dialect) (t : String × List ColumnRow) : List EnumType :=
  t.2.filterMap (·.enum? d t.1)

theorem outcome_buildFields {d : Dialect} {table : String} (id : String) (position : Nat)
    {rows : List ColumnRow} (h : ∀ row ∈ rows, row.isRead d table = true) :
    (buildFields d table id position rows).outcome =
      .ok (fieldsOf d table id position rows, tableEnums d (table, rows)) := by
  induction rows generalizing position with
  | nil => rfl
  | cons row rows ih =>
    have henums : (row.enum? d table).toList ++ tableEnums d (table, rows) =
        tableEnums d (table, row :: rows) := by
      unfold tableEnums
      cases h : row.enum? d table <;> simp [h]
    rw [buildFields, Advised.outcome_bind_eq_ok]
    obtain ⟨hrow, hrows⟩ := List.forall_mem_cons.1 h
    refine ⟨_, outcome_buildField _ hrow, ?_⟩
    refine Advised.outcome_bind_eq_ok.2 ⟨_, ih (position + 1) hrows, ?_⟩
    rw [← henums]
    rfl

theorem nodup_fieldsOf (d : Dialect) (table id : String) (position : Nat) (rows : List ColumnRow) :
    ((fieldsOf d table id position rows).map Field.id).Nodup := by
  have hids : (fieldsOf d table id position rows).map Field.id =
      (List.range' position rows.length).map (Ids.field id) := by
    rw [fieldsOf, List.map_map, ← List.zipIdx_map_snd position rows, List.map_map]
    rfl
  rw [hids]
  exact List.Nodup.map (fun _ _ => Ids.field_inj) List.nodup_range'

/-! ## Tables -/

/-- The table of some rows at a position. -/
def tableOf (d : Dialect) (t : String × List ColumnRow) (position : Nat) : Table where
  id := Ids.table position
  name := t.1
  fields := fieldsOf d t.1 (Ids.table position) 0 t.2
  x := (Grid.place position).1
  y := (Grid.place position).2
  nodup_fields := nodup_fieldsOf _ _ _ _ _

def tablesOf (d : Dialect) (position : Nat) (tables : List (String × List ColumnRow)) : List Table :=
  (tables.zipIdx position).map fun (t, k) => tableOf d t k

/-- The enumerations of all columns. -/
def enumsOf (d : Dialect) (tables : List (String × List ColumnRow)) : List EnumType :=
  tables.flatMap (tableEnums d)

/-- The rows whose types can be read. -/
def AreRead (d : Dialect) (tables : List (String × List ColumnRow)) : Prop :=
  ∀ t ∈ tables, ∀ row ∈ t.2, row.isRead d t.1 = true

theorem outcome_buildTables {d : Dialect} (position : Nat)
    {tables : List (String × List ColumnRow)} (h : AreRead d tables) :
    (buildTables d position tables).outcome =
      .ok (tablesOf d position tables, enumsOf d tables) := by
  induction tables generalizing position with
  | nil => rfl
  | cons t tables ih =>
    have hbuild : Table.build (Ids.table position) t.1 (fieldsOf d t.1 (Ids.table position) 0 t.2) []
        "" defaultColor (Grid.place position).1 (Grid.place position).2 =
          .ok (tableOf d t position) :=
      dif_pos (nodup_fieldsOf _ _ _ _ _)
    rw [buildTables, Advised.outcome_bind_eq_ok]
    obtain ⟨hrows, htables⟩ := List.forall_mem_cons.1 h
    refine ⟨_, outcome_buildFields _ 0 hrows, ?_⟩
    refine Advised.outcome_bind_eq_ok.2 ⟨_, hbuild, ?_⟩
    exact Advised.outcome_bind_eq_ok.2 ⟨_, ih (position + 1) htables, rfl⟩

theorem nodup_tablesOf (d : Dialect) (position : Nat) (tables : List (String × List ColumnRow)) :
    ((tablesOf d position tables).map Table.id).Nodup := by
  have hids : (tablesOf d position tables).map Table.id =
      (List.range' position tables.length).map Ids.table := by
    rw [tablesOf, List.map_map, ← List.zipIdx_map_snd position tables, List.map_map]
    rfl
  rw [hids]
  exact List.Nodup.map (fun _ _ => Ids.table_inj) List.nodup_range'

/-! ## Schemas -/

/-- The schema of some tables without foreign keys. -/
def schemaOf (d : Dialect) (tables : List (String × List ColumnRow)) : Schema where
  tables := tablesOf d 0 tables
  enums := enumsOf d tables
  dialect := d
  nodup_tables := nodup_tablesOf _ _ _

/-- Rows without foreign keys make up a schema if their types can be read. -/
theorem outcome_toSchema {d : Dialect} {tables : List (String × List ColumnRow)}
    (h : AreRead d tables) :
    (toSchema d tables []).outcome = .ok (schemaOf d tables) := by
  unfold toSchema
  rw [Advised.outcome_bind_eq_ok]
  refine ⟨_, outcome_buildTables 0 h, ?_⟩
  refine Advised.outcome_bind_eq_ok.2 ⟨[], rfl, ?_⟩
  exact dif_pos (nodup_tablesOf d 0 tables)

/-- What does not depend on positions. -/
theorem map_zipIdx_eq {α β : Type} {f : α × Nat → β} {g : α → β} (h : ∀ a n, f (a, n) = g a)
    (l : List α) (k : Nat) : (l.zipIdx k).map f = l.map g := by
  conv_rhs => rw [← List.zipIdx_map_fst k l, List.map_map]
  exact List.map_congr_left fun a _ => h a.1 a.2

theorem map_fieldsOf {β : Type} {g : Field → β} {h : ColumnRow → β} {d : Dialect} {table : String}
    (hg : ∀ row id, g (row.field d table id) = h row) (id : String) (position : Nat)
    (rows : List ColumnRow) : (fieldsOf d table id position rows).map g = rows.map h := by
  rw [fieldsOf, List.map_map]
  exact map_zipIdx_eq (fun row _ => hg row _) rows position

theorem map_tablesOf {β : Type} {g : Table → β} {h : String × List ColumnRow → β} {d : Dialect}
    (hg : ∀ t k, g (tableOf d t k) = h t) (position : Nat)
    (tables : List (String × List ColumnRow)) :
    (tablesOf d position tables).map g = tables.map h := by
  rw [tablesOf, List.map_map]
  exact map_zipIdx_eq (fun t k => hg t k) tables position

/-- Each field is that of a row. -/
theorem mem_fieldsOf {d : Dialect} {table id : String} {position : Nat} {rows : List ColumnRow}
    {f : Field} (h : f ∈ fieldsOf d table id position rows) :
    ∃ row ∈ rows, ∃ k, f = row.field d table (Ids.field id k) := by
  obtain ⟨⟨row, k⟩, hrow, rfl⟩ := List.mem_map.1 h
  exact ⟨row, List.fst_mem_of_mem_zipIdx hrow, k, rfl⟩

theorem mem_tablesOf {d : Dialect} {position : Nat} {tables : List (String × List ColumnRow)}
    {t : Table} (h : t ∈ tablesOf d position tables) : ∃ u ∈ tables, ∃ k, t = tableOf d u k := by
  obtain ⟨⟨u, k⟩, hu, rfl⟩ := List.mem_map.1 h
  exact ⟨u, List.fst_mem_of_mem_zipIdx hu, k, rfl⟩

end Schemata.Catalog
