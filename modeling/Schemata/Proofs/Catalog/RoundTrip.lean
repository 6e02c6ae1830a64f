import Schemata.Proofs.Catalog.Rows
import Schemata.Proofs.Column.RawType
import Schemata.Proofs.Notation.Relabel

/-!
# Rows through the notation

A column that lists its labels gets an enumeration named for its table and its column, so that its
labels can be written in the notation. `columns_parse_serialize` says what comes back when the schema
of some rows is written and read: every column with its name and its type, except that the labels are
those of the last enumeration of its name. Two columns can get one name (`a_b.c` and `a.b_c`), and
then the labels of the first are lost; all labels are kept exactly when columns of one enumeration
name have the same labels.
-/

namespace Schemata

open Text Notation

/-- The names of the tables and their columns, with the types. -/
def Schema.columns (s : Schema) : List (String × List (String × ColumnType)) :=
  s.tables.map fun t => (t.name, t.fields.map fun f => (f.name, f.type))

theorem Schema.columns_eq_outline (s : Schema) :
    s.columns = s.outline.tables.map fun t => (t.name, t.fields.map fun f => (f.name, f.type)) := by
  rw [columns, outline, List.map_map]
  apply List.map_congr_left
  intro t _
  simp [Table.outline, Field.unplaced, Function.comp_def]

namespace Catalog

/-! ## Rows that can be written -/

/-- The rows of a table that can be written. -/
structure ColumnRow.IsReadable (d : Dialect) (table : String) (row : ColumnRow) : Prop where
  name : IsPlain row.name
  isRead : row.isRead d table = true
  labels : ∀ v ∈ (row.readType d table).values, IsPlain v
  /-- A number of digits behind the point goes with a number of digits. -/
  digits : (row.readType d table).scale.isSome = true →
    (row.readType d table).precision.isSome = true
  default : ∀ v ∈ defaultOf row (row.type d table), v.IsWritten
  comment : FeedsOnly row.comment

/-- Tables with plain names that differ, and rows that can be written. -/
structure IsReadable (d : Dialect) (tables : List (String × List ColumnRow)) : Prop where
  names : ∀ t ∈ tables, IsPlain t.1
  nodup_names : (tables.map Prod.fst).Nodup
  nodup_columns : ∀ t ∈ tables, (t.2.map ColumnRow.name).Nodup
  rows : ∀ t ∈ tables, ∀ row ∈ t.2, row.IsReadable d t.1

theorem IsReadable.areRead {d : Dialect} {tables : List (String × List ColumnRow)}
    (h : IsReadable d tables) : AreRead d tables := fun t ht row hrow => (h.rows t ht row hrow).isRead

/-- A column has a type of its own, or that of the enumeration it brings along. -/
theorem ColumnRow.type_cases (d : Dialect) (table : String) (row : ColumnRow) :
    (row.enum? d table = none ∧ row.type d table = row.readType d table) ∨
      ∃ values, (∀ v ∈ values, v ∈ (row.readType d table).values) ∧
        (row.readType d table).kind = .enum ∧
        row.enum? d table = some ⟨table ++ "_" ++ row.name, values⟩ ∧
        row.type d table = .ofEnum (table ++ "_" ++ row.name) values := by
  unfold ColumnRow.enum? ColumnRow.type promote
  split
  · next h => exact .inr ⟨_, fun _ hv => hv, h.1, rfl, rfl⟩
  · exact .inl ⟨rfl, rfl⟩

theorem ColumnRow.kind_type (d : Dialect) (table : String) (row : ColumnRow) :
    (row.type d table).kind = (row.readType d table).kind := by
  obtain ⟨-, h⟩ | ⟨values, -, hkind, -, h⟩ := row.type_cases d table
  · rw [h]
  · rw [h, hkind]
    rfl

/-- A name of an enumeration leads to one. -/
theorem exists_enumNamed? {enums : List EnumType} {e : EnumType} (he : e ∈ enums) :
    ∃ e', enumNamed? enums e.name = some e' ∧ e'.name = e.name := by
  have hsome : (enumNamed? enums e.name).isSome = true :=
    List.find?_isSome.2 ⟨e, List.mem_reverse.2 he, by simp⟩
  obtain ⟨e', he'⟩ := Option.isSome_iff_exists.1 hsome
  exact ⟨e', he', by simpa using List.find?_some he'⟩

section Readable

variable {d : Dialect} {tables : List (String × List ColumnRow)} (h : IsReadable d tables)

include h

/-- Each enumeration is that of a column, and its name has a low line. -/
theorem mem_enumsOf {e : EnumType} (he : e ∈ enumsOf d tables) :
    ∃ t ∈ tables, ∃ row ∈ t.2, row.type d t.1 = .ofEnum e.name e.values ∧ '_' ∈ e.name.toList ∧
      IsPlain e.name ∧ ∀ v ∈ e.values, IsPlain v := by
  obtain ⟨t, ht, he⟩ := List.mem_flatMap.1 he
  obtain ⟨row, hrow, he⟩ := List.mem_filterMap.1 he
  have hread := h.rows t ht row hrow
  obtain ⟨hnone, -⟩ | ⟨values, hvalues, -, henum, htype⟩ := row.type_cases d t.1
  · rw [hnone] at he
    cases he
  · rw [henum] at he
    cases he
    exact ⟨t, ht, row, hrow, htype, by simp, (h.names t ht).join hread.name,
      fun v hv => hread.labels v (hvalues v hv)⟩

/-- A type is spelled, or its name leads to an enumeration. -/
theorem relabel_type {t : String × List ColumnRow} (ht : t ∈ tables) {row : ColumnRow}
    (hrow : row ∈ t.2) :
    (((row.type d t.1).relabel (enumsOf d tables)).IsSpelled ∧
      (row.type d t.1).relabel (enumsOf d tables) = row.type d t.1) ∨
    ∃ e, enumNamed? (enumsOf d tables) e.name = some e ∧ IsPlain e.name ∧
      (∃ values, ⟨e.name, values⟩ ∈ enumsOf d tables ∧ row.type d t.1 = .ofEnum e.name values) ∧
      (row.type d t.1).relabel (enumsOf d tables) = .ofEnum e.name e.values := by
  have hread := h.rows t ht row hrow
  obtain ⟨-, htype⟩ | ⟨values, -, -, henum, htype⟩ := row.type_cases d t.1
  · have hspelled : (row.readType d t.1).IsSpelled :=
      ColumnType.isSpelled_ofRaw (ColumnRow.outcome_read hread.isRead) hread.digits hread.labels
    have hsame : (row.readType d t.1).relabel (enumsOf d tables) = row.readType d t.1 := by
      apply ColumnType.relabel_of_enumName?_eq_none
      rw [ColumnType.enumName?, hspelled.enumName]
      rfl
    rw [htype, hsame]
    exact .inl ⟨hspelled, rfl⟩
  · have hmem : ⟨t.1 ++ "_" ++ row.name, values⟩ ∈ enumsOf d tables :=
      List.mem_flatMap.2 ⟨t, ht, List.mem_filterMap.2 ⟨row, hrow, henum⟩⟩
    obtain ⟨e, he, hname⟩ := exists_enumNamed? hmem
    have hplain := (h.names t ht).join hread.name
    dsimp only at he hname
    refine .inr ⟨e, hname ▸ he, hname ▸ hplain, ⟨values, hname ▸ hmem, hname ▸ htype⟩, ?_⟩
    rw [htype, hname]
    refine ColumnType.relabel_ofEnum _ ?_ he values
    rintro hempty
    exact hplain.ne_nil (by rw [hempty]; rfl)

/-- The relabelled fields can be written. -/
theorem isWritten_relabel {t : String × List ColumnRow} (ht : t ∈ tables) {row : ColumnRow}
    (hrow : row ∈ t.2) (id : String) :
    ((row.field d t.1 id).relabel (enumsOf d tables)).IsWritten := by
  have hread := h.rows t ht row hrow
  have hkind : ((row.field d t.1 id).relabel (enumsOf d tables)).type.kind =
      (row.readType d t.1).kind :=
    (ColumnType.kind_relabel _ _).trans (row.kind_type d t.1)
  constructor
  · exact hread.name.isName
  · obtain ⟨hspelled, -⟩ | ⟨e, -, hplain, -, htype⟩ := relabel_type h ht hrow
    · exact .inl hspelled
    · exact .inr ⟨e.name, e.values, hplain.isName, htype⟩
  · intro v hv
    have hdefault : v ∈ if row.countsUp d t.1 then none else defaultOf row (row.type d t.1) := hv
    split at hdefault
    · cases hdefault
    · exact hread.default v hdefault
  · exact hread.comment
  · rw [hkind]
    intro hserial
    show row.countsUp d t.1 = true
    rw [ColumnRow.countsUp, row.kind_type, hserial, Kind.isInteger_of_isSerial hserial,
      Bool.or_true, Bool.and_true]
  · intro table name
    rw [hkind]
    refine ColumnType.counting_ofRaw (ColumnRow.outcome_read hread.isRead) rfl fun hcounts => ?_
    obtain ⟨-, hcounts⟩ := Bool.and_eq_true_iff.1 hcounts
    rw [row.kind_type] at hcounts
    exact Bool.or_eq_true_iff.1 hcounts

/-- The relabelled schema of readable rows can be written and read. -/
theorem isLegible_relabel : (schemaOf d tables).relabel.IsLegible := by
  have htables : ∀ t ∈ (schemaOf d tables).relabel.tables, ∃ u ∈ tables, ∃ k,
      t = (tableOf d u k).relabel (enumsOf d tables) := by
    intro t ht
    obtain ⟨placed, hplaced, rfl⟩ := List.mem_map.1 ht
    obtain ⟨u, hu, k, rfl⟩ := mem_tablesOf hplaced
    exact ⟨u, hu, k, rfl⟩
  have hfields : ∀ u ∈ tables, ∀ k, ∀ f ∈ ((tableOf d u k).relabel (enumsOf d tables)).fields,
      ∃ row ∈ u.2, ∃ id, f = (row.field d u.1 id).relabel (enumsOf d tables) := by
    intro u _ k f hf
    obtain ⟨placed, hplaced, rfl⟩ := List.mem_map.1 hf
    obtain ⟨row, hrow, n, rfl⟩ := mem_fieldsOf hplaced
    exact ⟨row, hrow, _, rfl⟩
  constructor
  · intro e he
    obtain ⟨_, _, _, _, _, _, hname, hvalues⟩ := mem_enumsOf h he
    exact ⟨hname.isName, fun v hv => (hvalues v hv).feedsOnly⟩
  · intro t ht
    obtain ⟨u, hu, k, rfl⟩ := htables t ht
    refine ⟨(h.names u hu).isName, fun f hf => ?_, ?_, by simp [Table.relabel, tableOf],
      fun c hc => by simp [Table.relabel, tableOf] at hc, .inl rfl⟩
    · obtain ⟨row, hrow, id, rfl⟩ := hfields u hu k f hf
      exact isWritten_relabel h hu hrow id
    · have hnames : ((tableOf d u k).relabel (enumsOf d tables)).fields.map Field.name =
          u.2.map ColumnRow.name := by
        show ((fieldsOf d u.1 _ 0 u.2).map (Field.relabel (enumsOf d tables))).map Field.name = _
        rw [List.map_map]
        exact map_fieldsOf (fun _ _ => rfl) _ _ _
      rw [hnames]
      exact h.nodup_columns u hu
  · have hnames : (schemaOf d tables).relabel.tables.map Table.name = tables.map Prod.fst := by
      show ((tablesOf d 0 tables).map (Table.relabel (enumsOf d tables))).map Table.name = _
      rw [List.map_map]
      exact map_tablesOf (fun _ _ => rfl) 0 tables
    rw [hnames]
    exact h.nodup_names
  · intro t ht f hf
    obtain ⟨u, hu, k, rfl⟩ := htables t ht
    obtain ⟨row, hrow, id, rfl⟩ := hfields u hu k f hf
    obtain ⟨hspelled, -⟩ | ⟨e, he, -, -, htype⟩ := relabel_type h hu hrow
    · refine .inr ⟨hspelled, fun e he => ?_⟩
      obtain ⟨_, _, _, _, _, hline, hplain, -⟩ := mem_enumsOf h he
      exact ColumnType.ne_spelling hplain hline _
    · exact .inl ⟨e, he, htype⟩
  · intro r hr
    cases hr

/-- The notation keeps the labels of the relabelled types. -/
theorem keepLabels_relabel {t : String × List ColumnRow} (ht : t ∈ tables) {row : ColumnRow}
    (hrow : row ∈ t.2) : ((row.type d t.1).relabel (enumsOf d tables)).keepLabels =
      (row.type d t.1).relabel (enumsOf d tables) := by
  apply ColumnType.keepLabels_eq_self
  intro hname
  obtain ⟨hspelled, -⟩ | ⟨e, he, -, -, htype⟩ := relabel_type h ht hrow
  · rw [hspelled.enumName] at hname
    cases hname
  · rw [htype]
    have hmem : e ∈ enumsOf d tables := List.mem_reverse.1 (List.mem_of_find?_eq_some he)
    obtain ⟨_, _, _, _, _, _, _, hvalues⟩ := mem_enumsOf h hmem
    exact (List.map_congr_left fun v hv => (hvalues v hv).keptLabel_eq).trans (List.map_id _)

/-- All types are the relabelled ones exactly if enumerations of one name have the same labels. -/
theorem relabel_type_eq_iff : (∀ t ∈ tables, ∀ row ∈ t.2,
      (row.type d t.1).relabel (enumsOf d tables) = row.type d t.1) ↔
    ∀ e ∈ enumsOf d tables, ∀ e' ∈ enumsOf d tables, e.name = e'.name → e.values = e'.values := by
  constructor
  · intro hsame
    -- Every enumeration of a name has the labels that the name leads to.
    have hlast : ∀ e ∈ enumsOf d tables, ∀ last, enumNamed? (enumsOf d tables) e.name = some last →
        e.values = last.values := by
      intro e he last hlast
      obtain ⟨t, ht, row, hrow, htype, -, hplain, -⟩ := mem_enumsOf h he
      have hne : e.name ≠ "" := fun hempty => hplain.ne_nil (by rw [hempty]; rfl)
      have hvalues := hsame t ht row hrow
      rw [htype, ColumnType.relabel_ofEnum _ hne hlast] at hvalues
      exact (congrArg ColumnType.values hvalues).symm
    intro e he e' he' hname
    obtain ⟨last, hfound, -⟩ := exists_enumNamed? he
    rw [hlast e he last hfound, hlast e' he' last (hname ▸ hfound)]
  · intro hsame t ht row hrow
    obtain ⟨-, htype⟩ | ⟨e, he, -, ⟨values, hvalues, htype⟩, hrelabel⟩ := relabel_type h ht hrow
    · exact htype
    · have hmem : e ∈ enumsOf d tables := List.mem_reverse.1 (List.mem_of_find?_eq_some he)
      rw [hrelabel, htype, hsame e hmem _ hvalues rfl]

end Readable

/-- The columns of rows with types. -/
def columnsOf (type : String → ColumnRow → ColumnType) (tables : List (String × List ColumnRow)) :
    List (String × List (String × ColumnType)) :=
  tables.map fun t => (t.1, t.2.map fun row => (row.name, type t.1 row))

theorem columnsOf_inj {f g : String → ColumnRow → ColumnType}
    {tables : List (String × List ColumnRow)} :
    columnsOf f tables = columnsOf g tables ↔ ∀ t ∈ tables, ∀ row ∈ t.2, f t.1 row = g t.1 row := by
  simp [columnsOf]

theorem columns_schemaOf (d : Dialect) (tables : List (String × List ColumnRow)) :
    (schemaOf d tables).columns = columnsOf (fun table row => row.type d table) tables :=
  map_tablesOf (fun _ _ => Prod.ext rfl (map_fieldsOf (fun _ _ => rfl) _ _ _)) 0 tables

/-- The rows of tables without foreign keys make up a schema that is written and read back without a
finding. Every column comes back with its name and its type, but for labels: those of the last
enumeration of the name take the place of the others. So all columns come back as they were exactly
if enumerations of one name have the same labels. -/
theorem columns_parse_serialize {d : Dialect} {tables : List (String × List ColumnRow)}
    (h : IsReadable d tables) :
    ∃ s text s', (toSchema d tables []).outcome = .ok s ∧ serialize s = .ok text ∧
      (parse text).findings = [] ∧ (parse text).outcome = .ok s' ∧
      s.columns = columnsOf (fun table row => row.type d table) tables ∧
      s'.columns = columnsOf (fun table row => (row.type d table).relabel s.enums) tables ∧
      (s'.columns = s.columns ↔
        ∀ e ∈ s.enums, ∀ e' ∈ s.enums, e.name = e'.name → e.values = e'.values) := by
  obtain ⟨text, s', htext, hfindings, hparse, hout⟩ :=
    parse_serialize_relabel (isLegible_relabel h)
  have hcolumns : s'.columns =
      columnsOf (fun table row => (row.type d table).relabel (enumsOf d tables)) tables := by
    have hkept : s'.columns = columnsOf (fun table row =>
        ((row.type d table).relabel (enumsOf d tables)).keepLabels) tables := by
      rw [Schema.columns_eq_outline, hout]
      show ((((tablesOf d 0 tables).map (Table.relabel (enumsOf d tables))).map Table.outline).map
        TableOutline.kept).map _ = _
      rw [List.map_map, List.map_map, List.map_map]
      refine map_tablesOf (fun t k => Prod.ext rfl ?_) 0 tables
      show ((((fieldsOf d t.1 (Ids.table k) 0 t.2).map (Field.relabel (enumsOf d tables))).map
        Field.unplaced).map Field.kept).map _ = _
      rw [List.map_map, List.map_map, List.map_map]
      exact map_fieldsOf (fun _ _ => rfl) _ _ _
    rw [hkept, columnsOf_inj]
    exact fun t ht row hrow => keepLabels_relabel h ht hrow
  refine ⟨schemaOf d tables, text, s', outcome_toSchema h.areRead, htext, hfindings, hparse,
    columns_schemaOf d tables, hcolumns, ?_⟩
  rw [hcolumns, columns_schemaOf, columnsOf_inj]
  exact relabel_type_eq_iff h

/-- Two tables with a column each that lists its labels, and one name for both enumerations. -/
def clubs : List (String × List ColumnRow) := [
  ("book_club", [{ name := "id", rawType := "int unsigned", primaryKey := true, autoIncrement := true },
    { name := "kind", rawType := "enum('local','online')", default := some (.text "local") }]),
  ("book", [{ name := "club_kind", rawType := "enum('open','closed')" }])]

/-- The names and the labels of the clubs. -/
def clubWords : List String :=
  ["book_club", "book", "id", "kind", "club_kind", "local", "online", "open", "closed"]

theorem isReadable_clubs : IsReadable .mysql clubs := by
  have hplain : ∀ n ∈ clubWords, IsPlain n := by
    have check : ∀ n ∈ clubWords, n.toList ≠ [] ∧ ∀ c ∈ n.toList, isPlainChar c = true := by decide
    exact fun n hn => ⟨(check n hn).1, (check n hn).2⟩
  have hrows : ∀ t ∈ clubs, t.1 ∈ clubWords ∧ ∀ row ∈ t.2,
      row.name ∈ clubWords ∧ row.isRead .mysql t.1 = true ∧ (row.readType .mysql t.1).values ⊆ clubWords ∧
      (row.readType .mysql t.1).scale = none ∧ row.comment = "" ∧
      (defaultOf row (row.type .mysql t.1) = none ∨
        defaultOf row (row.type .mysql t.1) = some (.text "local")) := by
    decide +kernel
  refine ⟨fun t ht => hplain _ (hrows t ht).1, by decide, by decide, fun t ht row hrow => ?_⟩
  obtain ⟨hname, hisRead, hvalues, hscale, hcomment, hdefault⟩ := (hrows t ht).2 row hrow
  refine ⟨hplain _ hname, hisRead, fun v hv => hplain v (hvalues hv), fun hsome => ?_, fun v hv => ?_, ?_⟩
  · rw [hscale] at hsome
    cases hsome
  · obtain hnone | hlocal := hdefault
    · cases hnone.symm.trans hv
    · cases hlocal.symm.trans hv
      exact (hplain "local" (by decide)).feedsOnly
  · rw [hcomment]
    intro c hc
    cases hc

/-- The clubs are written and read, and the labels of one column are lost. -/
theorem columns_parse_serialize_clubs : IsReadable .mysql clubs ∧
    ∃ s text s', (toSchema .mysql clubs []).outcome = .ok s ∧ serialize s = .ok text ∧
      (parse text).findings = [] ∧ (parse text).outcome = .ok s' ∧ s'.columns ≠ s.columns := by
  obtain ⟨s, text, s', hs, htext, hfindings, hparse, -, -, hiff⟩ :=
    columns_parse_serialize isReadable_clubs
  refine ⟨isReadable_clubs, s, text, s', hs, htext, hfindings, hparse, fun heq => ?_⟩
  obtain rfl : schemaOf .mysql clubs = s := Except.ok.inj ((outcome_toSchema isReadable_clubs.areRead).symm.trans hs)
  have hlost : ¬∀ e ∈ enumsOf .mysql clubs, ∀ e' ∈ enumsOf .mysql clubs,
      e.name = e'.name → e.values = e'.values := by decide +kernel
  exact hlost (hiff.1 heq)

end Catalog

end Schemata
