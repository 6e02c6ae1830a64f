import Mathlib.Data.List.Nodup
import Schemata.Proofs.Column.Default

/-!
# Schemas that the notation can express

`Schema.IsWritable` says of which schemas every part has a form in the notation. Names are not empty
and stay on their line without a double quote or a backslash; texts break lines with line feeds
only; types are spelled or taken from an enumeration of the schema; expressions close at their ends
and decimals are numbers; and whatever is looked up by name when a text is read has one name: tables,
enumerations, and the fields of a table. `Schema.IsLegible` asks no more of the enumerations than that
each type is the one its name leads to.
-/

namespace Schemata

open Text Notation

/-- The types that a line of a field can carry. -/
def ColumnType.IsWritten (t : ColumnType) : Prop :=
  t.IsSpelled ∨ ∃ n values, IsName n ∧ t = .ofEnum n values

/-- The fields whose lines can be read back. -/
structure Field.IsWritten (f : Field) : Prop where
  name : IsName f.name
  type : f.type.IsWritten
  default : ∀ d ∈ f.default, d.IsWritten
  comment : FeedsOnly f.comment
  /-- A counting kind always counts up. -/
  serial : f.type.kind.isSerial = true → f.autoIncrement = true
  /-- A whole number that is part of the key and counts up has a counting kind. -/
  counting : ∀ table name,
    ColumnType.counting ⟨f.primaryKey, f.autoIncrement, table, name⟩ f.type.kind = f.type.kind

/-- The indexes of a table with the given columns that can be written. -/
structure Index.IsWritten (columns : List String) (i : Index) : Prop where
  columns : ∀ n ∈ i.fields, n ∈ columns
  names : ∀ n ∈ i.fields, IsName n
  /-- A closing parenthesis would end the list of columns. -/
  closed : 1 < i.fields.length → ∀ n ∈ i.fields, ')' ∉ n.toList
  name : ∀ n ∈ i.name, n ≠ "" ∧ FeedsOnly n

/-- A colour that is a word of number signs, letters and digits. -/
def IsColor (color : String) : Prop :=
  color ≠ "" ∧ ∀ c ∈ color.toList, (c == '#' || c.isAlphanum) = true

/-- The tables that can be written. -/
structure Table.IsWritten (t : Table) : Prop where
  name : IsName t.name
  fields : ∀ f ∈ t.fields, f.IsWritten
  nodup : (t.fields.map Field.name).Nodup
  indexes : ∀ i ∈ t.indexes, i.IsWritten (t.fields.map Field.name)
  comment : FeedsOnly t.comment
  color : t.color = defaultColor ∨ IsColor t.color

/-- The enumerations that can be written. -/
structure EnumType.IsWritten (e : EnumType) : Prop where
  name : IsName e.name
  values : ∀ v ∈ e.values, FeedsOnly v

/-- The endpoints of a reference by the names of their tables and fields. -/
def Schema.endNames? (s : Schema) (r : Reference) : Option ((String × String) × (String × String)) :=
  (endpoints s r).toOption.map fun (a, b) => ((a.1.name, a.2.name), (b.1.name, b.2.name))

/-- The references of a schema that can be written. -/
structure Reference.IsWritten (s : Schema) (r : Reference) : Prop where
  name : ∀ n ∈ r.name, IsName n
  ends : (s.endNames? r).isSome = true

/-- A type is taken from an enumeration, or its text names none. -/
def Schema.Types (enums : List EnumType) (t : ColumnType) : Prop :=
  (∃ e ∈ enums, t = .ofEnum e.name e.values) ∨
    t.IsSpelled ∧ ∀ e ∈ enums, e.name ≠ String.ofList t.spelling ∧
      e.name ≠ unqualified (String.ofList t.spelling)

/-- The schemas that the notation can express. -/
structure Schema.IsWritable (s : Schema) : Prop where
  enums : ∀ e ∈ s.enums, e.IsWritten
  nodup_enums : (s.enums.map EnumType.name).Nodup
  tables : ∀ t ∈ s.tables, t.IsWritten
  nodup_tables : (s.tables.map Table.name).Nodup
  types : ∀ t ∈ s.tables, ∀ f ∈ t.fields, Types s.enums f.type
  references : ∀ r ∈ s.references, r.IsWritten s

/-- A type is that of the enumeration that its name leads to, or its text leads to none. -/
def Schema.Resolves (enums : List EnumType) (t : ColumnType) : Prop :=
  (∃ e, enumNamed? enums e.name = some e ∧ t = .ofEnum e.name e.values) ∨
    t.IsSpelled ∧ ∀ e ∈ enums, e.name ≠ String.ofList t.spelling ∧
      e.name ≠ unqualified (String.ofList t.spelling)

/-- The schemas whose text can be read back. Enumerations may share a name as long as every type is
the one that its name leads to. -/
structure Schema.IsLegible (s : Schema) : Prop where
  enums : ∀ e ∈ s.enums, e.IsWritten
  tables : ∀ t ∈ s.tables, t.IsWritten
  nodup_tables : (s.tables.map Table.name).Nodup
  types : ∀ t ∈ s.tables, ∀ f ∈ t.fields, Resolves s.enums f.type
  references : ∀ r ∈ s.references, r.IsWritten s

/-! ## Lookups by key -/

/-- In a list without repeated keys, an item is found by its key. -/
theorem find?_of_nodup {α β : Type} [DecidableEq β] (key : α → β) {l : List α}
    (h : (l.map key).Nodup) {a : α} (ha : a ∈ l) : l.find? (fun b => key b = key a) = some a := by
  induction l with
  | nil => simp at ha
  | cons b l ih =>
    obtain ⟨hb, hl⟩ := List.nodup_cons.1 h
    rcases List.mem_cons.1 ha with rfl | ha
    · simp
    · have hne : key b ≠ key a := fun hk => hb (hk ▸ List.mem_map_of_mem ha)
      rw [List.find?_cons_of_neg (by simpa using hne), ih hl ha]

/-- When their names differ, every enumeration is found by its name. -/
theorem Schema.Types.resolves {enums : List EnumType} (hn : (enums.map EnumType.name).Nodup)
    {t : ColumnType} (h : Types enums t) : Resolves enums t := by
  rcases h with ⟨e, he, htype⟩ | hspelled
  · refine .inl ⟨e, find?_of_nodup EnumType.name ?_ (List.mem_reverse.2 he), htype⟩
    rwa [List.map_reverse, List.nodup_reverse]
  · exact .inr hspelled

theorem Schema.IsWritable.isLegible {s : Schema} (h : s.IsWritable) : s.IsLegible where
  enums := h.enums
  tables := h.tables
  nodup_tables := h.nodup_tables
  types t ht f hf := (h.types t ht f hf).resolves h.nodup_enums
  references := h.references

end Schemata
