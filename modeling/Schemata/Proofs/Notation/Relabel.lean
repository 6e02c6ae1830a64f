import Schemata.Proofs.Notation.Builder

/-!
# Labels looked up by name

The text of a field names an enumeration and does not repeat its labels. So a text cannot tell a
schema from `Schema.relabel`, in which every type has the labels of the enumeration that its name
leads to: the last one of that name (`serialize_relabel`). What is read back is the relabelled schema
(`parse_serialize_relabel`), also when enumerations share a name.
-/

namespace Schemata

open Text Notation

/-! ## Relabelling -/

/-- The type with the labels of the enumeration that its name leads to. -/
def ColumnType.relabel (enums : List EnumType) (t : ColumnType) : ColumnType :=
  match t.enumName?.bind (enumNamed? enums) with
  | some e =>
    if h : t.kind.isListed = true then { t with values := e.values, isListed_of_values := fun _ => h }
    else t
  | none => t

section Relabel

variable (enums : List EnumType)

@[simp] theorem ColumnType.kind_relabel (t : ColumnType) : (t.relabel enums).kind = t.kind := by
  rw [relabel]
  split
  · split <;> rfl
  · rfl

theorem ColumnType.relabel_of_enumName?_eq_none {t : ColumnType} (h : t.enumName? = none) :
    t.relabel enums = t := by
  rw [relabel, h]
  rfl

theorem ColumnType.enumName?_ofEnum {n : String} (hn : n ≠ "") (values : List String) :
    (ofEnum n values).enumName? = some n :=
  Option.filter_eq_some_iff.2 ⟨rfl, by simpa using hn⟩

theorem ColumnType.enumName?_relabel (t : ColumnType) :
    (t.relabel enums).enumName? = t.enumName? := by
  rw [relabel]
  split
  · split <;> rfl
  · rfl

theorem ColumnType.relabel_ofEnum {n : String} (hn : n ≠ "") {e : EnumType}
    (h : enumNamed? enums n = some e) (values : List String) :
    (ofEnum n values).relabel enums = ofEnum n e.values := by
  rw [relabel, enumName?_ofEnum hn, Option.bind_some, h]
  rfl

def Field.relabel (f : Field) : Field :=
  { f with
    type := f.type.relabel enums
    isInteger_of_autoIncrement := by
      rw [ColumnType.kind_relabel]
      exact f.isInteger_of_autoIncrement }

def Table.relabel (t : Table) : Table :=
  { t with
    fields := t.fields.map (Field.relabel enums)
    nodup_fields := by
      rw [List.map_map]
      exact t.nodup_fields }

end Relabel

/-- The schema in which every type has the labels that its name leads to. -/
def Schema.relabel (s : Schema) : Schema :=
  { s with
    tables := s.tables.map (Table.relabel s.enums)
    nodup_tables := by
      rw [List.map_map]
      exact s.nodup_tables }

namespace Notation

/-! ## Texts without labels -/

/-- Only types without a name are written with their labels. -/
theorem typeText_relabel (enums : List EnumType) (t : ColumnType) :
    typeText (t.relabel enums) = typeText t := by
  cases hn : t.enumName? with
  | some n => rw [typeText, typeText, t.enumName?_relabel, hn]
  | none => rw [ColumnType.relabel_of_enumName?_eq_none enums hn]

theorem fieldLine_relabel (enums : List EnumType) (f : Field) :
    fieldLine (f.relabel enums) = fieldLine f := by
  show quoteName f.name ++ " " ++ typeText (f.type.relabel enums) ++ bracketed (fieldSettings f) = _
  rw [typeText_relabel]
  rfl

theorem tableLines_relabel (enums : List EnumType) (t : Table) :
    tableLines (t.relabel enums) = tableLines t := by
  have hfields : (t.relabel enums).fields.map (fun f => "  " ++ fieldLine f) =
      t.fields.map fun f => "  " ++ fieldLine f := by
    rw [Table.relabel, List.map_map]
    exact List.map_congr_left fun f _ => congrArg ("  " ++ ·) (fieldLine_relabel enums f)
  rw [tableLines, hfields]
  rfl

theorem fieldById?_relabel (enums : List EnumType) (t : Table) (id : String) :
    (t.relabel enums).fieldById? id = (t.fieldById? id).map (Field.relabel enums) :=
  List.find?_map ..

theorem tableById?_relabel (s : Schema) (id : String) :
    s.relabel.tableById? id = (s.tableById? id).map (Table.relabel s.enums) :=
  List.find?_map ..

/-- Relabelling keeps the names at the ends of references. -/
theorem referenceText_relabel (s : Schema) (r : Reference) :
    referenceText s.relabel r = referenceText s r := by
  have hends : endpoints s.relabel r = (endpoints s r).map
      (Prod.map (Prod.map (Table.relabel s.enums) (Field.relabel s.enums))
        (Prod.map (Table.relabel s.enums) (Field.relabel s.enums))) := by
    unfold endpoints
    rw [tableById?_relabel, tableById?_relabel]
    cases s.tableById? r.sourceTable with
    | none => rfl
    | some a =>
      cases s.tableById? r.targetTable with
      | none => rfl
      | some b =>
        simp only [Option.map_some, fieldById?_relabel]
        cases a.fieldById? r.sourceField with
        | none => rfl
        | some f => cases b.fieldById? r.targetField <;> rfl
  unfold referenceText
  rw [hends]
  cases endpoints s r <;> rfl

/-- A schema is written as its relabelling is. -/
theorem serialize_relabel (s : Schema) (project : String) :
    serialize s.relabel project = serialize s project := by
  have htables : s.relabel.tables.flatMap tableLines = s.tables.flatMap tableLines := by
    rw [Schema.relabel, List.flatMap_map]
    exact List.flatMap_congr fun t _ => tableLines_relabel s.enums t
  have hreferences : referenceText s.relabel = referenceText s := by
    funext r
    exact referenceText_relabel s r
  unfold serialize schemaLines
  rw [htables, hreferences]
  rfl

/-- What is read back from the text of a schema is its relabelling. -/
theorem parse_serialize_relabel {s : Schema} (h : s.relabel.IsLegible) :
    ∃ text s', serialize s = .ok text ∧ (parse text).findings = [] ∧
      (parse text).outcome = .ok s' ∧ s'.outline = s.relabel.outline.kept := by
  obtain ⟨text, i, j, htext, hitems⟩ := itemsOf_serialize_of_isLegible h
  obtain ⟨s', hbuild, hout⟩ := build_writtenItems_of_isLegible h i j
  have hparse : parse text = pure s' := by
    rw [parse, hitems, pure_bind, hbuild]
  rw [serialize_relabel] at htext
  exact ⟨text, s', htext, by rw [hparse]; rfl, by rw [hparse]; rfl, hout⟩

end Notation

end Schemata
