import Schemata.Proofs.Notation.Writable

/-!
# Outlines

A schema without its ids and without the places of its tables: two schemas with one outline are the
same up to how their parts are referred to and drawn. Text in the notation carries the outline of a
schema, but for two things: a label that is written without quotes loses a line feed at its end, and
a default becomes what its text means for its type. `Outline.kept` is what is left.
-/

namespace Schemata

open Text Notation

/-! ## Outlines -/

/-- A table without its id and its place, its fields without their ids. -/
structure TableOutline where
  name : String
  color : String
  comment : String
  fields : List Field
  indexes : List Index
  deriving DecidableEq

/-- A reference without its id, its endpoints by name if they exist. -/
structure ReferenceOutline where
  ends : Option ((String × String) × (String × String))
  cardinality : Cardinality
  onUpdate : Action
  onDelete : Action
  name : Option String
  deriving DecidableEq

/-- A schema without ids and places. -/
structure Outline where
  dialect : Dialect
  enums : List EnumType
  tables : List TableOutline
  references : List ReferenceOutline
  deriving DecidableEq

def Field.unplaced (f : Field) : Field := { f with id := "" }

def Table.outline (t : Table) : TableOutline :=
  ⟨t.name, t.color, t.comment, t.fields.map Field.unplaced, t.indexes⟩

def Schema.outlineOf (s : Schema) (r : Reference) : ReferenceOutline :=
  ⟨s.endNames? r, r.cardinality, r.onUpdate, r.onDelete, r.name⟩

def Schema.outline (s : Schema) : Outline :=
  ⟨s.dialect, s.enums, s.tables.map Table.outline, s.references.map s.outlineOf⟩

/-! ## What the notation keeps -/

/-- The enumeration with its labels as the notation keeps them. -/
def EnumType.keepLabels (e : EnumType) : EnumType := { e with values := e.values.map keptLabel }

/-- The type with the labels of its enumeration as the notation keeps them. -/
def ColumnType.keepLabels (t : ColumnType) : ColumnType :=
  if t.enumName.isSome then
    { t with
      values := t.values.map keptLabel
      isListed_of_values := fun h => t.isListed_of_values (by simpa using h) }
  else t

theorem ColumnType.kind_keepLabels (t : ColumnType) : t.keepLabels.kind = t.kind := by
  rw [keepLabels]
  split_ifs <;> rfl

/-- The field as the notation keeps it. -/
def Field.kept (f : Field) : Field :=
  { f with
    type := f.type.keepLabels
    default := f.default.map (Default.kept f.type)
    isInteger_of_autoIncrement := by
      rw [f.type.kind_keepLabels]
      exact f.isInteger_of_autoIncrement }

def TableOutline.kept (t : TableOutline) : TableOutline :=
  { t with fields := t.fields.map Field.kept }

/-- The outline with labels and defaults as the notation keeps them. -/
def Outline.kept (o : Outline) : Outline :=
  { o with
    enums := o.enums.map EnumType.keepLabels
    tables := o.tables.map TableOutline.kept }

theorem ColumnType.keepLabels_eq_self {t : ColumnType}
    (h : t.enumName.isSome = true → t.values.map keptLabel = t.values) : t.keepLabels = t := by
  rw [keepLabels]
  split_ifs with hn
  · ext1 <;> simp [h hn]
  · rfl

end Schemata
