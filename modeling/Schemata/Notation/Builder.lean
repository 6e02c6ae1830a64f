import Schemata.Column.Literal
import Schemata.Column.RawType
import Schemata.Notation.Draft
import Schemata.Schema.Grid
import Schemata.Schema.Ids

/-!
# Building a schema from drafts

The second pass over a text of the notation: types are read, and names become references to what
they name. `Notation.parse` does both passes.
-/

namespace Schemata.Notation

open Text

/-- The enumeration with a name, the last one declared. -/
def enumNamed? (enums : List EnumType) (name : String) : Option EnumType :=
  enums.reverse.find? (·.name = name)

/-- The part of a type name behind its last dot. -/
def unqualified (type : String) : String :=
  str (type.toList.reverse.takeWhile (· ≠ '.')).reverse

/-- The default that a setting means: an expression in backticks, a text in quotes, or what an
unquoted text means for the type. -/
def defaultOf (t : ColumnType) (raw : List Char) : Option Default :=
  let s := strip raw
  if s.head? = some '\x60' ∧ s.getLast? = some '\x60' then some (.expr (str (Literal.inner s)))
  else if s.head? = some '\'' ∨ s.head? = some '"' then
    Literal.ofText t (quoteDoubled (unquoteText s))
  else Literal.ofText t s

/-- What keeps the default of a setting from being read. -/
def defaultFault? (l : Limits) (t : ColumnType) (raw : List Char) : Option Fault :=
  let s := strip raw
  if s.head? = some '\x60' ∧ s.getLast? = some '\x60' then none
  else if s.head? = some '\'' ∨ s.head? = some '"' then
    Literal.textFault? l t (quoteDoubled (unquoteText s))
  else Literal.textFault? l t s

@[simp] theorem defaultFault?_none (t : ColumnType) (raw : List Char) :
    defaultFault? {} t raw = none := by
  unfold defaultFault?
  dsimp only
  split
  · rfl
  · split <;> exact Literal.textFault?_none t _

/-- The type of a field: one of the enumerations, or what the text means in the dialect. -/
def typeOf (d : Dialect) (enums : List EnumType) (table : String) (primaryKey : Bool)
    (f : FieldDraft) (l : Limits := {}) : Advised ColumnType :=
  match (enumNamed? enums f.rawType).or (enumNamed? enums (unqualified f.rawType)) with
  | some e => pure (.ofEnum e.name e.values)
  | none => ColumnType.ofRaw d f.rawType ⟨primaryKey, f.increment, some table, some f.name⟩ l

def buildField (d : Dialect) (enums : List EnumType) (table id : String) (primaryKey : Bool)
    (f : FieldDraft) (l : Limits := {}) : Advised Field := do
  let type ← typeOf d enums table primaryKey f l
  unlessFault (f.default.bind (defaultFault? l type))
  Advised.ofExcept <|
    (Field.build id f.name type primaryKey f.unique f.nullable (f.increment || type.kind.isSerial)
      (f.default.bind (defaultOf type)) f.note).mapError (.atLine f.line)

/-- Without limits every default is read. -/
theorem buildField_eq (d : Dialect) (enums : List EnumType) (table id : String) (primaryKey : Bool)
    (f : FieldDraft) : buildField d enums table id primaryKey f = (do
      let type ← typeOf d enums table primaryKey f
      Advised.ofExcept <|
        (Field.build id f.name type primaryKey f.unique f.nullable
          (f.increment || type.kind.isSerial) (f.default.bind (defaultOf type)) f.note).mapError
          (.atLine f.line)) := by
  unfold buildField
  have hnone : ∀ t, f.default.bind (defaultFault? {} t) = none := by simp
  simp only [hnone]
  rfl

/-- The fields of a table from a position on, their names different from those seen before. -/
def buildFields (d : Dialect) (enums : List EnumType) (table id : String) (keyed : List String) :
    (position : Nat) → (seen : List String) → List FieldDraft → (l : Limits := {}) →
      Advised (List Field)
  | _, _, [], _ => pure []
  | position, seen, f :: rest, l => do
    if f.name ∈ seen then Advised.fail (.atLine f.line (.duplicateField f.name table))
    else
      let inKey := f.primaryKey || f.name ∈ keyed
      let field ← buildField d enums table (Ids.field id position) inKey f l
      return field :: (← buildFields d enums table id keyed (position + 1) (f.name :: seen) rest l)

/-- The indexes of a table, those that make up its primary key left out. -/
def buildIndexes (table : String) (columns : List String) :
    List IndexDraft → Except Fault (List Index)
  | [] => .ok []
  | i :: rest =>
    match i.fields.filter (· ∉ columns) with
    | [] => do
      if i.primaryKey then buildIndexes table columns rest
      else return (← Index.build i.fields i.unique i.name) :: (← buildIndexes table columns rest)
    | missing => .error (.atLine i.line (.unknownIndexColumns table missing))

def buildTable (d : Dialect) (enums : List EnumType) (position : Nat) (t : TableDraft)
    (l : Limits := {}) : Advised Table := do
  let keyed := (t.indexes.filter (·.primaryKey)).flatMap (·.fields)
  let id := Ids.table position
  let fields ← buildFields d enums t.name id keyed 0 [] t.fields l
  let indexes ← buildIndexes t.name (t.fields.map (·.name)) t.indexes
  let (x, y) := Grid.place position
  Advised.ofExcept (Table.build id t.name fields indexes t.comment t.color x y)

/-- What the names and the short names of tables refer to, the latest first. -/
abbrev Names := List (String × Table)

/-- The names with those of one more table; a short name gives way to a name that is taken. -/
def Names.add (names : Names) (t : TableDraft) (table : Table) : Names :=
  let names := (t.name, table) :: names
  match t.shortName with
  | some a => if (names.lookup a).isSome then names else (a, table) :: names
  | none => names

/-- The tables from a position on, and what their names refer to. -/
def buildTables (d : Dialect) (enums : List EnumType) :
    (position : Nat) → Names → List TableDraft → (l : Limits := {}) → Advised (List Table × Names)
  | _, names, [], _ => pure ([], names)
  | position, names, t :: rest, l => do
    if (names.lookup t.name).isSome then Advised.fail (.atLine t.line (.duplicateTable t.name))
    else
      let table ← buildTable d enums position t l
      let (tables, names) ← buildTables d enums (position + 1) (names.add t table) rest l
      return (table :: tables, names)

/-- The table and the field that an endpoint names. -/
def resolveEndpoint (names : Names) (line : Nat) (endpoint : String × String) :
    Except Fault (Table × Field) :=
  match names.lookup endpoint.1 with
  | none => .error (.atLine line (.unknownTable endpoint.1))
  | some t =>
    match t.fieldByName? endpoint.2 with
    | none => .error (.atLine line (.unknownField endpoint.1 endpoint.2))
    | some f => .ok (t, f)

/-- The markers and what they stand for. -/
def markers : List (String × Cardinality) :=
  [(">", .manyToOne), ("<", .oneToMany), ("-", .oneToOne)]

/-- The actions that settings name, the last of each sort. -/
def actionsOf (settings : List (List Char)) : Action × Action :=
  settings.foldl (fun (update, delete) s =>
    let (key, value) := splitSetting s
    match key, nonempty? value with
    | "update", some v => (.ofText (str v), delete)
    | "delete", some v => (update, .ofText (str v))
    | _, _ => (update, delete)) (.restrict, .restrict)

def buildReference (names : Names) (position : Nat) (r : ReferenceDraft) : Advised Reference := do
  let (sourceTable, sourceField) ← resolveEndpoint names r.line r.left
  let (targetTable, targetField) ← resolveEndpoint names r.line r.right
  Advised.noteIf (markers.lookup r.marker = none) (.warning "interchange.cardinality_fallback"
    ("Line " ++ natText r.line ++ ": unrecognised relationship marker '" ++ r.marker ++
      "' between " ++ sourceTable.name ++ "." ++ sourceField.name ++ " and " ++ targetTable.name ++
      "." ++ targetField.name ++ "; treated as many-to-one.")
    (some sourceTable.name) (some sourceField.name))
  let (onUpdate, onDelete) := actionsOf r.settings
  return {
    id := Ids.reference position
    sourceTable := sourceTable.id
    sourceField := sourceField.id
    targetTable := targetTable.id
    targetField := targetField.id
    cardinality := (markers.lookup r.marker).getD .manyToOne
    onUpdate, onDelete
    name := r.name }

def buildReferences (names : Names) :
    (position : Nat) → List ReferenceDraft → Advised (List Reference)
  | _, [] => pure []
  | position, r :: rest => do
    let reference ← buildReference names position r
    return reference :: (← buildReferences names (position + 1) rest)

def inlineReferences (t : TableDraft) : List ReferenceDraft :=
  t.fields.filterMap fun f => f.reference.map fun r =>
    { name := none
      left := (t.name, f.name)
      marker := str r.marker
      right := (str r.table, str r.field)
      line := f.line }

def build (items : List Item) (l : Limits := {}) : Advised Schema := do
  let d := dialectOf items
  let enums := enumsOf items
  let drafts := tablesOf items
  let (tables, names) ← buildTables d enums 0 [] drafts l
  let references ← buildReferences names 0 (drafts.flatMap inlineReferences ++ referencesOf items)
  Advised.ofExcept (Schema.build tables references enums d)

def parse (text : String) (l : Limits := {}) : Advised Schema := do
  build (← itemsOf text.toList) l

end Schemata.Notation
