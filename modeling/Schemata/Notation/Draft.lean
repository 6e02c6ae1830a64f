import Schemata.Finding
import Schemata.Notation.Line
import Schemata.Schema.Basic

/-!
# Drafts

The first pass over a text of the notation. Its lines are read one after the other in a `Block`, the
block the line stands in; each line changes the block and may finish an `Item`. What a name refers
to is not looked at: that is left to `Schemata.Notation.Builder`.
-/

namespace Schemata.Notation

open Text

/-- A field as it is written. -/
structure FieldDraft where
  name : String
  rawType : String
  line : Nat
  primaryKey : Bool := false
  unique : Bool := false
  nullable : Bool := true
  increment : Bool := false
  default : Option (List Char) := none
  note : String := ""
  reference : Option InlineReference := none
  deriving DecidableEq

/-- An index as it is written. -/
structure IndexDraft where
  fields : List String
  line : Nat
  unique : Bool := false
  primaryKey : Bool := false
  name : Option String := none
  deriving DecidableEq

/-- A table as it is written. -/
structure TableDraft where
  name : String
  line : Nat
  shortName : Option String := none
  comment : String := ""
  color : String := defaultColor
  fields : List FieldDraft := []
  indexes : List IndexDraft := []
  deriving DecidableEq

/-- A reference as it is written, between tables and fields by name. -/
structure ReferenceDraft where
  name : Option String
  left : String × String
  marker : String
  right : String × String
  line : Nat
  settings : List (List Char) := []
  deriving DecidableEq

/-- What one or more lines amount to. -/
inductive Item
  | dialect (d : Dialect)
  | table (t : TableDraft)
  | enum (e : EnumType)
  | reference (r : ReferenceDraft)
  deriving DecidableEq

/-- The innermost block a line stands in, with what has been read of it and the line that opened
it. -/
inductive Block
  | top
  | project (opened : Nat)
  | projectNote (opened : Nat)
  | table (t : TableDraft)
  | indexes (opened : Nat) (t : TableDraft)
  | tableNote (opened : Nat) (t : TableDraft) (notes : List String)
  | enum (opened : Nat) (e : EnumType)
  | references (opened : Nat) (name : Option String)
  | skipped (opened : Nat) (word : String)
  deriving DecidableEq

/-- The name of a block and the line it opened on. -/
def Block.header? : Block → Option (String × Nat)
  | top => none
  | project n => some ("Project", n)
  | projectNote n => some ("Note", n)
  | table t => some ("Table " ++ t.name, t.line)
  | indexes n _ => some ("indexes", n)
  | tableNote n _ _ => some ("Note", n)
  | enum n e => some ("Enum " ++ e.name, n)
  | references n _ => some ("Ref", n)
  | skipped n word => some (word, n)

/-- What a line leads to: the block of the next line, and the items it finishes. -/
abbrev Progress := Block × List Item

abbrev str (s : List Char) : String := String.ofList s

/-! ## Lines by block -/

def referenceLine (line : Nat) (name : Option String) (body : List Char) :
    Except Fault ReferenceDraft :=
  match ReferenceBody.ofText? body with
  | none => .error (.atLine line (.malformedReference (str body)))
  | some b =>
    .ok
      { name
        left := (str b.left.1, str b.left.2)
        marker := str b.marker
        right := (str b.right.1, str b.right.2)
        line
        settings := splitSettings b.settings }

def TableDraft.set (t : TableDraft) (setting : List Char) : TableDraft :=
  match splitSetting setting with
  | (key, value) =>
    match key, nonempty? value with
    | "headercolor", some v => { t with color := str v }
    | "note", some v => { t with comment := str (unquoteText v) }
    | _, _ => t

def topLine (line : Nat) (s : List Char) : Except Fault Progress :=
  match Header.ofLine? s with
  | none => .error (.atLine line (.unexpectedContent (str s)))
  | some .project => .ok (.project line, [])
  | some (.table name shortName settings) =>
    let t : TableDraft := { name := str name, line, shortName := shortName.map str }
    .ok (.table ((splitSettings settings).foldl TableDraft.set t), [])
  | some (.enum name) => .ok (.enum line ⟨str name, []⟩, [])
  | some (.references name) => .ok (.references line (name.map str), [])
  | some (.reference name body) =>
    (referenceLine line (name.map str) body).map fun r => (.top, [.reference r])
  | some (.skipped word) => .ok (.skipped line (str word), [])
  | some .note => .ok (.top, [])
  | some .unnamed => .error .unnamedHeading

/-- A line of the project block: only the type of the database matters. -/
def projectLine (opened : Nat) (s : List Char) : Noted Progress :=
  let (key, value) := splitSetting s
  match key, nonempty? value with
  | "database_type", some v => do
    let label := str (unquoteText v)
    match Dialect.ofAlias? label with
    | some d => return (.project opened, [.dialect d])
    | none =>
      Noted.note (.warning "interchange.unknown_dialect"
        ("Unknown database_type '" ++ label ++ "'; types read as generic."))
      return (.project opened, [])
  | _, _ =>
    pure (if opensWith "note" s then (.projectNote opened, []) else (.project opened, []))

def FieldDraft.set (table : String) (line : Nat) (f : FieldDraft) (setting : List Char) :
    Advised FieldDraft :=
  let (key, value) := splitSetting setting
  let lineText := "Line " ++ natText line ++ ": ignored "
  let ignored (message : String) : Advised FieldDraft := do
    Advised.note (.warning "interchange.unknown_setting" message (some table) (some f.name))
    return f
  match key, value with
  | "pk", _ | "primary key", _ => pure { f with primaryKey := true }
  | "increment", _ => pure { f with increment := true }
  | "not null", _ => pure { f with nullable := false }
  | "null", _ => pure { f with nullable := true }
  | "unique", _ => pure { f with unique := true }
  | "default", some v => pure { f with default := some v }
  | "note", some v => pure { f with note := str (unquoteText v) }
  | "ref", some v =>
    match InlineReference.ofText? v with
    | some r => pure { f with reference := some r }
    | none => Advised.fail (.atLine line (.malformedInlineReference (str v)))
  | "delete", _ | "update", _ =>
    ignored (lineText ++ "'" ++ str setting ++
      "'; referential actions are only read from Ref: lines, not from inline refs.")
  | "check", _ => pure f
  | _, _ => ignored (lineText ++ "field setting '" ++ str setting ++ "'.")

def tableLine (line : Nat) (t : TableDraft) (s : List Char) : Advised Progress :=
  if opensWith "indexes" s then pure (.indexes line t, [])
  else if opensWith "note" s then pure (.tableNote line t [], [])
  else
    match noteLine? s with
    | some text => pure (.table { t with comment := str (unquoteText text) }, [])
    | none =>
      match FieldLine.ofLine? s with
      | none => Advised.fail (.atLine line (.malformedField (str s)))
      | some l => do
        let f : FieldDraft := { name := str l.name, rawType := str l.type, line }
        let f ← (splitSettings l.settings).foldlM (FieldDraft.set t.name line) f
        return (.table { t with fields := t.fields ++ [f] }, [])

def IndexDraft.set (i : IndexDraft) (setting : List Char) : IndexDraft :=
  let (key, value) := splitSetting setting
  match key, nonempty? value with
  | "unique", _ => { i with unique := true }
  | "pk", _ => { i with primaryKey := true }
  | "name", some v => { i with name := some (str (unquoteText v)) }
  | _, _ => i

def indexLine (line : Nat) (t : TableDraft) (s : List Char) : Advised TableDraft :=
  match takeIndex? s with
  | none => Advised.fail (.atLine line (.malformedIndex (str s)))
  | some (.expression text, _) => do
    Advised.note (.warning "interchange.expression_index"
      ("Line " ++ natText line ++ ": expression index " ++ str text ++
        " is not supported and was skipped.") (some t.name))
    return t
  | some (.columns names, settings) =>
    if names.isEmpty then Advised.fail (.atLine line .indexWithoutColumn)
    else
      let i : IndexDraft := { fields := names.map str, line }
      pure { t with indexes := t.indexes ++ [(splitSettings settings).foldl IndexDraft.set i] }

/-- A line that neither is empty nor closes a block. -/
def contentLine (line : Nat) (s : List Char) : Block → Advised Progress
  | .top => Advised.ofExcept (topLine line s)
  | .project n => Advised.ofNoted (projectLine n s)
  | .projectNote n => pure (.projectNote n, [])
  | .table t => tableLine line t s
  | .indexes n t => do return (.indexes n (← indexLine line t s), [])
  | .tableNote n t notes => pure (.tableNote n t (notes ++ [str (unquoteText s)]), [])
  | .enum n e => pure (.enum n { e with values := e.values ++ [str (enumLabel s)] }, [])
  | .references n name => do
    return (.references n name, [.reference (← referenceLine line name s)])
  | .skipped n word => pure (.skipped n word, [])

def closingLine (line : Nat) : Block → Except Fault Progress
  | .top => .error (.atLine line (.unexpectedContent "\x7d"))
  | .project _ => .ok (.top, [])
  | .projectNote n => .ok (.project n, [])
  | .table t => .ok (.top, [.table t])
  | .indexes _ t => .ok (.table t, [])
  | .tableNote _ t notes => .ok (.table { t with comment := "\n".intercalate notes }, [])
  | .enum _ e => .ok (.top, [.enum e])
  | .references _ _ => .ok (.top, [])
  | .skipped _ _ => .ok (.top, [])

/-- One line in a block. -/
def step (line : Nat) (s : List Char) (b : Block) : Advised Progress :=
  let s := strip s
  if s.isEmpty then pure (b, [])
  else if s = ['\x7d'] then Advised.ofExcept (closingLine line b)
  else contentLine line s b

/-- The end of the text, where no block may be open. -/
def finish (b : Block) : Except Fault (List Item) :=
  match b.header? with
  | none => .ok []
  | some (header, opened) => .error (.atLine opened (.unclosedBlock header))

/-- The items of the lines from a line number on. -/
def itemsFrom (line : Nat) (b : Block) : List (List Char) → Advised (List Item)
  | [] => Advised.ofExcept (finish b)
  | s :: rest => do
    let (b, finished) ← step line s b
    let later ← itemsFrom (line + 1) b rest
    return finished ++ later

def itemsOf (text : List Char) : Advised (List Item) :=
  itemsFrom 1 .top (lines (blankComments text))

/-! ## Items by sort -/

/-- The dialect that the last of the items names. -/
def dialectOf (items : List Item) : Dialect :=
  items.foldl (fun d i => match i with
    | .dialect d' => d'
    | _ => d) .dbml

def tablesOf (items : List Item) : List TableDraft :=
  items.filterMap fun
    | .table t => some t
    | _ => none

def enumsOf (items : List Item) : List EnumType :=
  items.filterMap fun
    | .enum e => some e
    | _ => none

def referencesOf (items : List Item) : List ReferenceDraft :=
  items.filterMap fun
    | .reference r => some r
    | _ => none

end Schemata.Notation
