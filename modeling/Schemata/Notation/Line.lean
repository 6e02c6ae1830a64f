import Schemata.Notation.Setting

/-!
# Lines of the notation

Every construct stands on one line. `Header.ofLine?` recognises the lines that may stand outside all
blocks, and the other readers those inside a table or a list of references. All take a line without
blanks at its ends; keywords are in any case.
-/

namespace Schemata.Notation

open Text

/-- A line outside all blocks. -/
inductive Header
  | project
  | table (name : List Char) (shortName : Option (List Char)) (settings : List Char)
  | enum (name : List Char)
  /-- The opening of a block of references. -/
  | references (name : Option (List Char))
  | reference (name : Option (List Char)) (body : List Char)
  /-- The opening of a block that is skipped, with its first word. -/
  | skipped (word : List Char)
  | note
  /-- The heading of a table or an enumeration in which no name is found. -/
  | unnamed
  deriving DecidableEq

/-- The text in front of a brace at the end, without the blanks before the brace. -/
def beforeBrace? (s : List Char) : Option (List Char) :=
  if s.getLast? = some '\x7b' then some (dropTrailingBlanks s.dropLast) else none

/-- Whether only blanks and an opening brace are left. -/
def opensBlock (s : List Char) : Bool := skipBlanks s == ['\x7b']

/-- What is in the brackets that reach from here to the end; nothing if nothing is left. -/
def takeSettings? (s : List Char) : Option (List Char) :=
  match skipBlanks s with
  | [] => some []
  | '[' :: r => if r.getLast? = some ']' then some r.dropLast else none
  | _ => none

/-- What is in the brackets between here and the opening brace at the end. -/
def settingsBeforeBrace? (s : List Char) : Option (List Char) :=
  match skipBlanks s with
  | ['\x7b'] => some []
  | '[' :: r =>
    (beforeBrace? r).bind fun t => if t.getLast? = some ']' then some t.dropLast else none
  | _ => none

def takeSpacedName (s : List Char) : Option (List Char) × List Char :=
  match (skipBlanks1 s).bind takeHeadingName? with
  | some (name, rest) => (some name, rest)
  | none => (none, s)

/-- The short name of a table, behind the word `as`. -/
def takeShortName (s : List Char) : Option (List Char) × List Char :=
  match (do takeHeadingName? (← skipBlanks1 (← dropKeyword? "as".toList (← skipBlanks1 s)))) with
  | some (name, rest) => (some name, rest)
  | none => (none, s)

namespace Header

def project? (s : List Char) : Option Header := do
  let (_, rest) := takeSpacedName (← dropKeyword? "project".toList s)
  if opensBlock rest then some .project else none

def table? (s : List Char) : Option Header := do
  let (name, rest) ← takeQualified? (← skipBlanks1 (← dropKeyword? "table".toList s))
  let (shortName, rest) := takeShortName rest
  let settings ← settingsBeforeBrace? rest
  return name.elim .unnamed fun n => .table n shortName settings

def enum? (s : List Char) : Option Header := do
  let (name, rest) ← takeQualified? (← skipBlanks1 (← dropKeyword? "enum".toList s))
  if opensBlock rest then some (name.elim .unnamed .enum) else none

/-- A reference on one line behind a colon or in braces, or the opening of a block of them. -/
def reference? (s : List Char) : Option Header := do
  let (name, rest) := takeSpacedName (← dropKeyword? "ref".toList s)
  match skipBlanks rest with
  | ['\x7b'] => some (.references name)
  | '\x7b' :: c :: r =>
    if (c :: r).getLast? = some '\x7d' ∧ r ≠ [] then
      some (.reference name (strip (c :: r).dropLast))
    else none
  | ':' :: r => if (skipBlanks r).isEmpty then none else some (.reference name (strip r))
  | _ => none

def group? (s : List Char) : Option Header := do
  let rest ← dropKeyword? "tablegroup".toList s
  if (rest.head?.map isWordChar) = some false ∧ rest.getLast? = some '\x7b' then
    some (.skipped (s.takeWhile (!isBlank ·)))
  else none

def noteBlock? (s : List Char) : Option Header := do
  if opensBlock (← dropKeyword? "note".toList s) then some (.skipped (s.takeWhile (!isBlank ·)))
  else none

end Header

/-- The text of a note on one line. -/
def noteLine? (s : List Char) : Option (List Char) := do
  let ':' :: r := skipBlanks (← dropKeyword? "note".toList s) | none
  let text := skipBlanks r
  if text.isEmpty then none else some text

/-- Whether a line opens a block with a keyword alone. -/
def opensWith (keyword : String) (s : List Char) : Bool :=
  ((dropKeyword? keyword.toList s).map opensBlock).getD false

def Header.ofLine? (s : List Char) : Option Header :=
  (project? s).or <| (table? s).or <| (enum? s).or <| (reference? s).or <| (group? s).or <|
    (noteBlock? s).or <| (noteLine? s).map fun _ => .note

/-! ## Lines of a table -/

def isTypeChar (c : Char) : Bool := isWordChar c || c == '.'

/-- Arguments in parentheses directly behind a type name. -/
def takeArguments (s : List Char) : List Char × List Char :=
  match s with
  | '(' :: r =>
    match takeUntil? ')' r with
    | some (args, rest) => ('(' :: (args ++ [')']), rest)
    | none => ([], s)
  | _ => ([], s)

/-- The type of a field and its settings. A pair of brackets behind the type belongs to it, unless
the line makes sense only if they open the settings. -/
def takeType? (s : List Char) : Option (List Char × List Char) :=
  match s with
  | '"' :: r => do
    let (type, rest) ← takeUntil? '"' r
    if type.isEmpty then none else (takeSettings? rest).map (type, ·)
  | _ =>
    let word := s.takeWhile isTypeChar
    if word.isEmpty then none
    else
      let (args, rest) := takeArguments (s.dropWhile isTypeChar)
      let type := word ++ args
      match rest with
      | '[' :: ']' :: r =>
        ((takeSettings? r).map (type ++ ['[', ']'], ·)).or ((takeSettings? rest).map (type, ·))
      | _ => (takeSettings? rest).map (type, ·)

/-- A field: its name, its type and its settings. -/
structure FieldLine where
  name : List Char
  type : List Char
  settings : List Char
  deriving DecidableEq

def FieldLine.ofLine? (s : List Char) : Option FieldLine := do
  let (name, rest) ← takeName? s
  let (type, settings) ← takeType? (← skipBlanks1 rest)
  return ⟨name, type, settings⟩

/-- What an index is over: columns, or an expression with its backticks. -/
inductive IndexTarget
  | columns (names : List (List Char))
  | expression (text : List Char)
  deriving DecidableEq

def takeIndex? (s : List Char) : Option (IndexTarget × List Char) :=
  match s with
  | '(' :: r => do
    let (inside, rest) ← takeUntil? ')' r
    return (.columns ((splitSettings inside).map unquoteName), ← takeSettings? rest)
  | '\x60' :: r => do
    let (inside, rest) ← takeUntil? '\x60' r
    return (.expression (enclose '\x60' '\x60' inside), ← takeSettings? rest)
  | _ => do
    let (name, rest) ← takeName? s
    return (.columns [name], ← takeSettings? rest)

/-- The label on a line of an enumeration; settings behind it are dropped. -/
def enumLabel (s : List Char) : List Char :=
  let label := if '[' ∈ s.dropLast ∧ s.getLast? = some ']' then strip (s.takeWhile (· ≠ '[')) else s
  if label.head? = some '\'' ∨ label.head? = some '"' then unquoteText label
  else unquoteName label

/-! ## References -/

def isMarkerChar (c : Char) : Bool := c == '<' || c == '>' || c == '-'

/-- The marker and the endpoint of a reference inside a field. -/
structure InlineReference where
  marker : List Char
  table : List Char
  field : List Char
  deriving DecidableEq

def InlineReference.ofText? (s : List Char) : Option InlineReference := do
  let marker := s.takeWhile isMarkerChar
  if marker.isEmpty then none
  else
    let ((table, field), rest) ← takeEndpoint? (skipBlanks (s.dropWhile isMarkerChar))
    if rest.isEmpty then some ⟨marker, table, field⟩ else none

/-- The endpoints of a reference, the marker between them, and its settings. -/
structure ReferenceBody where
  left : List Char × List Char
  marker : List Char
  right : List Char × List Char
  settings : List Char
  deriving DecidableEq

def ReferenceBody.ofText? (s : List Char) : Option ReferenceBody := do
  let (left, rest) ← takeEndpoint? s
  let rest := skipBlanks rest
  let marker := rest.takeWhile isMarkerChar
  if marker.isEmpty then none
  else
    let (right, rest) ← takeEndpoint? (skipBlanks (rest.dropWhile isMarkerChar))
    return ⟨left, marker, right, ← takeSettings? rest⟩

end Schemata.Notation
