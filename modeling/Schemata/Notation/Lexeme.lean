import Schemata.Text.Blank
import Schemata.Text.Letter
import Schemata.Text.Quoted

/-!
# Names and texts of the notation

A name is plain or stands in double quotes or backticks; names are joined by dots. A text stands in
single, triple or double quotes, with escapes. Each reader takes what it looks for from the front
and gives back the rest.
-/

namespace Schemata.Notation

open Text

/-- The characters of a plain name after its first. -/
def isNameChar (c : Char) : Bool := isWordChar c || c == '$'

/-- A text without the mark `q`, up to the mark, and what comes after it. -/
def takeUntil? (q : Char) (s : List Char) : Option (List Char × List Char) :=
  match s.dropWhile (· ≠ q) with
  | _ :: rest => some (s.takeWhile (· ≠ q), rest)
  | [] => none

/-- A name without its quotes, and what comes after it. -/
def takeName? (s : List Char) : Option (List Char × List Char) :=
  match s with
  | [] => none
  | c :: r =>
    if c = '"' ∨ c = '\x60' then (takeUntil? c r).filter fun (name, _) => !name.isEmpty
    else if isNameStart c then some (c :: r.takeWhile isNameChar, r.dropWhile isNameChar)
    else none

/-- A name in a heading, which may start with a letter in any case. -/
def takeHeadingName? (s : List Char) : Option (List Char × List Char) :=
  match s with
  | [] => none
  | c :: r =>
    if isNameStartInAnyCase c then some (c :: r.takeWhile isNameChar, r.dropWhile isNameChar)
    else takeName? s

/-- A plain name from its first ASCII letter or low line on, if it has one. -/
def nameWithin? (s : List Char) : Option (List Char) :=
  match s.dropWhile (!isNameStart ·) with
  | [] => none
  | name => some name

/-- A name in a heading as it is looked up there. -/
def takeFoundName? (s : List Char) : Option (Option (List Char) × List Char) :=
  match takeName? s with
  | some (name, rest) => some (some name, rest)
  | none => (takeHeadingName? s).map fun (name, rest) => (nameWithin? name, rest)

/-- The last name found of one or two in a heading that a dot joins. -/
def takeQualified? (s : List Char) : Option (Option (List Char) × List Char) :=
  (takeFoundName? s).map fun (name, rest) =>
    match rest with
    | '.' :: r =>
      match takeFoundName? r with
      | some (last, rest') => (last.or name, rest')
      | none => (name, rest)
    | _ => (name, rest)

/-- The table and the field that two or three names joined by dots end with. -/
def takeEndpoint? (s : List Char) : Option ((List Char × List Char) × List Char) := do
  let (a, r) ← takeName? s
  let '.' :: r := r | none
  let (b, r) ← takeName? r
  match r with
  | '.' :: t =>
    match takeName? t with
    | some (c, rest) => some ((b, c), rest)
    | none => some ((a, b), r)
  | _ => some ((a, b), r)

/-- A name in the notation, its quotes taken off if it has any. -/
def unquoteName (s : List Char) : List Char :=
  let s := strip s
  match s with
  | q :: r => if (q = '"' ∨ q = '\x60') ∧ r.getLast? = some q then r.dropLast else s
  | [] => []

/-- The text between a mark at both ends, if the marks do not overlap. -/
def between? (mark s : List Char) : Option (List Char) :=
  if 2 * mark.length ≤ s.length ∧ mark.isPrefixOf s ∧ mark.isSuffixOf s then
    some ((s.drop mark.length).take (s.length - 2 * mark.length))
  else none

/-- A text in the notation, its quotes taken off and its escapes read if it is quoted. -/
def unquoteText (s : List Char) : List Char :=
  let s := strip s
  match (between? "'''".toList s).or <| (between? ['\''] s).or <| between? ['"'] s with
  | some inside => unescape inside
  | none => s

/-! ## Writing -/

/-- Whether a name needs no quotes: letters, digits and low lines of ASCII, the first no digit. One
line feed at the end goes unnoticed. -/
def isPlainName (s : List Char) : Bool :=
  let s := if s.getLast? = some '\n' then s.dropLast else s
  match s with
  | c :: r => isNameStart c && r.all fun d => d.isAlphanum || d == '_'
  | [] => false

def quoteName (name : String) : String :=
  if isPlainName name.toList then name else String.ofList (enclose '"' '"' name.toList)

def quoteText (s : String) : String := String.ofList (enclose '\'' '\'' (escape '\'' s.toList))

def quoteLabel (s : String) : String :=
  if isPlainName s.toList then s else String.ofList (enclose '"' '"' (escape '"' s.toList))

end Schemata.Notation
