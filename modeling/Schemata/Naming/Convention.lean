import Schemata.Text.Blank
import Schemata.Text.Letter

/-!
# Naming conventions

The singular of a table name, the conventional name of a foreign-key column, the name of a
constraint, and names with low lines between their words.
-/

namespace Schemata.Naming

open Text

/-- Plurals that follow no rule. -/
def irregular : List (String × String) :=
  [("people", "person"), ("children", "child"), ("men", "man"), ("women", "woman"),
    ("mice", "mouse"), ("geese", "goose"), ("data", "datum"), ("statuses", "status"),
    ("addresses", "address")]

def endsIn (endings : List String) (w : List Char) : Bool :=
  endings.any fun e => e.toList.isSuffixOf w

def singularWord (w : List Char) : List Char :=
  match irregular.lookup (String.ofList w) with
  | some s => s.toList
  | none =>
    if endsIn ["ss", "us", "is"] w then w
    else if endsIn ["ies"] w ∧ 3 < w.length then w.take (w.length - 3) ++ ['y']
    else if endsIn ["xes", "ches", "shes", "sses", "zes"] w then w.take (w.length - 2)
    else if endsIn ["s"] w then w.take (w.length - 1)
    else w

/-- A word in the case of a model: all upper, first letter upper, or as it is. -/
def likeCase (model w : List Char) : List Char :=
  if isUpperText model then upper w
  else if (model.head?.map isUpper).getD false then upper (w.take 1) ++ w.drop 1
  else w

/-- Splits behind the last low line. -/
def splitLast (s : List Char) : List Char × List Char :=
  let last := (s.reverse.takeWhile (· ≠ '_')).reverse
  (s.take (s.length - last.length), last)

/-- The singular of a name: only its last word changes, and it keeps its case. -/
def singular (name : String) : String :=
  let (front, last) := splitLast name.toList
  String.ofList (front ++ likeCase last (singularWord (lower last)))

/-- The conventional name of a column that references a field of a table. -/
def foreignKey (table field : String) : String := singular table ++ "_" ++ field

def constraint (table column : String) : String := table ++ "_" ++ column ++ "_foreign"

/-- Every run of blanks and hyphens as one low line. -/
def joinBlanks : (joined : Bool) → List Char → List Char
  | _, [] => []
  | joined, c :: r =>
    if isBlank c || c == '-' then if joined then joinBlanks true r else '_' :: joinBlanks true r
    else c :: joinBlanks false r

/-- A low line between a small letter or digit and a capital after it. -/
def splitWords : List Char → List Char
  | [] => []
  | [c] => [c]
  | c :: d :: r =>
    if (c.isLower || c.isDigit) && d.isUpper then c :: '_' :: splitWords (d :: r)
    else c :: splitWords (d :: r)

/-- Every run of low lines as one. -/
def joinLowLines : List Char → List Char
  | [] => []
  | [c] => [c]
  | c :: d :: r =>
    if c = '_' ∧ d = '_' then joinLowLines (d :: r) else c :: joinLowLines (d :: r)

/-- A name in lower case with low lines between its words. -/
def snake (name : String) : String :=
  String.ofList (lower (joinLowLines (splitWords (joinBlanks false (strip name.toList)))))

end Schemata.Naming
