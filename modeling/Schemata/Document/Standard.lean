import Schemata.Document.Checked
import Schemata.Document.Numeral
import Schemata.Json.Printer

/-!
# A library for checked values

`Validation.standard` never stops at the first value that does not fit: it gives all violations, in the
order of the members that have them. Scalars are read leniently: a number may stand in a text, and a
truth value may be a number or a word.
-/

namespace Schemata

namespace Checked

variable {α β : Type}

def violations : Checked α → List Violation
  | valid _ => []
  | invalid vs => vs

def map (f : α → β) : Checked α → Checked β
  | valid a => valid (f a)
  | invalid vs => invalid vs

/-- Both of two values, or what is wrong with either. -/
def both : Checked α → Checked β → Checked (α × β)
  | valid a, valid b => valid (a, b)
  | x, y => invalid (x.violations ++ y.violations)

/-- A value that breaks a rule. -/
def broken (path : List Step) (rule : String) (message : Option String := none) : Checked α :=
  invalid [⟨path, rule, message⟩]

/-- A value that breaks a rule of the domain. -/
def refused (path : List Step) (message : String) : Checked α :=
  broken path "value_error" (some ("Value error, " ++ message))

end Checked

namespace Check

variable {α β : Type}

/-! ## Scalars -/

def string : Check String := fun path j =>
  match j with
  | .str s => .valid s
  | _ => .broken path "string_type"

/-- Two to the power of 63. A number that is not whole by its form has to stay below it to be taken
for a whole number, and so has any number to be taken for a truth value. -/
def wordBound : Nat := 0x8000000000000000

def int : Check Int := fun path j =>
  match j with
  | .int n => .valid n
  | .bool b => .valid (if b then 1 else 0)
  | .float x =>
    match x.toInt? with
    | some n => if n.natAbs < wordBound then .valid n else .broken path "int_parsing_size"
    | none => .broken path (if x.toRat?.isSome then "int_from_float" else "finite_number")
  | .str s =>
    match Lenient.wholeNumber s.toList with
    | .ok n => .valid n
    | .error .malformed => .broken path "int_parsing"
    | .error .tooLong => .broken path "int_parsing_size"
  | _ => .broken path "int_type"

/-- A whole number within bounds. -/
def bounded (low high : Option Int) : Check Int := fun path j =>
  match int path j with
  | .valid n =>
    if low.any (n < ·) then .broken path "greater_than_equal"
    else if high.any (· < n) then .broken path "less_than_equal"
    else .valid n
  | x => x

def float : Check Binary64 := fun path j =>
  match j with
  | .float x => .valid x
  | .int n =>
    match Binary64.ofInt n with
    | .infinite _ => .broken path "float_type"
    | x => .valid x
  | .bool b => .valid (.ofInt (if b then 1 else 0))
  | .str s => (Lenient.number? s.toList).elim (.broken path "float_parsing") .valid
  | _ => .broken path "float_type"

/-- The words for the truth values, in any case. -/
def truthWord? (s : String) : Option Bool :=
  let w := String.ofList (s.toList.map Char.toLower)
  if w ∈ ["true", "t", "yes", "y", "on", "1"] then some true
  else if w ∈ ["false", "f", "no", "n", "off", "0"] then some false
  else none

/-- The truth value of a whole number: one or zero. -/
def truthNumber (path : List Step) (n : Int) : Checked Bool :=
  if n = 0 then .valid false else if n = 1 then .valid true else .broken path "bool_parsing"

def bool : Check Bool := fun path j =>
  match j with
  | .bool b => .valid b
  | .str s => (truthWord? s).elim (.broken path "bool_parsing") .valid
  | .int n =>
    if -(wordBound : Int) ≤ n ∧ n < wordBound then truthNumber path n
    else .broken path "bool_type"
  | .float x =>
    match x.toInt? with
    | some n => if n.natAbs < wordBound then truthNumber path n else .broken path "bool_type"
    | none => .broken path "bool_type"
  | _ => .broken path "bool_type"

/-- A truth value, a whole number or a text as it stands; a number with a fraction part of zero as
the first of these that it can be. -/
def scalar : Check Scalar := fun path j =>
  match j with
  | .bool b => .valid (.bool b)
  | .int n => .valid (.int n)
  | .str s => .valid (.str s)
  | j =>
    match bool (path ++ [.key "bool"]) j, int (path ++ [.key "int"]) j with
    | .valid b, _ => .valid (.bool b)
    | _, .valid n => .valid (.int n)
    | .invalid vs, .invalid vs' =>
      .invalid (vs ++ vs' ++ (string (path ++ [.key "str"]) j).violations)

def named (ofName? : String → Option α) : Check α := fun path j =>
  match j with
  | .str s => (ofName? s).elim (.broken path "enum") .valid
  | _ => .broken path "enum"

def parsed (parse : Json → Except String α) : Check α := fun path j =>
  match parse j with
  | .ok a => .valid a
  | .error message => .refused path message

/-! ## Composites -/

def nullable (c : Check α) : Check (Option α) := fun path j =>
  match j with
  | .null => .valid none
  | j => (c path j).map some

def itemsFrom (c : Check α) (path : List Step) : Nat → List Json → Checked (List α)
  | _, [] => .valid []
  | i, j :: js =>
    ((c (path ++ [.item i]) j).both (itemsFrom c path (i + 1) js)).map fun x => x.1 :: x.2

def list (c : Check α) : Check (List α) := fun path j =>
  match j with
  | .arr items => itemsFrom c path 0 items
  | _ => .broken path "list_type"

def nonempty (c : Check α) : Check (List α) := fun path j =>
  match list c path j with
  | .valid [] => .broken path "too_short"
  | x => x

def member (key other : String) (default : Option α) (c : Check α) : Check α := fun path j =>
  match j.memberUnder? key other with
  | some (k, v) => c (path ++ [.key k]) v
  | none => default.elim (.broken (path ++ [.key key]) "missing") .valid

def record (parts : Check α) (make : α → β) : Check β := fun path j =>
  match j with
  | .obj _ => (parts path j).map make
  | _ => .broken path "model_type"

def refined (c : Check α) (flaw? : α → Option String) : Check α := fun path j =>
  match c path j with
  | .valid a => (flaw? a).elim (.valid a) (.refused path)
  | x => x

end Check

/-- The library that a program uses unless it is given another one. -/
def Validation.standard : Validation where
  string := Check.string
  bool := Check.bool
  float := Check.float
  bounded := Check.bounded
  scalar := Check.scalar
  named := Check.named
  parsed := Check.parsed
  nullable := Check.nullable
  list := Check.list
  nonempty := Check.nonempty
  member := Check.member
  both c d := fun path j => (c path j).both (d path j)
  record := Check.record
  refined := Check.refined
  floatText x := String.ofList (Json.floatChars x)
  dump style j := .ok (j.text style)

end Schemata
