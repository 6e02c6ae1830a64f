import Schemata.Fault

/-!
# Column types and defaults

A `ColumnType` is a kind with the parameters the kind takes; the rules about which kind takes what
are part of the type. `ColumnType.build` checks them. A `Default` is what a column holds when
nothing is given: a literal of some type, or an expression that the database evaluates.
-/

namespace Schemata

/-- The type of a column, whatever the dialect. -/
structure ColumnType where
  kind : Kind
  /-- The length; none means the default length of the dialect. -/
  size : Option Int := none
  /-- The total number of digits. -/
  precision : Option Int := none
  /-- The number of digits behind the point. -/
  scale : Option Int := none
  /-- The labels of a kind that lists its values. -/
  values : List String := []
  /-- The enumeration of the schema that the labels come from. -/
  enumName : Option String := none
  unsigned : Bool := false
  isSized_of_size : size ≠ none → kind.isSized = true := by exact fun h => absurd rfl h
  eq_decimal_of_precision : precision ≠ none ∨ scale ≠ none → kind = .decimal := by
    exact fun h => h.elim (absurd rfl) (absurd rfl)
  isListed_of_values : values ≠ [] → kind.isListed = true := by exact fun h => absurd rfl h
  deriving DecidableEq

namespace ColumnType

/-- A type from its parts, if the kind takes them. -/
def build (kind : Kind) (size precision scale : Option Int) (values : List String)
    (enumName : Option String) (unsigned : Bool) : Except Fault ColumnType :=
  if hs : size ≠ none → kind.isSized = true then
    if hp : precision ≠ none ∨ scale ≠ none → kind = .decimal then
      if hv : values ≠ [] → kind.isListed = true then
        .ok ⟨kind, size, precision, scale, values, enumName, unsigned, hs, hp, hv⟩
      else .error (.valuesNotTaken kind)
    else .error (.precisionNotTaken kind)
  else .error (.sizeNotTaken kind)

def plain (kind : Kind) (unsigned : Bool := false) : ColumnType := { kind, unsigned }

def sized (kind : Kind) (h : kind.isSized = true) (size : Option Int) : ColumnType :=
  { kind, size, isSized_of_size := fun _ => h }

def decimal (precision scale : Option Int) (unsigned : Bool) : ColumnType :=
  { kind := .decimal, precision, scale, unsigned, eq_decimal_of_precision := fun _ => rfl }

def listed (kind : Kind) (h : kind.isListed = true) (values : List String)
    (enumName : Option String := none) : ColumnType :=
  { kind, values, enumName, isListed_of_values := fun _ => h }

/-- A type that takes its labels from an enumeration. -/
def ofEnum (name : String) (values : List String) : ColumnType :=
  listed .enum rfl values (some name)

def family (t : ColumnType) : Family := t.kind.family

/-- The enumeration of the schema, unless its name is empty. -/
def enumName? (t : ColumnType) : Option String := t.enumName.filter (· ≠ "")

def describe (t : ColumnType) : String :=
  match t.kind, t.precision, t.size, t.enumName? with
  | .decimal, some p, _, _ =>
    "decimal(" ++ Text.intText p ++ "," ++ Text.intText (t.scale.getD 0) ++ ")"
  | _, _, some n, _ => t.kind.name ++ "(" ++ Text.intText n ++ ")"
  | _, _, _, some e => t.kind.name ++ " " ++ e
  | _, _, _, _ => t.kind.name

/-- The numbers in a type as it is described, or written for any target. -/
def numbers (t : ColumnType) : List Int :=
  match t.kind, t.precision with
  | .decimal, some p => [p, t.scale.getD 0]
  | _, _ => t.size.toList

end ColumnType

/-- What a column holds when nothing is given. -/
inductive Default
  | bool (b : Bool)
  | int (n : Int)
  | decimal (d : Decimal)
  | text (s : String)
  | expr (sql : String)
  deriving DecidableEq

namespace Default

/-- The whole numbers in a default as it is written. -/
def numbers : Default → List Int
  | int n => [n]
  | _ => []

/-- The value of a literal that is a finite number; truth values are one and zero. -/
def number? : Default → Option Rat
  | bool b => some (if b then 1 else 0)
  | int n => some n
  | decimal (.finite negative c e) => some ((Fraction.scale 10 e ⟨c, 1⟩).toRat negative)
  | _ => none

/-- Equality of values: numbers are compared by value, all else by its text. -/
def same (a b : Default) : Bool :=
  match a.number?, b.number? with
  | some x, some y => x == y
  | none, none => a == b && a != .decimal .nan
  | _, _ => false

end Default

end Schemata
