import Schemata.Finding
import Schemata.Limits
import Schemata.Column.Basic
import Schemata.Text.Lines

/-!
# Raw types

A type as a source writes it, such as `DECIMAL(10,2) UNSIGNED`, is a name with arguments in
parentheses and modifiers around them. `RawType.ofText` takes it apart and `ColumnType.ofRaw` finds
the column type it means; what a column type cannot hold is reported.
-/

namespace Schemata

open Text

/-- A type name in lower case, its arguments without their quotes, and the unsigned modifier. -/
structure RawType where
  name : String
  args : List String
  unsigned : Bool
  deriving DecidableEq

namespace RawType

/-- Splits behind an opening parenthesis at the one that closes it: what is inside, and what comes
after. Parentheses in quotes do not count; without a closing one all is inside. -/
def splitParen : (depth : Nat) → (quote : Option Char) → List Char → List Char × List Char
  | _, _, [] => ([], [])
  | depth, some q, c :: r =>
    let (inside, rest) := splitParen depth (if c = q then none else some q) r
    (c :: inside, rest)
  | depth, none, c :: r =>
    if c = ')' ∧ depth = 0 then ([], r)
    else
      let next := if c = '(' then depth + 1 else if c = ')' then depth - 1 else depth
      let (inside, rest) := splitParen next (if c = '\'' ∨ c = '"' then some c else none) r
      (c :: inside, rest)

/-- Splits at the commas outside quotes and drops the quotes. In quotes a doubled quote stands for
one and a backslash for the character after it. -/
def pieces : (quote : Option Char) → List Char → List (List Char)
  | _, [] => [[]]
  | some q, [c] => if c = q then [[]] else [[c]]
  | some q, c :: d :: r =>
    if c = q then
      if d = q then consHead q (pieces (some q) r) else pieces none (d :: r)
    else if c = '\\' then consHead d (pieces (some q) r)
    else consHead c (pieces (some q) (d :: r))
  | none, c :: r =>
    if c = '\'' ∨ c = '"' then pieces (some c) r
    else if c = ',' then [] :: pieces none r
    else consHead c (pieces none r)

/-- The arguments between the parentheses; blanks alone are none. -/
def splitArgs (inside : List Char) : List String :=
  match (pieces none inside).map strip with
  | [[]] => []
  | args => args.map String.ofList

/-- The modifiers that are no part of a name. -/
def modifiers : List String := ["unsigned", "signed", "zerofill"]

def ofText (raw : String) : RawType :=
  let text := strip raw.toList
  let head := text.takeWhile (· ≠ '(')
  let (args, tail) := match text.dropWhile (· ≠ '(') with
    | [] => ([], [])
    | _ :: r => let (inside, rest) := splitParen 0 none r; (splitArgs inside, rest)
  let ws := (words (lower (head ++ ' ' :: tail))).map String.ofList
  { name := " ".intercalate (ws.filter (· ∉ modifiers))
    args := args
    unsigned := "unsigned" ∈ ws }

/-- The number that the argument at a position is, if there is one and it is made of digits. A digit
that has no place in a numeral makes the reading fail. -/
def numberArg (t : RawType) (i : Nat) (l : Limits := {}) : Except Fault (Option Int) :=
  match t.args[i]? with
  | none => .ok none
  | some a =>
    let s := strip a.toList
    if !s.isEmpty && s.all isAnyDigit then (l.readDigits s).map fun n : Nat => some (n : Int)
    else .ok none

/-- Whether the first argument asks for the greatest length there is. -/
def isUnbounded (t : RawType) : Bool :=
  t.args.head?.any fun a => lower (strip a.toList) == "max".toList

/-! ## Names of types -/

/-- The type names that mean the same in every dialect. -/
def commonNames : List (String × Kind) :=
  [("bool", .boolean), ("boolean", .boolean), ("tinyint", .tinyint), ("int1", .tinyint),
    ("smallint", .smallint), ("int2", .smallint), ("mediumint", .integer), ("int", .integer),
    ("integer", .integer), ("int4", .integer), ("bigint", .bigint), ("int8", .bigint),
    ("smallserial", .serial), ("serial2", .serial), ("serial", .serial), ("serial4", .serial),
    ("bigserial", .bigserial), ("serial8", .bigserial), ("decimal", .decimal), ("dec", .decimal),
    ("numeric", .decimal), ("fixed", .decimal), ("float", .float), ("float4", .float),
    ("real", .float), ("double", .double), ("double precision", .double), ("float8", .double),
    ("char", .char), ("character", .char), ("nchar", .char), ("bpchar", .char),
    ("varchar", .varchar), ("character varying", .varchar), ("nvarchar", .varchar),
    ("varchar2", .varchar), ("string", .varchar), ("tinytext", .text), ("text", .text),
    ("ntext", .text), ("clob", .text), ("mediumtext", .mediumtext), ("longtext", .longtext),
    ("uuid", .uuid), ("uniqueidentifier", .uuid), ("enum", .enum), ("set", .set),
    ("date", .date), ("time", .time), ("time without time zone", .time),
    ("time with time zone", .time), ("datetime", .datetime), ("datetime2", .datetime),
    ("smalldatetime", .datetime), ("timestamp", .timestamp),
    ("timestamp without time zone", .timestamp), ("timestamptz", .timestamptz),
    ("timestamp with time zone", .timestamptz), ("datetimeoffset", .timestamptz),
    ("year", .year), ("json", .json), ("jsonb", .jsonb), ("binary", .binary),
    ("varbinary", .binary), ("bit", .binary), ("tinyblob", .blob), ("blob", .blob),
    ("mediumblob", .blob), ("longblob", .blob), ("bytea", .blob), ("image", .blob)]

/-- The type names that are special to a dialect, or mean something else there. -/
def dialectNames : Dialect → List (String × Kind)
  | .postgres => [("money", .decimal), ("citext", .text)]
  | .mssql => [("bit", .boolean), ("money", .decimal), ("smallmoney", .decimal), ("float", .double)]
  | _ => []

/-- How SQLite stores a column whose type name it does not know. -/
def affinity (name : String) : Kind :=
  let has (token : String) : Bool := hasInfix token.toList (upper name.toList)
  if has "INT" then .integer
  else if has "CHAR" || has "CLOB" || has "TEXT" then .text
  else if has "BLOB" || name.isEmpty then .blob
  else if has "REAL" || has "FLOA" || has "DOUB" then .double
  else .decimal

/-- The kind that a type name means in a dialect. -/
def kindOf? (d : Dialect) (name : String) : Option Kind :=
  ((dialectNames d).lookup name).or <| (commonNames.lookup name).or <|
    if d = .sqlite then some (affinity name) else none

end RawType

namespace ColumnType

/-- What a column is besides its type: whether it is part of the primary key, whether it counts up,
and where findings about it belong. -/
structure Context where
  primaryKey : Bool := false
  autoIncrement : Bool := false
  table : Option String := none
  field : Option String := none

/-- A counting kind for a whole-number key that counts up. -/
def counting (c : Context) (k : Kind) : Kind :=
  if c.autoIncrement && c.primaryKey then
    match k with
    | .tinyint | .smallint | .integer => .serial
    | .bigint => .bigserial
    | k => k
  else k

/-- The column type of a raw type whose name means a kind. -/
def ofKind (t : RawType) (k : Kind) (l : Limits := {}) : Except Fault ColumnType :=
  if hs : k.isSized = true then
    if t.isUnbounded then
      .ok (plain (if k = .binary then .blob else .text))
    else
      (t.numberArg 0 l).map (sized k hs)
  else if k = .decimal then do
    let precision ← t.numberArg 0 l
    let scale ← t.numberArg 1 l
    return decimal precision (scale.or (precision.map fun _ => 0)) t.unsigned
  else if hl : k.isListed = true then .ok (listed k hl t.args)
  else .ok (plain k (t.unsigned && (k.family = .integer || k.family = .fixedPoint)))

/-- The length in bytes of a string of bits; without a number of bits, or none at all, of one. -/
def byteLength (bits : Option Int) : Int :=
  ((match bits with
    | none | some 0 => 1
    | some n => n) + 7) / 8

/-- The column type that a raw type of a dialect means. Unknown types are read as text. -/
def ofRaw (d : Dialect) (raw : String) (c : Context := {}) (l : Limits := {}) :
    Advised ColumnType := do
  let t := RawType.ofText raw
  match RawType.kindOf? d t.name with
  | none =>
    Advised.note (.warning "type.unknown"
      ("Unrecognised " ++ d.name ++ " type '" ++ raw ++ "'; treated as text.") c.table c.field)
    return plain .text
  | some k =>
    if (d = .mysql ∨ d = .dbml) ∧ (t.name = "tinyint" ∨ t.name = "bit") ∧ t.args = ["1"] then
      return plain .boolean
    else if t.name = "bit" ∧ k = .binary then
      let size := byteLength (← t.numberArg 0 l)
      Advised.note (.warning "type.fidelity_lost"
        ("Bit string '" ++ raw ++ "' stored as binary(" ++ intText size ++
          "); bit-level width is not kept.") c.table c.field)
      return sized .binary rfl (some size)
    else
      Advised.noteIf (k.family = .temporal ∧ k ≠ .year ∧ t.args ≠ [])
        (.warning "type.precision_dropped"
          ("Fractional-second precision of '" ++ raw ++ "' is not kept; rendered as plain " ++
            k.name ++ ".") c.table c.field)
      ofKind t (counting c k) l

end ColumnType

end Schemata
