import Schemata.Finding
import Schemata.Column.Basic
import Schemata.Text.Quoted

/-!
# Rendered types

A column type in the words of a dialect. Each dialect has a construct for a kind or none at all;
then the column becomes a text of the dialect and a warning says what is lost. Lengths and digits
beyond the dialect's limits are cut down with a warning.
-/

namespace Schemata

open Text

/-- A type word, or builder method, with the parameters it always has. -/
structure Construct where
  word : String
  fixed : List String
  deriving DecidableEq

namespace Construct

def mysql : Kind → Option Construct
  | .boolean => some ⟨"BOOLEAN", []⟩
  | .tinyint => some ⟨"TINYINT", []⟩
  | .smallint => some ⟨"SMALLINT", []⟩
  | .integer => some ⟨"INT", []⟩
  | .bigint => some ⟨"BIGINT", []⟩
  | .serial => some ⟨"INT", []⟩
  | .bigserial => some ⟨"BIGINT", []⟩
  | .decimal => some ⟨"DECIMAL", []⟩
  | .float => some ⟨"FLOAT", []⟩
  | .double => some ⟨"DOUBLE", []⟩
  | .char => some ⟨"CHAR", []⟩
  | .varchar => some ⟨"VARCHAR", []⟩
  | .text => some ⟨"TEXT", []⟩
  | .mediumtext => some ⟨"MEDIUMTEXT", []⟩
  | .longtext => some ⟨"LONGTEXT", []⟩
  | .uuid => some ⟨"CHAR", ["36"]⟩
  | .enum => some ⟨"ENUM", []⟩
  | .set => some ⟨"SET", []⟩
  | .date => some ⟨"DATE", []⟩
  | .time => some ⟨"TIME", []⟩
  | .datetime => some ⟨"DATETIME", []⟩
  | .timestamp => some ⟨"TIMESTAMP", []⟩
  | .timestamptz => some ⟨"TIMESTAMP", []⟩
  | .year => some ⟨"YEAR", []⟩
  | .json => some ⟨"JSON", []⟩
  | .jsonb => some ⟨"JSON", []⟩
  | .binary => some ⟨"BINARY", []⟩
  | .blob => some ⟨"BLOB", []⟩

def postgres : Kind → Option Construct
  | .boolean => some ⟨"BOOLEAN", []⟩
  | .tinyint => some ⟨"SMALLINT", []⟩
  | .smallint => some ⟨"SMALLINT", []⟩
  | .integer => some ⟨"INTEGER", []⟩
  | .bigint => some ⟨"BIGINT", []⟩
  | .serial => some ⟨"SERIAL", []⟩
  | .bigserial => some ⟨"BIGSERIAL", []⟩
  | .decimal => some ⟨"NUMERIC", []⟩
  | .float => some ⟨"REAL", []⟩
  | .double => some ⟨"DOUBLE PRECISION", []⟩
  | .char => some ⟨"CHAR", []⟩
  | .varchar => some ⟨"VARCHAR", []⟩
  | .text => some ⟨"TEXT", []⟩
  | .mediumtext => some ⟨"TEXT", []⟩
  | .longtext => some ⟨"TEXT", []⟩
  | .uuid => some ⟨"UUID", []⟩
  | .enum => none
  | .set => none
  | .date => some ⟨"DATE", []⟩
  | .time => some ⟨"TIME", []⟩
  | .datetime => some ⟨"TIMESTAMP", []⟩
  | .timestamp => some ⟨"TIMESTAMP", []⟩
  | .timestamptz => some ⟨"TIMESTAMPTZ", []⟩
  | .year => some ⟨"SMALLINT", []⟩
  | .json => some ⟨"JSON", []⟩
  | .jsonb => some ⟨"JSONB", []⟩
  | .binary => some ⟨"BYTEA", []⟩
  | .blob => some ⟨"BYTEA", []⟩

def sqlite : Kind → Option Construct
  | .boolean => some ⟨"INTEGER", []⟩
  | .tinyint => some ⟨"INTEGER", []⟩
  | .smallint => some ⟨"INTEGER", []⟩
  | .integer => some ⟨"INTEGER", []⟩
  | .bigint => some ⟨"INTEGER", []⟩
  | .serial => some ⟨"INTEGER", []⟩
  | .bigserial => some ⟨"INTEGER", []⟩
  | .decimal => some ⟨"NUMERIC", []⟩
  | .float => some ⟨"REAL", []⟩
  | .double => some ⟨"REAL", []⟩
  | .char => some ⟨"CHAR", []⟩
  | .varchar => some ⟨"VARCHAR", []⟩
  | .text => some ⟨"TEXT", []⟩
  | .mediumtext => some ⟨"TEXT", []⟩
  | .longtext => some ⟨"TEXT", []⟩
  | .uuid => some ⟨"TEXT", []⟩
  | .enum => none
  | .set => none
  | .date => some ⟨"DATE", []⟩
  | .time => some ⟨"TIME", []⟩
  | .datetime => some ⟨"DATETIME", []⟩
  | .timestamp => some ⟨"DATETIME", []⟩
  | .timestamptz => some ⟨"DATETIME", []⟩
  | .year => some ⟨"INTEGER", []⟩
  | .json => some ⟨"TEXT", []⟩
  | .jsonb => some ⟨"TEXT", []⟩
  | .binary => some ⟨"BLOB", []⟩
  | .blob => some ⟨"BLOB", []⟩

def mssql : Kind → Option Construct
  | .boolean => some ⟨"BIT", []⟩
  | .tinyint => some ⟨"TINYINT", []⟩
  | .smallint => some ⟨"SMALLINT", []⟩
  | .integer => some ⟨"INT", []⟩
  | .bigint => some ⟨"BIGINT", []⟩
  | .serial => some ⟨"INT", []⟩
  | .bigserial => some ⟨"BIGINT", []⟩
  | .decimal => some ⟨"DECIMAL", []⟩
  | .float => some ⟨"REAL", []⟩
  | .double => some ⟨"FLOAT", []⟩
  | .char => some ⟨"NCHAR", []⟩
  | .varchar => some ⟨"NVARCHAR", []⟩
  | .text => some ⟨"NVARCHAR", ["MAX"]⟩
  | .mediumtext => some ⟨"NVARCHAR", ["MAX"]⟩
  | .longtext => some ⟨"NVARCHAR", ["MAX"]⟩
  | .uuid => some ⟨"UNIQUEIDENTIFIER", []⟩
  | .enum => none
  | .set => none
  | .date => some ⟨"DATE", []⟩
  | .time => some ⟨"TIME", []⟩
  | .datetime => some ⟨"DATETIME2", []⟩
  | .timestamp => some ⟨"DATETIME2", []⟩
  | .timestamptz => some ⟨"DATETIMEOFFSET", []⟩
  | .year => some ⟨"SMALLINT", []⟩
  | .json => some ⟨"NVARCHAR", ["MAX"]⟩
  | .jsonb => some ⟨"NVARCHAR", ["MAX"]⟩
  | .binary => some ⟨"BINARY", []⟩
  | .blob => some ⟨"VARBINARY", ["MAX"]⟩

/-- The constructs of the migration builder of Laravel. -/
def laravel : Kind → Option Construct
  | .boolean => some ⟨"boolean", []⟩
  | .tinyint => some ⟨"tinyInteger", []⟩
  | .smallint => some ⟨"smallInteger", []⟩
  | .integer => some ⟨"integer", []⟩
  | .bigint => some ⟨"bigInteger", []⟩
  | .serial => some ⟨"increments", []⟩
  | .bigserial => some ⟨"bigIncrements", []⟩
  | .decimal => some ⟨"decimal", []⟩
  | .float => some ⟨"float", []⟩
  | .double => some ⟨"double", []⟩
  | .char => some ⟨"char", []⟩
  | .varchar => some ⟨"string", []⟩
  | .text => some ⟨"text", []⟩
  | .mediumtext => some ⟨"mediumText", []⟩
  | .longtext => some ⟨"longText", []⟩
  | .uuid => some ⟨"uuid", []⟩
  | .enum => some ⟨"enum", []⟩
  | .set => some ⟨"set", []⟩
  | .date => some ⟨"date", []⟩
  | .time => some ⟨"time", []⟩
  | .datetime => some ⟨"dateTime", []⟩
  | .timestamp => some ⟨"timestamp", []⟩
  | .timestamptz => some ⟨"timestampTz", []⟩
  | .year => some ⟨"year", []⟩
  | .json => some ⟨"json", []⟩
  | .jsonb => some ⟨"jsonb", []⟩
  | .binary => some ⟨"binary", []⟩
  | .blob => some ⟨"binary", []⟩

/-- The constructs of the diagram notation. -/
def dbml : Kind → Option Construct
  | .boolean => some ⟨"boolean", []⟩
  | .tinyint => some ⟨"tinyint", []⟩
  | .smallint => some ⟨"smallint", []⟩
  | .integer => some ⟨"int", []⟩
  | .bigint => some ⟨"bigint", []⟩
  | .serial => some ⟨"serial", []⟩
  | .bigserial => some ⟨"bigserial", []⟩
  | .decimal => some ⟨"decimal", []⟩
  | .float => some ⟨"real", []⟩
  | .double => some ⟨"double", []⟩
  | .char => some ⟨"char", []⟩
  | .varchar => some ⟨"varchar", []⟩
  | .text => some ⟨"text", []⟩
  | .mediumtext => some ⟨"mediumtext", []⟩
  | .longtext => some ⟨"longtext", []⟩
  | .uuid => some ⟨"uuid", []⟩
  | .enum => some ⟨"enum", []⟩
  | .set => some ⟨"set", []⟩
  | .date => some ⟨"date", []⟩
  | .time => some ⟨"time", []⟩
  | .datetime => some ⟨"datetime", []⟩
  | .timestamp => some ⟨"timestamp", []⟩
  | .timestamptz => some ⟨"timestamptz", []⟩
  | .year => some ⟨"year", []⟩
  | .json => some ⟨"json", []⟩
  | .jsonb => some ⟨"jsonb", []⟩
  | .binary => some ⟨"binary", []⟩
  | .blob => some ⟨"blob", []⟩

def of : Dialect → Kind → Option Construct
  | .mysql => mysql
  | .postgres => postgres
  | .sqlite => sqlite
  | .mssql => mssql
  | .laravel => laravel
  | .dbml => dbml

/-- The type that holds the text of a value whose kind a dialect does not have. -/
def fallback : Dialect → ColumnType
  | .mysql | .postgres | .mssql => .sized .varchar rfl (some 255)
  | .sqlite | .dbml => .plain .text
  | .laravel => .plain .varchar

def ofFallback : Dialect → Construct
  | .mysql | .postgres => ⟨"VARCHAR", []⟩
  | .mssql => ⟨"NVARCHAR", []⟩
  | .sqlite => ⟨"TEXT", []⟩
  | .laravel => ⟨"string", []⟩
  | .dbml => ⟨"text", []⟩

theorem of_fallback (d : Dialect) : of d (fallback d).kind = some (ofFallback d) := by
  cases d <;> rfl

end Construct

/-- A type in a dialect: its word, its parameters and the modifiers behind them. -/
structure Rendered where
  word : String
  parameters : List String := []
  modifiers : List String := []
  deriving DecidableEq

namespace Rendered

def sql (r : Rendered) : String :=
  r.word ++
    (if r.parameters.isEmpty then "" else "(" ++ ", ".intercalate r.parameters ++ ")") ++
    (if r.modifiers.isEmpty then "" else " " ++ " ".intercalate r.modifiers)

/-- The greatest number of digits, and of digits behind the point. -/
def decimalLimit? : Dialect → Option (Int × Int)
  | .mysql | .laravel => some (65, 30)
  | .postgres => some (1000, 1000)
  | .mssql => some (38, 38)
  | .sqlite | .dbml => none

/-- The greatest length of a text of varying length. -/
def lengthLimit? : Dialect → Option Int
  | .mysql | .laravel => some 65535
  | .postgres => some 10485760
  | .mssql => some 4000
  | .sqlite | .dbml => none

/-- The length of a text of varying length that is given none. -/
def defaultLength : Int := 255

def incrementModifiers : Dialect → List String
  | .mysql => ["AUTO_INCREMENT"]
  | .mssql => ["IDENTITY(1,1)"]
  | _ => []

/-- The builder method for the unsigned form of a method. -/
def unsignedMethod? : String → Option String
  | "tinyInteger" => some "unsignedTinyInteger"
  | "smallInteger" => some "unsignedSmallInteger"
  | "integer" => some "unsignedInteger"
  | "bigInteger" => some "unsignedBigInteger"
  | _ => none

def labelLiteral (d : Dialect) (label : String) : String :=
  String.ofList <|
    if d = .laravel then enclose '\'' '\'' (backslashed label.toList) else quoteDoubled label.toList

/-- Where the findings of a rendering belong. -/
structure Place where
  table : Option String := none
  field : Option String := none

def sizeParameters (d : Dialect) (t : ColumnType) (place : Place) : Noted (List String) := do
  if d = .dbml then return (t.size.map intText).toList
  else if t.kind = .varchar then
    let size ← match t.size, lengthLimit? d with
      | some n, some limit =>
        if limit < n then
          Noted.note (.warning "type.clamped"
            ("Length " ++ intText n ++ " exceeds the " ++ d.name ++ " maximum; clamped to " ++
              intText limit ++ ".") place.table place.field)
          pure (some limit)
        else pure (some n)
      | size, _ => pure size
    if d = .laravel then return ((size.filter (· ≠ defaultLength)).map intText).toList
    else return [intText (size.getD defaultLength)]
  else return ((t.size.filter (· ≠ 1)).map intText).toList

/-- The digits of a decimal and those behind its point, if they were given. -/
def decimalParameters (d : Dialect) (t : ColumnType) (place : Place) : Noted (List String) := do
  match t.precision with
  | none => return []
  | some precision =>
    let scale := t.scale.getD 0
    let (p, s) ← match decimalLimit? d with
      | none => pure (precision, scale)
      | some (maxPrecision, maxScale) =>
        let p := min precision maxPrecision
        let s := min (min scale maxScale) p
        Noted.noteIf ((p, s) ≠ (precision, scale)) (.warning "type.clamped"
          ("decimal(" ++ intText precision ++ "," ++ intText scale ++ ") exceeds the " ++ d.name ++
            " maximum (" ++ intText maxPrecision ++ "," ++ intText maxScale ++ "); clamped to (" ++
            intText p ++ "," ++ intText s ++ ").") place.table place.field)
        pure (p, s)
    if d = .dbml then return [intText p ++ "," ++ intText s]
    else return [intText p, intText s]

def ownParameters (d : Dialect) (t : ColumnType) (c : Construct) (place : Place) :
    Noted (List String) :=
  if t.kind.isSized ∧ c.fixed = [] then sizeParameters d t place
  else if t.kind = .decimal then decimalParameters d t place
  else if t.kind.isListed ∧ t.values ≠ [] then
    let literals := t.values.map (labelLiteral d)
    pure (if d = .laravel then ["[" ++ ", ".intercalate literals ++ "]"] else literals)
  else pure []

/-- The construct for a type and the type it is rendered as. -/
def choose (d : Dialect) (t : ColumnType) (place : Place) : Noted (ColumnType × Construct) :=
  match Construct.of d t.kind with
  | some c => pure (t, c)
  | none => do
    let f := Construct.fallback d
    Noted.note (.warning "type.fidelity_lost"
      (d.name ++ " has no equivalent for '" ++ t.describe ++ "'; rendered as " ++ f.describe ++
        (if t.values.isEmpty then "."
          else " (allowed values " ++ ", ".intercalate t.values ++ " not enforced).")) place.table
      place.field)
    return (f, Construct.ofFallback d)

/-- Adds the unsigned modifier in the way of a dialect, or says that it has none. -/
def withUnsigned (d : Dialect) (t : ColumnType) (r : Rendered) (place : Place) : Noted Rendered :=
  match d with
  | .mysql => pure { r with modifiers := "UNSIGNED" :: r.modifiers }
  | .laravel =>
    match unsignedMethod? r.word with
    | some word => pure { r with word }
    | none => pure { r with modifiers := r.modifiers ++ ["unsigned()"] }
  | .dbml => pure r
  | d => do
    Noted.note (.warning "type.unsigned_dropped"
      (d.name ++ " has no unsigned modifier; '" ++ t.describe ++ "' rendered as signed.")
      place.table place.field)
    return r

def ofType (d : Dialect) (t : ColumnType) (place : Place := {}) : Noted Rendered := do
  let (t, c) ← choose d t place
  let own ← ownParameters d t c place
  let r : Rendered :=
    ⟨c.word, c.fixed ++ own, if t.kind.isSerial then incrementModifiers d else []⟩
  if t.unsigned then withUnsigned d t r place else return r

end Rendered

end Schemata
