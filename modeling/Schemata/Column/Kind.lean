/-!
# Column kinds

The closed list of what a column can store, whatever the dialect, and the families within which
foreign keys may join.
-/

namespace Schemata

/-- Groups of kinds whose values can be compared as keys. -/
inductive Family
  | integer
  | string
  | fixedPoint
  | temporal
  | opaqueData
  deriving DecidableEq, Repr

def Family.name : Family → String
  | integer => "integer"
  | string => "string"
  | fixedPoint => "fixed_point"
  | temporal => "temporal"
  | opaqueData => "opaque"

/-- What a column stores. -/
inductive Kind
  | boolean | tinyint | smallint | integer | bigint | serial | bigserial
  | decimal | float | double
  | char | varchar | text | mediumtext | longtext | uuid | enum | set
  | date | time | datetime | timestamp | timestamptz | year
  | json | jsonb | binary | blob
  deriving DecidableEq, Repr, Inhabited

namespace Kind

def all : List Kind :=
  [boolean, tinyint, smallint, integer, bigint, serial, bigserial, decimal, float, double, char,
    varchar, text, mediumtext, longtext, uuid, enum, set, date, time, datetime, timestamp,
    timestamptz, year, json, jsonb, binary, blob]

def name : Kind → String
  | boolean => "boolean"
  | tinyint => "tinyint"
  | smallint => "smallint"
  | integer => "integer"
  | bigint => "bigint"
  | serial => "serial"
  | bigserial => "bigserial"
  | decimal => "decimal"
  | float => "float"
  | double => "double"
  | char => "char"
  | varchar => "varchar"
  | text => "text"
  | mediumtext => "mediumtext"
  | longtext => "longtext"
  | uuid => "uuid"
  | enum => "enum"
  | set => "set"
  | date => "date"
  | time => "time"
  | datetime => "datetime"
  | timestamp => "timestamp"
  | timestamptz => "timestamptz"
  | year => "year"
  | json => "json"
  | jsonb => "jsonb"
  | binary => "binary"
  | blob => "blob"

def ofName? (s : String) : Option Kind := all.find? (·.name = s)

def family : Kind → Family
  | boolean | tinyint | smallint | integer | bigint | serial | bigserial => .integer
  | decimal | float | double => .fixedPoint
  | char | varchar | text | mediumtext | longtext | uuid | enum | set => .string
  | date | time | datetime | timestamp | timestamptz | year => .temporal
  | json | jsonb | binary | blob => .opaqueData

/-- The kinds that a column may count up by itself. -/
def isInteger : Kind → Bool
  | tinyint | smallint | integer | bigint | serial | bigserial => true
  | _ => false

def isSized : Kind → Bool
  | char | varchar | binary => true
  | _ => false

def isListed : Kind → Bool
  | enum | set => true
  | _ => false

/-- The kinds that always count up. -/
def isSerial : Kind → Bool
  | serial | bigserial => true
  | _ => false

/-- The kind whose values are stored: a counting kind stores whole numbers of its width. -/
def storage : Kind → Kind
  | serial => integer
  | bigserial => bigint
  | k => k

theorem ofName?_name (k : Kind) : ofName? k.name = some k := by cases k <;> rfl

theorem isInteger_of_isSerial {k : Kind} (h : k.isSerial = true) : k.isInteger = true := by
  cases k <;> simp_all [isSerial, isInteger]

end Kind

end Schemata
