import Schemata.Text.Blank
import Schemata.Text.Letter

/-!
# Dialects

The languages that a schema can come from or be written in, their names, and the spellings a user
may give for them.
-/

namespace Schemata

/-- A schema-definition language. -/
inductive Dialect
  | mysql
  | postgres
  | sqlite
  | mssql
  | laravel
  | dbml
  deriving DecidableEq, Repr, Inhabited

namespace Dialect

def all : List Dialect := [mysql, postgres, sqlite, mssql, laravel, dbml]

def name : Dialect → String
  | mysql => "mysql"
  | postgres => "postgres"
  | sqlite => "sqlite"
  | mssql => "mssql"
  | laravel => "laravel"
  | dbml => "dbml"

def ofName? (s : String) : Option Dialect := all.find? (·.name = s)

def targets : List Dialect := [mysql, postgres, sqlite, mssql, laravel]

/-- The dialects whose statements a database runs. -/
def isSql : Dialect → Bool
  | mysql | postgres | sqlite | mssql => true
  | laravel | dbml => false

/-- Every accepted spelling, in lower case and without separators. -/
def aliases : List (String × Dialect) :=
  [("mysql", mysql), ("mariadb", mysql), ("postgres", postgres), ("postgresql", postgres),
    ("pg", postgres), ("sqlite", sqlite), ("sqlite3", sqlite), ("mssql", mssql),
    ("sqlserver", mssql), ("laravel", laravel), ("dbml", dbml), ("generic", dbml),
    ("multidatabase", dbml)]

/-- A spelling without blanks, low lines and hyphens, in lower case. -/
def aliasKey (s : String) : String :=
  String.ofList (Text.lower (s.toList.filter fun c => !(Text.isBlank c || c == '_' || c == '-')))

def ofAlias? (s : String) : Option Dialect := aliases.lookup (aliasKey s)

end Dialect

end Schemata
