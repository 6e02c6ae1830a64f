import Schemata.Dialect
import Schemata.Text.Quoted

/-!
# Quoted identifiers

A name as an identifier token of a dialect: between the dialect's marks, the closing mark doubled
inside.
-/

namespace Schemata.Naming

open Text

/-- The opening and the closing mark of a quoted identifier. -/
def marks (dialect : String) : Char × Char :=
  if dialect = "mysql" then ('\x60', '\x60')
  else if dialect = "mssql" then ('[', ']')
  else ('"', '"')

/-- A name as a quoted identifier of the dialect with some name. -/
def quoteFor (dialect name : String) : String :=
  let (opening, closing) := marks dialect
  String.ofList (enclose opening closing (double closing name.toList))

def quote (d : Dialect) (name : String) : String := quoteFor d.name name

end Schemata.Naming
