import Schemata.Code.Options
import Schemata.Column.Rendered
import Schemata.Naming.Identifier

/-!
# SQL statements

The statements that generated scripts are made of, and their text for each database. A statement
holds names and values as they are; quoting is done here and nowhere else.
-/

namespace Schemata.Code.Sql

open Naming

/-! ## Pieces -/

def literal (s : String) : String := String.ofList (Text.quoteDoubled s.toList)

/-- A name in the quotes of a database. -/
def quoted (e : Engine) (name : String) : String := quote e.dialect name

def quotedNames (e : Engine) (names : List String) : String :=
  ", ".intercalate (names.map (quoted e))

/-- A quoted name as a literal, for functions that take the name of an object. -/
def objectLiteral (e : Engine) (name : String) : String := "N" ++ literal (quoted e name)

/-- What stands behind `DEFAULT`. -/
def defaultText (e : Engine) : Default → String
  | .bool b =>
    match e with
    | .mysql | .postgres => if b then "TRUE" else "FALSE"
    | .sqlite | .mssql => if b then "1" else "0"
  | .int n => Text.intText n
  | .decimal d => d.text
  | .text s => (if e = .mssql then "N" else "") ++ literal s
  | .expr sql => (currentKeyword? sql).getD ("(" ++ sql ++ ")")

/-- What may stand behind the type of a column. -/
inductive Attribute
  | increment
  /-- The column is the primary key and counts up. -/
  | incrementKey
  | notNull
  | null
  | default (value : Default)
  | unique
  | comment (text : String)
  deriving DecidableEq

def Attribute.text (e : Engine) : Attribute → String
  | increment =>
    match e with
    | .mysql => "AUTO_INCREMENT"
    | .postgres => "GENERATED BY DEFAULT AS IDENTITY"
    | .mssql => "IDENTITY(1,1)"
    | .sqlite => ""
  | incrementKey => "PRIMARY KEY AUTOINCREMENT"
  | notNull => "NOT NULL"
  | null => "NULL"
  | default v => "DEFAULT " ++ defaultText e v
  | unique => "UNIQUE"
  | comment s => "COMMENT " ++ literal s

/-- The definition of a column. -/
structure ColumnDef where
  name : String
  type : Rendered
  attributes : List Attribute
  deriving DecidableEq

def ColumnDef.text (e : Engine) (c : ColumnDef) : String :=
  " ".intercalate (quoted e c.name :: c.type.sql :: c.attributes.map (·.text e))

/-- A foreign-key constraint on one column. -/
structure KeyDef where
  name : String
  column : String
  target : String
  /-- The column that is pointed to; none means the primary key. -/
  targetColumn : Option String
  onUpdate : Action
  onDelete : Action
  deriving DecidableEq

/-- A rule for changes of the referenced row, unless it is the usual one. -/
def actionClause (event : String) (a : Action) : String :=
  if a = .restrict then ""
  else " ON " ++ event ++ " " ++ String.ofList (Text.upper a.name.toList)

def KeyDef.text (e : Engine) (k : KeyDef) : String :=
  "CONSTRAINT " ++ quoted e k.name ++ " FOREIGN KEY (" ++ quoted e k.column ++ ") REFERENCES " ++
    quoted e k.target ++ k.targetColumn.elim "" (fun c => " (" ++ quoted e c ++ ")") ++
    actionClause "UPDATE" k.onUpdate ++ actionClause "DELETE" k.onDelete

/-- What stands between the brackets of a table. -/
inductive Clause
  | column (c : ColumnDef)
  | primaryKey (columns : List String)
  | index (unique : Bool) (name : String) (columns : List String)
  | foreignKey (k : KeyDef)
  deriving DecidableEq

def Clause.text (e : Engine) : Clause → String
  | column c => c.text e
  | primaryKey columns => "PRIMARY KEY (" ++ quotedNames e columns ++ ")"
  | index unique name columns =>
    (if unique then "UNIQUE KEY " else "KEY ") ++ quoted e name ++ " (" ++ quotedNames e columns ++
      ")"
  | foreignKey k => k.text e

/-- The storage options of a table in MySQL. -/
structure Storage where
  engine : String
  charset : String
  collation : String
  comment : Option String
  deriving DecidableEq

def Storage.text (s : Storage) : String :=
  "ENGINE=" ++ s.engine ++ " DEFAULT CHARSET=" ++ s.charset ++ " COLLATE=" ++ s.collation ++
    s.comment.elim "" fun c => " COMMENT=" ++ literal c

/-! ## Statements -/

/-- A statement of a script, or a remark in it. -/
inductive Statement
  | remark (text : String)
  /-- Makes a table; guarded, only if there is none of that name. -/
  | createTable (guarded : Bool) (name : String) (clauses : List Clause) (storage : Option Storage)
  | createIndex (unique : Bool) (name table : String) (columns : List String)
  | describeTable (table comment : String)
  | describeColumn (table column comment : String)
  | addForeignKey (table : String) (key : KeyDef)
  | dropForeignKey (table name : String)
  /-- Drops a table; guarded, only if there is one. -/
  | dropTable (guarded : Bool) (name : String)
  | renameTable (name newName : String)
  /-- Copies columns of all rows from one table to another. -/
  | copyRows (columns : List String) (source target : String)
  | checkKeys (on : Bool)
  | begin
  | commit
  deriving DecidableEq

namespace Statement

/-- The clauses of a table on lines of their own. -/
def body (e : Engine) (indent : String) (clauses : List Clause) : String :=
  ",\n".intercalate (clauses.map fun c => indent ++ c.text e)

/-- A condition on an object of SQL Server. -/
def objectGuard (name type : String) (isThere : Bool) : String :=
  "IF OBJECT_ID(" ++ objectLiteral .mssql name ++ ", N'" ++ type ++ "') IS " ++
    (if isThere then "NOT NULL" else "NULL") ++ "\n"

def createTableText (e : Engine) (guarded : Bool) (name : String) (clauses : List Clause)
    (storage : Option Storage) : String :=
  match e with
  | .mssql =>
    objectGuard name "U" false ++ "BEGIN\n    CREATE TABLE " ++ quoted e name ++ " (\n" ++
      body e "        " clauses ++ "\n    );\nEND;"
  | e =>
    "CREATE TABLE " ++ (if guarded then "IF NOT EXISTS " else "") ++ quoted e name ++ " (\n" ++
      body e "  " clauses ++ "\n)" ++ storage.elim "" (fun s => " " ++ s.text) ++ ";"

def createIndexText (e : Engine) (unique : Bool) (name table : String) (columns : List String) :
    String :=
  let keyword := if unique then "CREATE UNIQUE INDEX " else "CREATE INDEX "
  let covered := " ON " ++ quoted e table ++ " (" ++ quotedNames e columns ++ ");"
  match e with
  | .mssql =>
    "IF NOT EXISTS (SELECT 1 FROM sys.indexes WHERE name = N" ++ literal name ++
      " AND object_id = OBJECT_ID(" ++ objectLiteral e table ++ "))\n    " ++ keyword ++
      quoted e name ++ covered
  | _ => keyword ++ "IF NOT EXISTS " ++ quoted e name ++ covered

def addForeignKeyText (e : Engine) (table : String) (k : KeyDef) : String :=
  let add := "ALTER TABLE " ++ quoted e table ++ " ADD " ++ k.text e ++ ";"
  match e with
  | .postgres =>
    "DO $$\nBEGIN\n    IF NOT EXISTS (SELECT 1 FROM pg_constraint WHERE conname = " ++
      literal k.name ++ ") THEN\n        " ++ add ++ "\n    END IF;\nEND $$;"
  | .mssql => objectGuard k.name "F" false ++ "    " ++ add
  | _ => add

def dropForeignKeyText (e : Engine) (table name : String) : String :=
  let alter := "ALTER TABLE " ++ quoted e table ++ " DROP "
  match e with
  | .mysql => alter ++ "FOREIGN KEY " ++ quoted e name ++ ";"
  | .mssql => objectGuard name "F" true ++ "    " ++ alter ++ "CONSTRAINT " ++ quoted e name ++ ";"
  | _ => alter ++ "CONSTRAINT IF EXISTS " ++ quoted e name ++ ";"

def dropTableText (e : Engine) (guarded : Bool) (name : String) : String :=
  if guarded then
    match e with
    | .mssql => objectGuard name "U" true ++ "    DROP TABLE " ++ quoted e name ++ ";"
    | _ => "DROP TABLE IF EXISTS " ++ quoted e name ++ ";"
  else "DROP TABLE " ++ quoted e name ++ ";"

/-- A statement as text, without the line feed behind it. -/
def text (e : Engine) : Statement → String
  | remark s => "-- " ++ s
  | createTable guarded name clauses storage => createTableText e guarded name clauses storage
  | createIndex unique name table columns => createIndexText e unique name table columns
  | describeTable table comment =>
    "COMMENT ON TABLE " ++ quoted e table ++ " IS " ++ literal comment ++ ";"
  | describeColumn table column comment =>
    "COMMENT ON COLUMN " ++ quoted e table ++ "." ++ quoted e column ++ " IS " ++
      literal comment ++ ";"
  | addForeignKey table key => addForeignKeyText e table key
  | dropForeignKey table name => dropForeignKeyText e table name
  | dropTable guarded name => dropTableText e guarded name
  | renameTable name newName =>
    "ALTER TABLE " ++ quoted e name ++ " RENAME TO " ++ quoted e newName ++ ";"
  | copyRows columns source target =>
    "INSERT INTO " ++ quoted e target ++ " (" ++ quotedNames e columns ++ ") SELECT " ++
      quotedNames e columns ++ " FROM " ++ quoted e source ++ ";"
  | checkKeys on => "PRAGMA foreign_keys = " ++ (if on then "ON;" else "OFF;")
  | begin => "BEGIN TRANSACTION;"
  | commit => "COMMIT;"

end Statement

/-- Statements in the order in which they run. -/
abbrev Script := List Statement

/-- A script as text, each statement with a line feed behind it. -/
def Script.text (e : Engine) (s : Script) : String :=
  String.join (s.map fun st => st.text e ++ "\n")

end Schemata.Code.Sql
