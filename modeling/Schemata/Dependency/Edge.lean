import Schemata.Naming.Convention
import Schemata.Schema.Basic

/-!
# Dependency edges

A reference whose ends are known, turned so that it leads from the table that holds the key to the
table it depends on.
-/

namespace Schemata

/-- A foreign key between two tables. -/
structure Edge where
  reference : Reference
  /-- The table that holds the key, and the column of the key. -/
  owner : Table
  ownerField : Field
  /-- The table that the key points to, and the column there. -/
  target : Table
  targetField : Field
  deriving DecidableEq

namespace Edge

def describe (t : Table) (f : Field) : String := t.name ++ "." ++ f.name

def isSelf (e : Edge) : Bool := e.owner.id == e.target.id

/-- The conventional name of the column of the key. -/
def conventionalName (e : Edge) : String := Naming.foreignKey e.target.name e.targetField.name

def followsConvention (e : Edge) : Bool := e.ownerField.name == e.conventionalName

/-- Whether the key points to a column that is the whole primary key. -/
def targetsSoleKey (e : Edge) : Bool := e.target.primaryKey.map (·.id) == [e.targetField.id]

/-- The name of the constraint: that of the reference, or else one made of the table and the
column. -/
def constraintName (e : Edge) : String :=
  e.reference.name?.getD (Naming.constraint e.owner.name e.ownerField.name)

end Edge

end Schemata
