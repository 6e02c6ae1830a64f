import Schemata.Text.Numeral

/-!
# Ids by position

Sources that have no ids of their own get ids from positions: table `t2`, its field `t2.f0`,
reference `r5`.
-/

namespace Schemata.Ids

def table (position : Nat) : String := "t" ++ Text.natText position

def field (table : String) (position : Nat) : String := table ++ ".f" ++ Text.natText position

def reference (position : Nat) : String := "r" ++ Text.natText position

end Schemata.Ids
