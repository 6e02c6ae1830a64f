import Schemata.Number.Binary64

/-!
# The drawing grid

Where the tables of a schema without coordinates are drawn: three in a row.
-/

namespace Schemata.Grid

def origin : Int := 20

def stepX : Int := 250

def stepY : Int := 200

def columns : Int := 3

def place (position : Int) : Binary64 × Binary64 :=
  (.ofInt (origin + position.fmod columns * stepX), .ofInt (origin + position.fdiv columns * stepY))

end Schemata.Grid
