import Schemata.Connection.Failure
import Schemata.Connection.Settings

/-!
# Calls of drivers

What a driver is told when a connection is opened, and how its refusal is worded. The password goes
to the driver and nowhere else.
-/

namespace Schemata

/-- What a driver is told. The times are in seconds. -/
inductive DriverCall
  | mysql (host : Option String) (port : Option Int) (user : Option String) (password : String)
      (database : Option String) (charset : String) (connectTimeout readTimeout : Int)
  | postgres (host : Option String) (port : Option Int) (user : Option String) (password : String)
      (database : String) (connectTimeout : Int) (options : String)
  | sqlite (path : Option String) (timeout : Int) (sameThreadOnly : Bool)
  deriving DecidableEq

namespace ConnectionSettings

/-- The call that opens a connection, if the dialect has a driver. -/
def call (s : ConnectionSettings) (database : Option String) (r : ReadingSettings := {}) :
    Except Failure DriverCall :=
  let database := s.selected database
  match s.dialect with
  | .mysql =>
    .ok (.mysql s.host (s.resolvedPort r) s.user s.password database s.charset r.connectTimeout
      r.queryTimeout)
  | .postgres =>
    .ok (.postgres s.host (s.resolvedPort r) s.user s.password ((given? database).getD "postgres")
      r.connectTimeout ("-c statement_timeout=" ++ Text.intText (r.queryTimeout * 1000)))
  | .sqlite => .ok (.sqlite s.path r.connectTimeout false)
  | d => .error (.unsupported d)

/-- Opens a connection with a driver. A failure of the driver names the address. -/
def connect {C : Type} (s : ConnectionSettings) (database : Option String)
    (drive : DriverCall → Except Failure C) (r : ReadingSettings := {}) : Except Failure C := do
  let c ← s.call database r
  (drive c).mapError (.whileDoing (.unreachable (s.address database r)))

end ConnectionSettings

end Schemata
