import Schemata.Code.Options

/-!
# Settings

What the environment of a program sets: how databases are read, what is generated unless a request
says otherwise, and what is logged. A variable that is not set has its default.
-/

namespace Schemata

open Text

/-- How databases are read. The times are in seconds. -/
structure ReadingSettings where
  connectTimeout : Int := 10
  queryTimeout : Int := 10
  idleTimeout : Int := 1800
  sweepInterval : Int := 60
  mysqlPort : Int := 3306
  postgresPort : Int := 5432
  charset : String := "utf8mb4"
  deriving DecidableEq

/-- What is generated unless a request says otherwise. -/
structure GenerationSettings where
  targets : List String := ["mysql"]
  options : Code.Options := { timestamps := true }
  step : Int := 1
  deriving DecidableEq

structure Settings where
  reading : ReadingSettings := {}
  generation : GenerationSettings := {}
  logLevel : String := "INFO"
  logFile : Option String := none
  logsToConsole : Bool := true
  deriving DecidableEq

namespace Settings

def application : String × String := ("SchemaPort", "1.0.0")

/-! ## The environment -/

abbrev Environment := List (String × String)

namespace Environment

def int (env : Environment) (name : String) (default : Int) : Except Fault Int :=
  match env.lookup name with
  | none => .ok default
  | some raw => (readInt? raw.toList).elim (.error (.badNumeral (.malformed raw))) .ok

/-- A truth value; every word that does not say yes says no. -/
def bool (env : Environment) (name : String) (default : Bool) : Bool :=
  match env.lookup name with
  | none => default
  | some raw => lowered (String.ofList (strip raw.toList)) ∈ ["1", "true", "yes", "on"]

def text (env : Environment) (name default : String) : String := (env.lookup name).getD default

/-- The words between commas, in lower case; empty ones do not count. -/
def wordList (env : Environment) (name default : String) : List String :=
  ((((env.text name default).toList.splitOnP (· == ',')).map strip).filter (!·.isEmpty)).map
    fun w => String.ofList (lower w)

end Environment

def ofEnvironment (env : Environment) : Except Fault Settings := do
  let reading : ReadingSettings := {
    connectTimeout := ← env.int "DB_CONNECT_TIMEOUT" 10
    queryTimeout := ← env.int "DB_QUERY_TIMEOUT" 10
    idleTimeout := ← env.int "DB_IDLE_TIMEOUT" 1800
    sweepInterval := ← env.int "DB_SWEEP_INTERVAL" 60
    mysqlPort := ← env.int "MYSQL_PORT" 3306
    postgresPort := ← env.int "POSTGRES_PORT" 5432
    charset := env.text "DB_CHARSET" "utf8mb4" }
  let options : Code.Options := {
    timestamps := env.bool "GENERATOR_TIMESTAMPS" true
    softDeletes := env.bool "GENERATOR_SOFT_DELETES" false
    indexes := env.bool "GENERATOR_INDEXES" true
    foreignKeys := env.bool "GENERATOR_FOREIGN_KEYS" true
    comments := env.bool "GENERATOR_COMMENTS" true
    engine := env.text "MYSQL_ENGINE" "InnoDB"
    charset := env.text "MYSQL_CHARSET" "utf8mb4"
    collation := env.text "MYSQL_COLLATE" "utf8mb4_unicode_ci" }
  let generation : GenerationSettings := {
    targets := env.wordList "GENERATOR_TARGETS" "mysql", options
    step := ← env.int "GENERATOR_SEQUENCE_STEP" 1 }
  return {
    reading, generation
    logLevel := String.ofList (upper (env.text "LOG_LEVEL" "INFO").toList)
    logFile := env.lookup "LOG_FILE"
    logsToConsole := env.bool "LOG_CONSOLE" true }

/-- The number of the log level; an unknown name means the level of plain information. -/
def logThreshold (s : Settings) : Nat :=
  match s.logLevel with
  | "CRITICAL" | "FATAL" => 50
  | "ERROR" => 40
  | "WARNING" | "WARN" => 30
  | "DEBUG" => 10
  | "NOTSET" => 0
  | _ => 20

end Settings

end Schemata
