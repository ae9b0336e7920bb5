/-
# Configuration from environment variables

A configuration is read from named texts, most of which have defaults. Variables
are looked at in a fixed order, and the first one that is wrong is the error.

Key definitions: `Config.Variables`, `Config.Variables.Number`, `Config.ofVariables`.
-/
import AccessRegistry.Config

namespace AccessRegistry.Config

/-- The variables that are set. -/
abbrev Variables := String → Option String

namespace Variables

/-- A variable that holds a number: its name, the bound that the number lies below, and the
number that counts where the variable is not set. -/
structure Number where
  key : String
  bound : Nat
  default : Nat
  bound_pos : 0 < bound := by decide

namespace Number

def port : Number := { key := "APP__PORT", bound := UInt16.size, default := 8080 }

def shutdownGrace : Number :=
  { key := "APP__SHUTDOWN_GRACE_SECONDS", bound := UInt64.size, default := 10 }

def maxConnections : Number :=
  { key := "DATABASE_MAX_CONNECTIONS", bound := UInt32.size, default := 10 }

def minConnections : Number :=
  { key := "DATABASE_MIN_CONNECTIONS", bound := UInt32.size, default := 1 }

def partitions : Number :=
  { key := "ID_PARTITIONS", bound := UInt32.size, default := IdSettings.standard.partitions }

def scrollSize : Number :=
  { key := "ID_SCROLL_SIZE", bound := UInt64.size, default := IdSettings.standard.scrollSize }

def queueCapacity : Number :=
  { key := "ID_QUEUE_CAPACITY", bound := UInt64.size
    default := IdSettings.standard.queueCapacity }

def acquireTimeout : Number :=
  { key := "ID_ACQUIRE_TIMEOUT_MS", bound := UInt64.size
    default := IdSettings.standard.acquireTimeout }

def lockTtl : Number :=
  { key := "ID_LOCK_TTL_MS", bound := UInt64.size, default := IdSettings.standard.lockTtl }

def lockWait : Number :=
  { key := "ID_LOCK_WAIT_MS", bound := UInt64.size, default := IdSettings.standard.lockWait }

def maxAttempts : Number :=
  { key := "RESERVATION_MAX_ATTEMPTS", bound := UInt32.size
    default := NamingSettings.standard.maxAttempts }

def initialBackoff : Number :=
  { key := "RESERVATION_INITIAL_BACKOFF_MS", bound := UInt64.size
    default := NamingSettings.standard.initialBackoff }

def maxBackoff : Number :=
  { key := "RESERVATION_MAX_BACKOFF_MS", bound := UInt64.size
    default := NamingSettings.standard.maxBackoff }

/-- The numbers of the process itself. -/
def process : List Number := [port, shutdownGrace]

/-- The numbers of the database. -/
def database : List Number := [maxConnections, minConnections]

/-- The numbers that are read in any case, but for those of the process itself. -/
def always : List Number :=
  [partitions, scrollSize, queueCapacity, acquireTimeout, lockTtl, lockWait, maxAttempts,
    initialBackoff, maxBackoff]

end Number

variable (vars : Variables)

/-- A variable that has to be set. -/
def required (inProduction : Bool) (key : String) : Except ConfigError String :=
  (vars key).elim (.error (.missing key inProduction)) .ok

/-- A text with a default. -/
def text (key default : String) : String := (vars key).getD default

/-- A text that counts only if it is not empty. -/
def nonEmpty? (key : String) : Option String := (vars key).filter fun s => s ≠ ""

/-- The number that a variable holds. -/
def natural (v : Number) : Except ConfigError Nat :=
  match vars v.key with
  | none => .ok v.default
  | some s => (Numeral.read (v.bound - 1) s).mapError (.badNumeral v.key)

/-- A named value, with the name to take if the variable is not set. -/
def choice {α : Type} (key default : String) (ofName? : String → Option α)
    (unknown : String → ConfigError) : Except ConfigError α :=
  let given := vars.text key default
  (ofName? given).elim (.error (unknown given)) .ok

/-- The number that a variable holds, for which the words of a switch may stand: 1 for on
and 0 for off. -/
def switchOrNumber (v : Number) : Except ConfigError Nat :=
  match vars v.key with
  | none => .ok v.default
  | some s =>
    let word := LowerCase.ofString s
    if word = "true" ∨ word = "on" ∨ word = "yes" then .ok 1
    else if word = "false" ∨ word = "off" ∨ word = "no" then .ok 0
    else (Numeral.read (v.bound - 1) s).mapError fun _ => .unreadable

/-- How to reach the database. -/
def database (inProduction : Bool) : Except ConfigError DatabaseSettings := do
  let url ← vars.required inProduction "DATABASE_URL"
  let maxConnections ← vars.natural .maxConnections
  let minConnections ← vars.natural .minConnections
  return { url, maxConnections, minConnections }

/-- How to reach the stores of a backend: its database and its cache, if it has them. -/
def stores (inProduction : Bool) :
    Backend → Except ConfigError (Option DatabaseSettings × Option String)
  | .postgres => do
    let database ← vars.database inProduction
    let redisUrl ← vars.required inProduction "REDIS_URL"
    return (some database, some redisUrl)
  | .memory => return (none, none)

/-- How identifiers are made and handed out. -/
def ids : Except ConfigError IdSettings := do
  let mode ←
    vars.choice "ID_GENERATION_MODE" IdSettings.standard.mode.name IdMode.ofName? .unknownMode
  let partitions ← vars.natural .partitions
  let scrollSize ← vars.natural .scrollSize
  let queueCapacity ← vars.natural .queueCapacity
  let acquireTimeout ← vars.natural .acquireTimeout
  let lockTtl ← vars.natural .lockTtl
  let lockWait ← vars.natural .lockWait
  return { mode, partitions, scrollSize, queueCapacity, acquireTimeout, lockTtl, lockWait }

/-- How hard to try to reserve a name. -/
def naming : Except ConfigError NamingSettings := do
  let maxAttempts ← vars.natural .maxAttempts
  let initialBackoff ← vars.natural .initialBackoff
  let maxBackoff ← vars.natural .maxBackoff
  return { maxAttempts, initialBackoff, maxBackoff }

end Variables

/-- The configuration that variables describe, before it is validated. -/
def read (vars : Variables) : Except ConfigError Config := do
  let port ← vars.switchOrNumber .port
  let shutdownGrace ← vars.switchOrNumber .shutdownGrace
  let environment ← vars.choice "ENVIRONMENT" "dev" Environment.ofName? .unknownEnvironment
  let inProduction := environment = .prod
  let backend ← vars.choice "STORAGE_BACKEND" "postgres" Backend.ofName? .unknownBackend
  let (database, redisUrl) ← vars.stores inProduction backend
  let ids ← vars.ids
  let naming ← vars.naming
  return {
    port, shutdownGrace, environment, backend, database, redisUrl, ids, naming
    serviceName := vars.text "SERVICE_NAME" "identity-service"
    serviceVersion := vars.text "SERVICE_VERSION" "0.1.0"
    logLevel := vars.text "LOG_LEVEL" "info"
    traceEndpoint := vars.nonEmpty? "OTLP_ENDPOINT"
    apiToken := vars.nonEmpty? "API_TOKEN" }

/-- The valid configuration that variables describe. -/
def ofVariables (vars : Variables) : Except ConfigError Config := do
  let c ← read vars
  c.validate
  return c

/-- The names of the variables. -/
def variableNames : List String :=
  ["ENVIRONMENT", "STORAGE_BACKEND", "DATABASE_URL", "REDIS_URL", "SERVICE_NAME",
    "SERVICE_VERSION", "LOG_LEVEL", "OTLP_ENDPOINT", "API_TOKEN", "ID_GENERATION_MODE"] ++
  (Variables.Number.process ++ Variables.Number.database ++ Variables.Number.always).map
    Variables.Number.key

end AccessRegistry.Config
