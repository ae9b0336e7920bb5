/-
# Configuration

What a service is told at its start: where it listens, what it is called, where
it keeps its records, how it makes identifiers and how hard it tries to reserve
a name. A configuration is valid if the service can run on it.

Key definitions: `Config`, `Config.inMemory`, `ConfigError`, `Config.validate`.
-/
import AccessRegistry.Retry
import AccessRegistry.Text.LowerCase
import AccessRegistry.Text.Numeral

namespace AccessRegistry

/-- Where the service runs. -/
inductive Environment where
  | dev | prod
  deriving DecidableEq, Repr

/-- Where the service keeps its records. -/
inductive Backend where
  /-- In a database, with a shared cache for the lock and the queue. -/
  | postgres
  /-- In the process alone. -/
  | memory
  deriving DecidableEq, Repr

/-- How identifiers are made. -/
inductive IdMode where
  /-- From partitioned ranges that all processes share. -/
  | partitioned
  /-- At random. -/
  | random
  deriving DecidableEq, Repr

namespace Environment

/-- The name that a setting uses. -/
def name : Environment → String
  | dev => "dev"
  | prod => "prod"

/-- The name that is shown. -/
def label : Environment → String
  | dev => "Dev"
  | prod => "Prod"

/-- The environment of an exact name. -/
def ofExactName? (s : String) : Option Environment := [dev, prod].find? fun e => e.name = s

/-- The environment whose name is the lower case of a text. -/
def ofName? (s : String) : Option Environment := ofExactName? (LowerCase.ofString s)

/-- Why a text names no environment. -/
def unknownMessage (s : String) : String := s!"Invalid environment: {s}"

end Environment

namespace Backend

/-- The name that a setting uses. -/
def name : Backend → String
  | postgres => "postgres"
  | memory => "memory"

/-- The name that is shown. -/
def label : Backend → String
  | postgres => "Postgres"
  | memory => "Memory"

/-- The backend of an exact name. -/
def ofExactName? (s : String) : Option Backend := [postgres, memory].find? fun b => b.name = s

/-- The backend whose name is the lower case of a text. -/
def ofName? (s : String) : Option Backend := ofExactName? (LowerCase.ofString s)

/-- Why a text names no backend. -/
def unknownMessage (s : String) : String := s!"Invalid storage backend: {s}"

end Backend

namespace IdMode

/-- The name that a setting uses. -/
def name : IdMode → String
  | partitioned => "partitioned"
  | random => "random"

/-- The name that is shown. -/
def label : IdMode → String
  | partitioned => "Partitioned"
  | random => "Random"

/-- The mode of an exact name. -/
def ofExactName? (s : String) : Option IdMode := [partitioned, random].find? fun m => m.name = s

/-- The mode whose name is the lower case of a text. -/
def ofName? (s : String) : Option IdMode := ofExactName? (LowerCase.ofString s)

/-- Why a text names no mode. -/
def unknownMessage (s : String) : String := s!"Invalid id generation mode: {s}"

end IdMode

/-- How to reach the database. -/
structure DatabaseSettings where
  url : String
  maxConnections : Nat
  minConnections : Nat
  deriving DecidableEq, Repr

/-- How identifiers are made and handed out. Times are in milliseconds. -/
structure IdSettings where
  mode : IdMode := .partitioned
  /-- How many partitions are minted from. -/
  partitions : Nat := 1024
  /-- How many identifiers a round mints from each partition. -/
  scrollSize : Nat := 5
  /-- From this length on the shared queue takes no more. -/
  queueCapacity : Nat := 10000
  acquireTimeout : Nat := 5000
  lockTtl : Nat := 10000
  lockWait : Nat := 2000
  deriving DecidableEq, Repr

/-- The settings that count where none are given. -/
def IdSettings.standard : IdSettings := {}

/-- How hard to try to reserve a name. Times are in milliseconds. -/
structure NamingSettings where
  maxAttempts : Nat := 10
  initialBackoff : Nat := 5
  maxBackoff : Nat := 200
  deriving DecidableEq, Repr

/-- The settings that count where none are given. -/
def NamingSettings.standard : NamingSettings := {}

/-- The retries of a reservation: backoffs double, with jitter unless there is no wait. -/
def NamingSettings.retry (n : NamingSettings) : Retry.Policy where
  maxAttempts := n.maxAttempts
  initialBackoff := n.initialBackoff
  maxBackoff := n.maxBackoff
  multiplier := 2.0
  jitter := 0 < n.initialBackoff

/-- What a service is told at its start. -/
structure Config where
  port : Nat := 8080
  /-- How long requests may go on after the service was told to stop, in seconds. -/
  shutdownGrace : Nat := 10
  environment : Environment := .dev
  serviceName : String := "identity-service"
  serviceVersion : String := "0.1.0"
  logLevel : String := "info"
  /-- Where traces are sent. -/
  traceEndpoint : Option String := none
  /-- What callers have to present. Without it everyone is let in. -/
  apiToken : Option String := none
  backend : Backend
  database : Option DatabaseSettings := none
  redisUrl : Option String := none
  ids : IdSettings := {}
  naming : NamingSettings := {}
  deriving DecidableEq, Repr

/-- Why there is no valid configuration. -/
inductive ConfigError where
  /-- The port or the grace period cannot be read. -/
  | unreadable
  | unknownEnvironment (given : String)
  | unknownBackend (given : String)
  | unknownMode (given : String)
  /-- A variable has to be set; `inProduction` says whether that is because the
  service is in production. -/
  | missing (key : String) (inProduction : Bool)
  /-- A variable is no numeral within its limit. -/
  | badNumeral (key : String) (fault : Numeral.Fault)
  | portZero
  | partitionsOutOfRange
  | scrollSizeZero
  | acquireTimeoutZero
  | attemptsZero
  | memoryInProduction
  | tokenMissing
  deriving DecidableEq, Repr

/-- The error in words; that values cannot be read is all that is said of them. -/
def ConfigError.reason? : ConfigError → Option String
  | unreadable => none
  | unknownEnvironment s => some (Environment.unknownMessage s)
  | unknownBackend s => some (Backend.unknownMessage s)
  | unknownMode s => some (IdMode.unknownMessage s)
  | missing v true => some s!"{v} is required in production but not set"
  | missing v false => some s!"{v} is required but not set"
  | badNumeral v f => some s!"{v}: {f.message}"
  | portZero => some "PORT must be greater than 0"
  | partitionsOutOfRange => some "ID_PARTITIONS must be between 1 and 65536"
  | scrollSizeZero => some "ID_SCROLL_SIZE must be positive"
  | acquireTimeoutZero => some "ID_ACQUIRE_TIMEOUT_MS must be positive"
  | attemptsZero => some "RESERVATION_MAX_ATTEMPTS must be positive"
  | memoryInProduction => some "In-memory storage is not allowed in production"
  | tokenMissing => some "API_TOKEN is required in production"

namespace Config

/-- A single process that keeps everything in memory. -/
def inMemory : Config := { backend := .memory }

/-- What the log is told of a valid configuration. -/
def warnings (c : Config) : List Log.Record :=
  if c.environment = .prod ∧ c.ids.mode = .random then
    [{ level := .warn, part := .config, fields := []
       message := "Random id generation is enabled in production" }]
  else []

/-- Whether the service can run on a configuration. -/
def validate (c : Config) : Except ConfigError Unit :=
  if c.port = 0 then .error .portZero
  else if c.ids.partitions = 0 ∨ 65536 < c.ids.partitions then .error .partitionsOutOfRange
  else if c.ids.scrollSize = 0 then .error .scrollSizeZero
  else if c.ids.acquireTimeout = 0 then .error .acquireTimeoutZero
  else if c.naming.maxAttempts = 0 then .error .attemptsZero
  else if c.environment = .prod then
    if c.backend = .memory then .error .memoryInProduction
    else if c.apiToken = none then .error .tokenMissing
    else .ok ()
  else .ok ()

end Config
end AccessRegistry
