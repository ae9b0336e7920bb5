/-
# Log records

What the service writes to its log: a level, the part of the service that
speaks, a message and named values. Each part writes under a target, the name by
which a log filter selects it.

Key definitions: `Log.Level`, `Log.Part`, `Log.Part.target`, `Log.Record`.
-/

namespace AccessRegistry.Log

/-- How urgent a record is. -/
inductive Level where
  | error | warn | info | debug | trace
  deriving DecidableEq, Repr

namespace Level

/-- The name of a level. -/
def name : Level → String
  | error => "ERROR"
  | warn => "WARN"
  | info => "INFO"
  | debug => "DEBUG"
  | trace => "TRACE"

/-- How much a filter has to let through to show the level. -/
def verbosity : Level → Nat
  | error => 1
  | warn => 2
  | info => 3
  | debug => 4
  | trace => 5

end Level

/-- The parts of the service that write records. -/
inductive Part where
  | root
  | config
  | pools
  | permissions
  | entries
  | allocator
  | coordinator
  | naming
  | graph
  | authorization
  | database
  | tokenGuard
  | responses
  | retries
  | audit
  deriving DecidableEq, Repr

/-- The target that a part writes under. -/
def Part.target : Part → String
  | root => "identity_service"
  | config => "identity_service::config"
  | pools => "identity_service::db"
  | permissions => "identity_service::models::permission"
  | entries => "identity_service::models::ace"
  | allocator => "identity_service::services::id_allocator"
  | coordinator => "identity_service::services::redis"
  | naming => "identity_service::services::reservations"
  | graph => "identity_service::services::principal_graph"
  | authorization => "identity_service::services::authorization"
  | database => "identity_service::services::database"
  | tokenGuard => "identity_service::middleware::service_auth"
  | responses => "service_core::error"
  | retries => "service_core::retry"
  | audit => "audit"

/-- A named value of a record. -/
inductive Value where
  | text (s : String)
  | number (n : Int)
  deriving DecidableEq

/-- A record of the log. -/
structure Record where
  level : Level
  part : Part
  message : String
  fields : List (String × Value)
  deriving DecidableEq

end AccessRegistry.Log
