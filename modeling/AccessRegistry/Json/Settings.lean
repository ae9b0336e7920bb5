/-
# Configurations as JSON

A configuration is read from an object whose members stand for single settings;
a setting without a member is the one of a process that keeps everything in
memory. It is shown as an object of all settings, with those of the database, of
the identifiers and of the retries in objects of their own.

Key definitions: `Config.ofJson`, `Config.toJson`.
-/
import AccessRegistry.Json.Form
import AccessRegistry.Config

namespace AccessRegistry

open Json (Reader)

namespace Config

/-- The setting of a member, or the one that is set now. The error is the member's name. -/
def setting {α : Type} (j : Json) (name : String) (read : Reader α) (current : α) :
    Except String α :=
  match j.member? name with
  | none => .ok current
  | some value => (read value).mapError fun _ => name

/-- Reads a configuration; the error is the name of the first member that is wrong. -/
def ofJson (j : Json) : Except String Config := do
  let c := inMemory
  let number32 := Reader.natural UInt32.size
  let number64 := Reader.natural UInt64.size
  let port ← setting j "port" (Reader.natural UInt16.size) c.port
  let shutdownGrace ← setting j "shutdown_grace_seconds" number64 c.shutdownGrace
  let environment ← setting j "environment" (Reader.name Environment.ofExactName?) c.environment
  let backend ← setting j "backend" (Reader.name Backend.ofExactName?) c.backend
  let apiToken ← setting j "api_token" (Reader.optional Reader.text) c.apiToken
  let serviceName ← setting j "service_name" Reader.text c.serviceName
  let serviceVersion ← setting j "service_version" Reader.text c.serviceVersion
  let mode ← setting j "mode" (Reader.name IdMode.ofExactName?) c.ids.mode
  let partitions ← setting j "partitions" number32 c.ids.partitions
  let scrollSize ← setting j "scroll_size" number64 c.ids.scrollSize
  let queueCapacity ← setting j "queue_capacity" number64 c.ids.queueCapacity
  let acquireTimeout ← setting j "acquire_timeout_ms" number64 c.ids.acquireTimeout
  let lockTtl ← setting j "lock_ttl_ms" number64 c.ids.lockTtl
  let lockWait ← setting j "lock_wait_ms" number64 c.ids.lockWait
  let maxAttempts ← setting j "max_attempts" number32 c.naming.maxAttempts
  let initialBackoff ← setting j "initial_backoff_ms" number64 c.naming.initialBackoff
  let maxBackoff ← setting j "max_backoff_ms" number64 c.naming.maxBackoff
  return { c with
    port, shutdownGrace, environment, backend, apiToken, serviceName, serviceVersion
    ids := { mode, partitions, scrollSize, queueCapacity, acquireTimeout, lockTtl, lockWait }
    naming := { maxAttempts, initialBackoff, maxBackoff } }

end Config

/-! ## Showing -/

/-- The settings of a database. -/
def DatabaseSettings.toJson (d : DatabaseSettings) : Json :=
  .object [("url", .text d.url), ("max_connections", .ofNat d.maxConnections),
    ("min_connections", .ofNat d.minConnections)]

/-- The settings of identifiers. -/
def IdSettings.toJson (s : IdSettings) : Json :=
  .object [("mode", .text s.mode.label), ("partitions", .ofNat s.partitions),
    ("scroll_size", .ofNat s.scrollSize), ("queue_capacity", .ofNat s.queueCapacity),
    ("acquire_timeout_ms", .ofNat s.acquireTimeout), ("lock_ttl_ms", .ofNat s.lockTtl),
    ("lock_wait_ms", .ofNat s.lockWait)]

/-- The retries of a reservation, whose backoffs always double. -/
def NamingSettings.toJson (n : NamingSettings) : Json :=
  .object [("max_attempts", .ofNat n.maxAttempts), ("initial_backoff_ms", .ofNat n.initialBackoff),
    ("max_backoff_ms", .ofNat n.maxBackoff), ("multiplier", .number ⟨false, 20, -1, false⟩),
    ("jitter", .bool n.retry.jitter)]

/-- A configuration. -/
def Config.toJson (c : Config) : Json :=
  .object [("port", .ofNat c.port), ("shutdown_grace_seconds", .ofNat c.shutdownGrace),
    ("environment", .text c.environment.label), ("service_name", .text c.serviceName),
    ("service_version", .text c.serviceVersion), ("log_level", .text c.logLevel),
    ("otlp_endpoint", Json.ofOption .text c.traceEndpoint),
    ("api_token", Json.ofOption .text c.apiToken), ("backend", .text c.backend.label),
    ("database", Json.ofOption DatabaseSettings.toJson c.database),
    ("redis", Json.ofOption .text c.redisUrl), ("id_generation", c.ids.toJson),
    ("retry", c.naming.toJson)]

end AccessRegistry
