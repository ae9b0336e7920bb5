/-
# Connections

Records go to a database and the shared lock and queue to a cache. The log says
when the service connects to either of them. The address of the database holds a
password and is not told.

Key definitions: `Connection`, `Connection.log`.
-/
import AccessRegistry.Config

namespace AccessRegistry

/-- A server to connect to. -/
inductive Connection where
  | database (settings : DatabaseSettings)
  | cache (url : String)
  deriving DecidableEq, Repr

/-- What the log is told before the first attempt. -/
def Connection.log : Connection → Log.Record
  | database s =>
    { level := .info, part := .pools, message := "Connecting to PostgreSQL"
      fields := [("max_connections", .number s.maxConnections),
        ("min_connections", .number s.minConnections)] }
  | cache url =>
    { level := .info, part := .coordinator, message := "Connecting to Redis"
      fields := [("url", .text url)] }

end AccessRegistry
