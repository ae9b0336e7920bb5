/-
# Telemetry

A process installs at most one subscriber for its logs and one recorder for its
metrics. Traces go to an endpoint if one is named. The recorder has no samples to
show; without a recorder there is a line that says so.

Key definitions: `Telemetry`, `Telemetry.startLogs`, `Telemetry.startMetrics`,
`Telemetry.metricsText`.
-/
import AccessRegistry.Address
import AccessRegistry.Error

namespace AccessRegistry

/-- What a process has installed. -/
structure Telemetry where
  subscriber : Bool
  recorder : Bool
  deriving DecidableEq, Repr

namespace Telemetry

/-- Why telemetry cannot be started. -/
inductive Fault where
  /-- The endpoint for traces is no address. -/
  | badEndpoint (service endpoint : String)
  /-- There is a subscriber. -/
  | subscribed
  /-- There is a recorder. -/
  | recording
  deriving DecidableEq, Repr

/-- The fault in words. -/
def Fault.message : Fault → String
  | badEndpoint service endpoint =>
    s!"Failed to initialize OTLP tracer for service '{service}' at endpoint '{endpoint}'"
  | subscribed => "Failed to install subscriber"
  | recording => "failed to install Prometheus recorder"

/-- What a caller is told of a fault. -/
def Fault.error (f : Fault) : ApiError := .configuration f.message

/-- Whether traces can be sent to an endpoint: their path behind it has to make an address. -/
def isAddress (endpoint : String) : Bool := (Address.path? false (endpoint ++ "/v1/traces")).isSome

/-- Installs the subscriber. The endpoint is looked at first. -/
def startLogs (t : Telemetry) (service : String) (endpoint : Option String) :
    Except Fault Telemetry :=
  match endpoint.filter fun e => !isAddress e with
  | some e => .error (.badEndpoint service e)
  | none => if t.subscriber then .error .subscribed else .ok { t with subscriber := true }

/-- Installs the recorder. -/
def startMetrics (t : Telemetry) : Except Fault Telemetry :=
  if t.recorder then .error .recording else .ok { t with recorder := true }

/-- What is shown of the metrics. -/
def metricsText (t : Telemetry) : String :=
  if t.recorder then "" else "# Metrics recorder not initialized\n"

/-- The samples that the metrics hold. -/
def samples (t : Telemetry) : List String :=
  ((t.metricsText.splitOn "\n").filter fun line => line ≠ "" ∧ ¬ line.startsWith "#")

end Telemetry
end AccessRegistry
