/-
# Errors

A store fails with a `StoreError`; the services fail with a `ServiceError`, which
may be the failure of a store. Whoever asks over HTTP sees an `ApiError`: a
status, a body that does not give away what happened inside, and a log record
that does.

Key definitions: `StoreError`, `ServiceError`, `ApiError`, `ApiError.ofServiceError`,
`ApiError.status`, `ApiError.body`, `ApiError.log`.
-/
import AccessRegistry.Json.Values

namespace AccessRegistry

/-- Why a store cannot do what it was asked. -/
inductive StoreError where
  /-- The database refused. -/
  | database (reason : String)
  /-- The shared cache refused. -/
  | redis (reason : String)
  /-- A name is bound to another object. -/
  | nameTaken (name : String)
  /-- A stored record cannot be read. -/
  | corrupt (reason : String)
  /-- Anything else. -/
  | internal (reason : String)
  deriving DecidableEq, Repr

/-- The error in words. -/
def StoreError.message : StoreError → String
  | database r => "Database error: " ++ r
  | redis r => "Redis error: " ++ r
  | nameTaken n => "Name already reserved: " ++ n
  | corrupt r => "Corrupt record: " ++ r
  | internal r => "Internal store error: " ++ r

/-- Why a service cannot do what it was asked. -/
inductive ServiceError where
  /-- A store failed. -/
  | store (e : StoreError)
  /-- Something failed inside. -/
  | internal (reason : String)
  /-- What was asked for does not exist. -/
  | notFound (reason : String)
  /-- What was asked for contradicts what is there. -/
  | conflict (reason : String)
  /-- Every attempt was used up; another name may do. -/
  | illegalState (reason : String)
  /-- No identifier could be had in time. -/
  | idUnavailable (reason : String)
  /-- The request makes no sense. -/
  | invalid (reason : String)
  deriving DecidableEq, Repr

/-- The error in words. -/
def ServiceError.message : ServiceError → String
  | store e => e.message
  | internal r => "Internal server error: " ++ r
  | notFound r => "Not found: " ++ r
  | conflict r => "Conflict: " ++ r
  | illegalState r => "Illegal state: " ++ r
  | idUnavailable r => "No identifier available: " ++ r
  | invalid r => "Validation error: " ++ r

/-- What is wrong with a field of a request. -/
structure Violation where
  field : String
  problem : String
  deriving DecidableEq, Repr

/-- The field and the problem. -/
def Violation.message (v : Violation) : String := v.field ++ ": " ++ v.problem

/-- What a caller over HTTP is told. -/
inductive ApiError where
  | validation (violations : List Violation)
  | badRequest (reason : String)
  | notFound (reason : String)
  | unauthorized (reason : String)
  | conflict (reason : String)
  | internal (reason : String)
  | unavailable (reason : String)
  | database (reason : String)
  | redis (reason : String)
  | configuration (reason : String)
  deriving DecidableEq, Repr

namespace ApiError

/-- The violations, one a line. -/
def lines (vs : List Violation) : String := "\n".intercalate (vs.map Violation.message)

/-- The error in words. -/
def message : ApiError → String
  | validation vs => "Validation error: " ++ lines vs
  | badRequest r => "Bad request: " ++ r
  | notFound r => "Not found: " ++ r
  | unauthorized r => "Authentication error: " ++ r
  | conflict r => "Conflict: " ++ r
  | internal r => "Internal server error: " ++ r
  | unavailable r => "Service Unavailable: " ++ r
  | database r => "Database error: " ++ r
  | redis r => "Redis error: " ++ r
  | configuration r => "Configuration error: " ++ r

/-- What a caller is told of a service's error. -/
def ofServiceError : ServiceError → ApiError
  | .store (.database r) => database r
  | .store (.redis r) => redis r
  | .store (.nameTaken n) => conflict (StoreError.nameTaken n).message
  | .store (.corrupt r) => internal (StoreError.corrupt r).message
  | .store (.internal r) => internal (StoreError.internal r).message
  | .internal r => internal r
  | .notFound r => notFound r
  | .conflict r => conflict r
  | .illegalState r => conflict (r ++ "; try again with a different name")
  | .idUnavailable r => unavailable r
  | .invalid r => badRequest r

/-- The status of the response. -/
def status : ApiError → Nat
  | validation _ => 422
  | badRequest _ => 400
  | notFound _ => 404
  | unauthorized _ => 401
  | conflict _ => 409
  | internal _ => 500
  | unavailable _ => 503
  | database _ => 500
  | redis _ => 500
  | configuration _ => 500

/-- The body of a response with an error and, where they may be told, details. -/
def bodyOf (error : String) (details : Option String) : Json :=
  .object (("error", .text error) :: details.toList.map fun d => ("details", .text d))

/-- The body of the response. Failures inside are not told. -/
def body : ApiError → Json
  | validation vs => bodyOf "Validation error" (some (lines vs))
  | badRequest r => bodyOf r none
  | notFound r => bodyOf r none
  | unauthorized r => bodyOf r none
  | conflict r => bodyOf r none
  | internal _ => bodyOf "Internal server error" none
  | unavailable r => bodyOf "Service unavailable" (some r)
  | database _ => bodyOf "Database error" none
  | redis _ => bodyOf "Cache error" none
  | configuration r => bodyOf "Configuration error" (some r)

/-- The log record of a failure inside. -/
def record (message reason : String) : Log.Record :=
  { level := .error, part := .responses, message, fields := [("error", .text reason)] }

/-- What the log is told when the response is made. -/
def log : ApiError → List Log.Record
  | internal r => [record "Internal error" r]
  | database r => [record "Database error" r]
  | redis r => [record "Redis error" r]
  | _ => []

end ApiError
end AccessRegistry
