/-
# The token guard

If the service has a token, whoever wants to go to a guarded place has to present it
in the authorization header. Who presents none, or a wrong one, is told so, and the
log is told where they wanted to go.

Key definitions: `Http.Guard.presented?`, `Http.Guard.verdict`.
-/
import AccessRegistry.Error
import AccessRegistry.Http.Message

namespace AccessRegistry.Http.Guard

/-- What stands in front of a token. -/
def scheme : List Char := "Bearer ".toList

/-- The token that a request presents. -/
def presented? (r : Request) : Option String :=
  (r.header? "authorization").bind fun v =>
    if scheme.isPrefixOf v.toList then some (String.ofList (v.toList.drop scheme.length))
    else none

/-- What the log is told of a request that is not let in. -/
def record (message : String) (r : Request) : Log.Record :=
  { level := .warn, part := .tokenGuard, message, fields := [("path", .text r.path)] }

/-- Whether a request is let in where a token, if there is one, is needed; if it is
not, what its sender and the log are told. -/
def verdict (token : Option String) (r : Request) : Except (ApiError × Log.Record) Unit :=
  match token, presented? r with
  | none, _ => .ok ()
  | some _, none =>
    .error (.unauthorized "Missing or invalid Authorization header",
      record "Request without service credentials" r)
  | some t, some p =>
    if p = t then .ok ()
    else .error (.unauthorized "Invalid service token",
      record "Request with wrong service credentials" r)

end AccessRegistry.Http.Guard
