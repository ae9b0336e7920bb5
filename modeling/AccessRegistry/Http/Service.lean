/-
# Answers

How a request is answered: its place is looked for, the guard lets it in, its command
is read and carried out, and what came of it is made into a response. A request that
is not let in or not read changes nothing.

Key definitions: `Http.Command.perform`, `Http.answer`.
-/
import AccessRegistry.Http.Command
import AccessRegistry.Http.Guard

namespace AccessRegistry.Http

/-- A status and a body. -/
structure Reply where
  status : Nat
  body : Body

namespace Reply

/-- Success with a value. -/
def ok (j : Json) : Reply := ⟨200, .json j⟩

/-- Success without a value. -/
def done : Reply := ⟨204, .empty⟩

/-- What is told of an error. -/
def ofError (e : ApiError) : Reply := ⟨e.status, .json e.body⟩

/-- What is told of a request that is not read. -/
def ofRefusal : Refusal → Reply
  | .badPath => ⟨400, .remark⟩
  | .badMediaType => ⟨415, .remark⟩
  | .tooLong => ⟨413, .remark⟩
  | .malformed => ⟨400, .remark⟩
  | .mismatched => ⟨422, .remark⟩
  | .told e => ofError e

end Reply

/-- A computation on the state that may fail with what a caller is told. -/
abbrev Handling (α : Type) := ExceptT ApiError (StateM State) α

/-- Asks the services, whose errors are told as far as they may be. -/
def ask {α : Type} (a : Action α) : Handling α := ExceptT.adapt ApiError.ofServiceError a

/-- The name under which the health of the records is shown. -/
def Storage.healthName : Storage → String
  | .memory => "memory"
  | .closedDatabase => "postgresql"

/-- Checks one part of the service. -/
def checkHealth (name : String) (check : Action Unit) : Handling (String × Json) := do
  match ← ask (Action.attempt check) with
  | .ok () => return (name, .text "up")
  | .error e =>
    ask (Action.say .error .root "Health check failed"
      [("check", .text name), ("error", .text e.message)])
    throw (.unavailable s!"{name} is unavailable")

/-- Tells what the service is, if all its parts work. -/
def health (c : Config) : Handling Json := do
  let records ← checkHealth (Storage.healthName (← get).storage) Store.storeHealth
  let coordinator ← checkHealth "coordinator" Store.coordinatorHealth
  return .object [("status", .text "healthy"), ("service", .text c.serviceName),
    ("version", .text c.serviceVersion), ("environment", .text c.environment.label),
    ("id_generation", .text c.ids.mode.label), ("checks", .object [records, coordinator])]

/-- What was found, or the error of who looked for it. -/
def found {α : Type} (x : Option α) (missing : String) : Handling α :=
  x.elim (throw (.notFound missing)) pure

/-- What a principal holds on an object, and whether that is all that is needed. -/
def holding (held : Authorization.Holdings) (needed : Option PermissionSet) (key : AclKey) : Json :=
  let s := held.getD key .empty
  .object ([("acl_key", key.toJson), ("permissions", s.toJson)] ++
    needed.toList.map fun n => ("granted", .bool (s.containsAll n)))

/-- Carries a command out. -/
def Command.perform (c : Config) : Command → Handling Reply
  | .health => return .ok (← Http.health c)
  | .metrics => return ⟨200, .text (← get).telemetry.metricsText⟩
  | .allocate count => do
    let ids ← ask (Desk.nextMany .front count)
    return .ok (.object [("ids", Json.ofList Identifier.toJson ids.toList)])
  | .reservation name => do
    let r ← found (← ask (Naming.reservation? name)) s!"No reservation for '{name}'"
    return .ok r.toJson
  | .nameOf id => do
    let name ← found (← ask (Naming.nameOf? id)) s!"No reservation for id {id}"
    return .ok (.object [("id", id.toJson), ("name", .text name)])
  | .rename old new => do
    ask (Naming.rename old new)
    return .done
  | .release name => do
    ask (Naming.releaseNames [name])
    return .done
  | .create owner new => do
    let r ← ask (Authorization.createPrincipal c.naming.retry owner new).run
    return ⟨201, .json r.summary⟩
  | .lookup p => return .ok (← ask (Authorization.lookup p)).summary
  | .retitle p title => do
    ask (Authorization.updateTitle p title)
    return .done
  | .delete p => do
    ask (Authorization.deletePrincipal p)
    return .done
  | .closure p => do
    let members ← ask (Authorization.closure p)
    return .ok (.object [("principal", p.toJson),
      ("closure", Json.ofList Principal.toJson members.toList)])
  | .addMember child parent => do
    ask (Authorization.addMember child parent)
    return .done
  | .removeMember child parent => do
    ask (Authorization.removeMember child parent)
    return .done
  | .grant key p s kind expiration => do
    ask (Authorization.grant key p s kind expiration)
    return .done
  | .revoke key p s => do
    ask (Authorization.revoke key p s)
    return .done
  | .check p keys needed => do
    let held ← ask (Authorization.permissions p keys)
    return .ok (.object [("principal", p.toJson),
      ("results", Json.ofList (holding held needed) keys)])
  | .query q => return .ok (Json.ofList Entry.toJson (← ask (Store.query q)))

/-! ## Answering requests -/

/-- Adds records to the log of a state. -/
def tell (rs : List Log.Record) : StateM State Unit :=
  modify fun s => { s with log := s.log ++ rs }

/-- Makes an error into a reply. The log is told what the caller is not. -/
def fail (e : ApiError) : StateM State Reply := do
  tell e.log
  return .ofError e

/-- The reply to a request to a place that lets it in. -/
def serve (c : Config) (place : Place) (r : Request) : StateM State Reply := do
  match (Method.ofName? r.method).bind (Command.read? r place) with
  | none => return ⟨405, .empty⟩
  | some (.error (.told e)) => fail e
  | some (.error refusal) => return .ofRefusal refusal
  | some (.ok command) =>
    match ← (command.perform c).run with
    | .ok reply => return reply
    | .error e => fail e

/-- The reply to a request to a place. -/
def attend (c : Config) (place : Place) (r : Request) : StateM State Reply := do
  if place.isOpen then serve c place r
  else
    match Guard.verdict c.apiToken r with
    | .ok () => serve c place r
    | .error (e, record) => do
      tell [record]
      fail e

/-- Whether a request asks for the head alone of what there is to get at a place. -/
def asksForHead (place : Place) (r : Request) : Bool :=
  r.method = "HEAD" && (Command.read? r place .get).isSome

/-- The reply to a request. -/
def reply (c : Config) (r : Request) : StateM State Reply := do
  match Place.ofPath? r.path with
  | none => return ⟨404, .empty⟩
  | some place =>
    let reply ← attend c place r
    return if asksForHead place r then ⟨reply.status, .empty⟩ else reply

/-- The response to a request. -/
def answer (c : Config) (r : Request) : StateM State Response := do
  let reply ← reply c r
  return { status := reply.status, body := reply.body, requestId := r.id? }

end AccessRegistry.Http
