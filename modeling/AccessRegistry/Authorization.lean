/-
# Authorization

Who may do what on an object: the union of what the principal and all principals
that it inherits from were granted there and that has not expired. Here are also
the life of a principal, from its creation to its removal, and the principals that
every registry has. Changes are recorded in the trail of audit events.

Key definitions: `Authorization.closure`, `Authorization.permissions`,
`Authorization.check`, `Authorization.grant`, `Authorization.revoke`,
`Authorization.createPrincipal`, `Authorization.addMember`,
`Authorization.deletePrincipal`, `Authorization.bootstrap`.
-/
import AccessRegistry.Graph
import AccessRegistry.Naming
import AccessRegistry.Standard

namespace AccessRegistry.Authorization

/-- The principals whose grants count for a principal: it, and those it inherits from.
A principal that is not registered has its own grants only. -/
def closure (p : Principal) : Action (Std.ExtTreeSet Principal) := do
  match ← Store.lookup? p with
  | none => return Std.ExtTreeSet.ofList [p]
  | some r => return (← Graph.closures [r]).getD p (Std.ExtTreeSet.ofList [p])

/-- What is held on each key of a list. -/
abbrev Holdings := Std.ExtTreeMap AclKey PermissionSet

/-- Nothing on each key of a list. -/
def Holdings.blank (keys : List AclKey) : Holdings := keys.foldl (fun h k => h.insert k .empty) ∅

/-- Adds what an entry gives at an instant. -/
def Holdings.add (now : Instant) (h : Holdings) (k : Entry.Key) (v : Entry.Value) : Holdings :=
  match h[k.aclKey]? with
  | some held => h.insert k.aclKey (held.union (v.permissionsAt now))
  | none => h

/-- The permissions of a principal on each key of a list. -/
def permissions (p : Principal) (keys : List AclKey) : Action Holdings := do
  if keys.isEmpty then return Holdings.blank keys
  let members := (← closure p).toList
  let found ← Store.entries (keys.flatMap fun key => members.map fun q => ⟨key, q⟩)
  let now := (← get).today
  return found.foldl (Holdings.add now) (Holdings.blank keys)

/-- Whether a principal holds all permissions of a set on an object. -/
def check (p : Principal) (key : AclKey) (needed : PermissionSet) : Action Bool := do
  return ((← permissions p [key]).getD key .empty).containsAll needed

/-- Whether a principal holds a permission on an object. -/
def has (p : Principal) (key : AclKey) (permission : Permission) : Action Bool :=
  check p key (.ofList [permission])

/-- Gives a principal permissions on an object, for ever if no expiration is given. -/
def grant (key : AclKey) (p : Principal) (s : PermissionSet) (kind : ObjectKind)
    (expiration : Option Instant) : Action Unit := do
  if s.isEmpty then return
  Store.merge [⟨key, p⟩] s kind (expiration.getD .neverExpires)
  Action.record (.permissionsGranted p key s)

/-- Takes permissions on an object away from a principal. -/
def revoke (key : AclKey) (p : Principal) (s : PermissionSet) : Action Unit := do
  if s.isEmpty then return
  Store.subtract [⟨key, p⟩] s
  Action.record (.permissionsRevoked p key s)

/-- Sets the kind of the object of an entry. -/
def updateKind (k : Entry.Key) (kind : ObjectKind) : Action Unit := do
  unless ← Store.updateKind k kind do
    throw (.notFound s!"no permissions for {k.principal} on {k.aclKey}")

/-! ## Creating principals -/

/-- Registers a principal unless it is registered, and gives its owner every
permission on it. -/
def createIfAbsent (owner : Principal) (r : Registration) : Procedure Bool := do
  unless ← Procedure.perform (.createPrincipal r) do return false
  Procedure.perform
    (.merge ⟨r.aclKey, owner⟩ .full (.ofPrincipal r.principal.kind) .neverExpires)
  Procedure.perform (.record (.principalCreated r.principal r.aclKey owner r.title))
  Procedure.say .info .authorization "Principal created"
    [("principal", .text r.principal.toText), ("acl_key", .text r.aclKey.toText)]
  return true

/-- A principal to be created. -/
structure NewPrincipal where
  principal : Principal
  title : String
  description : String
  /-- The key of what the principal lies in. -/
  parent : Option AclKey

/-- The key of what a new principal lies in; empty at the top. -/
def NewPrincipal.path (n : NewPrincipal) : List Identifier := (n.parent.map AclKey.ids).getD []

/-- The object under whose name the principal is registered: the name does not hang
on the identifier. -/
def NewPrincipal.object (n : NewPrincipal) : Naming.NewObject where
  kind := .ofPrincipal n.principal.kind
  path := n.path
  nameOf _ := n.principal.toText

/-- The registration of a new principal with an identifier. -/
def NewPrincipal.registration (n : NewPrincipal) (id : Identifier) : Registration :=
  ⟨.under n.path id, n.principal, n.title, n.description⟩

/-- The failure of who wants to create a principal that is there. -/
def alreadyExists (p : Principal) : ServiceError := .conflict s!"principal {p} already exists"

/-- Tells the log of a part of a failed creation that could not be undone. -/
def sayLeft (message : String) (field : String × Log.Value) (e : ServiceError) : Procedure Unit :=
  Procedure.say .warn .authorization message [field, ("error", .text e.message)]

/-- Undoes what a failed creation left behind. A registration goes only if it is the
one that was made. -/
def discard (r : Registration) (id : Identifier) : Procedure Unit := do
  let who := ("principal", Log.Value.text r.principal.toText)
  match ← Procedure.attemptStep (.lookup r.principal) with
  | .ok (some found) =>
    if found.aclKey = r.aclKey then
      match ← Procedure.attemptStep (.deletePrincipal r.principal) with
      | .ok _ => pure ()
      | .error e => sayLeft "Failed to remove partially created principal" who e
  | .ok none => pure ()
  | .error e => sayLeft "Failed to look up partially created principal" who e
  match ← (Naming.releaseIds [id]).attempt with
  | .ok () => pure ()
  | .error e =>
    sayLeft "Failed to release reservation of failed principal" ("id", .text id.toText) e

/-- Creates a principal: reserves its name with a fresh identifier, registers it and
gives its owner every permission on it. If one of these fails, what was done before
it is undone. -/
def createPrincipal (retry : Retry.Policy) (owner : Principal) (n : NewPrincipal) :
    Procedure Registration := do
  if (← Procedure.perform (.lookup n.principal)).isSome then
    .fail (alreadyExists n.principal)
  let first ← Procedure.perform .freshId
  match (← Naming.register retry n.object first).result with
  | .error e => .fail e
  | .ok id =>
    let r := n.registration id
    match ← (createIfAbsent owner r).attempt with
    | .ok true => return r
    | .ok false =>
      Naming.releaseIds [id]
      .fail (alreadyExists n.principal)
    | .error e =>
      discard r id
      .fail e

/-- The registration of a principal, which has to be registered. -/
def lookup (p : Principal) : Action Registration := do
  match ← Store.lookup? p with
  | some r => return r
  | none => throw (.notFound s!"principal {p} not found")

/-- Sets the title of a principal. -/
def updateTitle (p : Principal) (title : String) : Action Unit := do
  let r ← lookup p
  let _ ← Store.retitle r.aclKey title

/-- The failure of who names a key at which no principal is registered. -/
def nobodyAt (key : AclKey) : ServiceError := .notFound s!"no principal at {key}"

/-- Makes the principal at one key a member of the principal at another. -/
def addMember (child parent : AclKey) : Action Unit := do
  let found ← Store.lookupAt [child, parent]
  match found[child]? with
  | none => throw (nobodyAt child)
  | some member =>
    if parent ∉ found then throw (nobodyAt parent)
    if ← Store.addEdge child parent then
      Action.record (.membershipAdded member.principal parent)

/-- Ends a membership. One that is not there is ignored. -/
def removeMember (child parent : AclKey) : Action Unit := do
  if ← Store.removeEdge child parent then
    let found ← Store.lookupAt [child]
    Action.record (.membershipRemoved (found[child]?.map Registration.principal) parent)
  else
    Action.say .warn .authorization "Removal of missing membership ignored" []

/-- Removes a principal with its memberships and members, the grants that it holds
and those on it, and its name. -/
def deletePrincipal (p : Principal) : Action Unit := do
  let r ← lookup p
  let edges ← Store.removeAllEdges r.aclKey
  let held ← Store.deleteOf p
  let on ← Store.deleteOn r.aclKey
  let _ ← Store.deletePrincipal p
  (Naming.releaseIds [r.id]).run
  Action.record (.principalDeleted p r.aclKey edges held on)

/-! ## The standard principals -/

/-- The reservation of the name of a standard principal. -/
def standardReservation (r : Registration) : Reservation :=
  .ofKey r.aclKey (.ofPrincipal r.principal.kind) r.principal.toText

/-- Creates standard principals that are missing, and counts those that it made. -/
def createStandard : List Registration → Action Nat
  | [] => return 0
  | r :: rs => do
    Naming.reserveWellKnown (standardReservation r)
    let made ← (createIfAbsent Standard.systemPrincipal r).run
    return (← createStandard rs) + made.toNat

/-- Sees to it that the standard principals are there and that administrators count
as authenticated. -/
def bootstrap : Action Unit := do
  let created ← createStandard Standard.all
  addMember Standard.adminRole.aclKey Standard.authenticatedRole.aclKey
  Action.say .info .authorization "System principals bootstrapped" [("created", .number created)]

end AccessRegistry.Authorization
