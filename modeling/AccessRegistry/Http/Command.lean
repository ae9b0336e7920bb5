/-
# Commands

A command is what a request asks for once its path, its body and its fields have been
read. Reading a request does not look at what the registry holds. A request that
cannot be read is refused: first its path is read, then its body, then the fields of
the body are looked at.

Key definitions: `Http.Command`, `Http.Refusal`, `Http.Command.read?`.
-/
import AccessRegistry.Authorization
import AccessRegistry.Http.MediaType
import AccessRegistry.Http.Message
import AccessRegistry.Http.Place
import AccessRegistry.Json.Text
import AccessRegistry.Text.Percent

namespace AccessRegistry.Http

open Json (Reader Form)
open Json.Form (required optional defaulted)

/-- What a request asks for. -/
inductive Command where
  /-- Whether the service works. -/
  | health
  | metrics
  /-- So many identifiers that nobody has. -/
  | allocate (count : Nat)
  /-- The reservation of a name. -/
  | reservation (name : String)
  /-- The name that an identifier is bound to. -/
  | nameOf (id : Identifier)
  | rename (old new : String)
  | release (name : String)
  | create (owner : Principal) (new : Authorization.NewPrincipal)
  /-- The registration of a principal. -/
  | lookup (p : Principal)
  | retitle (p : Principal) (title : String)
  | delete (p : Principal)
  /-- The principals whose grants count for a principal. -/
  | closure (p : Principal)
  | addMember (child parent : AclKey)
  | removeMember (child parent : AclKey)
  | grant (key : AclKey) (p : Principal) (s : PermissionSet) (kind : ObjectKind)
      (expiration : Option Instant)
  | revoke (key : AclKey) (p : Principal) (s : PermissionSet)
  /-- The permissions of a principal on some objects, and whether it holds all of a set. -/
  | check (p : Principal) (keys : List AclKey) (needed : Option PermissionSet)
  | query (q : Entry.Query)

/-- Why a request is not read. -/
inductive Refusal where
  /-- The path does not say what it has to say. -/
  | badPath
  /-- The body is not announced as JSON. -/
  | badMediaType
  /-- The body is too long. -/
  | tooLong
  /-- The body is not JSON. -/
  | malformed
  /-- The body is not of the form asked for. -/
  | mismatched
  /-- What the request says makes no sense. -/
  | told (e : ApiError)
  deriving DecidableEq, Repr

/-- The way in which a command is asked for. -/
inductive Method where
  | get | post | patch | delete
  deriving DecidableEq, Repr

/-- The method of a name. Who asks for the head gets what they would get without its
body. -/
def Method.ofName? : String → Option Method
  | "GET" => some get
  | "HEAD" => some get
  | "POST" => some post
  | "PATCH" => some patch
  | "DELETE" => some delete
  | _ => none

/-- A value of a request, or why there is none. -/
abbrev Reading (α : Type) := Except Refusal α

/-- The text that a part of a path stands for. -/
def parameter (part : String) : Reading String := (Percent.decode? part).elim (.error .badPath) .ok

/-- The identifier that a part of a path stands for. -/
def identifier (part : String) : Reading Identifier := do
  (Identifier.ofText? (← parameter part)).elim (.error .badPath) .ok

/-- The principal of a kind and an id. -/
def principal (kind id : String) : Reading Principal :=
  match PrincipalKind.ofName? kind with
  | some k => .ok ⟨k, id⟩
  | none => .error (.told (.badRequest (PrincipalKind.unknownMessage kind)))

/-- The principal that two parts of a path stand for. -/
def principalAt (kind id : String) : Reading Principal := do
  let kind ← parameter kind
  let id ← parameter id
  principal kind id

/-- How many bytes a body may have. -/
def bodyLimit : Nat := 2097152

/-- Whether the body is announced as JSON. -/
def Request.announcesJson (r : Request) : Bool :=
  ((r.header? "content-type").bind MediaType.ofText?).any MediaType.isJson

/-- The value in the body. What stands behind it does not count. -/
def Request.read {α : Type} (r : Request) (read : Reader α) : Reading α :=
  if !r.announcesJson then .error .badMediaType
  else if bodyLimit < r.body.utf8ByteSize then .error .tooLong
  else
    match read (Json.ofText r.body) with
    | .ok a => .ok a
    | .error .malformed => .error .malformed
    | .error .mismatched => .error .mismatched

/-- What is wrong with a text that has to have 1 to `most` characters. -/
def lengthViolations (field : String) (most : Nat) (s : String) : List Violation :=
  if 1 ≤ s.length ∧ s.length ≤ most then []
  else [⟨field, s!"{field} must be 1 to {most} characters"⟩]

/-- Refuses a request with wrong fields. -/
def valid (violations : List Violation) : Reading Unit :=
  if violations.isEmpty then .ok () else .error (.told (.validation violations))

/-- Refuses a set without permissions. -/
def notEmpty (s : PermissionSet) : Reading Unit :=
  if s.isEmpty then .error (.told (.badRequest "At least one permission must be given"))
  else .ok ()

/-! ## Requests with a body -/

/-- Asks for identifiers. -/
def allocate (r : Request) : Reading Command := do
  let count ← r.read (required "count" (Reader.natural UInt64.size)).read
  valid (if 1 ≤ count ∧ count ≤ 1000 then []
    else [⟨"count", "count must be between 1 and 1000"⟩])
  return .allocate count

/-- Asks for another name. -/
def rename (r : Request) (old : String) : Reading Command := do
  let new ← r.read (required "new_name" Reader.text).read
  valid (lengthViolations "new_name" 512 new)
  return .rename old new

/-- What a new principal is to be. -/
structure Application where
  kind : PrincipalKind
  id : String
  title : String
  description : String
  parent : Option AclKey
  owner : Option Principal

/-- The form of an application. -/
def Application.form : Form Application :=
  Application.mk <$> required "principal_type" PrincipalKind.ofJson <*>
    required "id" Reader.text <*> required "title" Reader.text <*>
    defaulted "description" Reader.text "" <*> optional "parent" AclKey.ofJson <*>
    optional "owner" Principal.ofJson

/-- Asks for a new principal, which belongs to the system if it has no other owner. A
role has to lie in something. -/
def create (r : Request) : Reading Command := do
  let a ← r.read Application.form.read
  valid (lengthViolations "id" 256 a.id ++ lengthViolations "title" 512 a.title)
  if a.kind = .role ∧ a.parent = none then
    .error (.told (.badRequest "A role must be created under an organization"))
  let new : Authorization.NewPrincipal :=
    { principal := ⟨a.kind, a.id⟩, title := a.title, description := a.description
      parent := a.parent }
  return .create (a.owner.getD Standard.systemPrincipal) new

/-- Asks for another title. The title is looked at before the kind. -/
def retitle (r : Request) (kind id : String) : Reading Command := do
  let kind ← parameter kind
  let id ← parameter id
  let title ← r.read (required "title" Reader.text).read
  valid (lengthViolations "title" 512 title)
  return .retitle (← principal kind id) title

/-- The form of a membership: the member, and what it is a member of. -/
def membershipForm : Form (AclKey × AclKey) :=
  Prod.mk <$> required "child" AclKey.ofJson <*> required "parent" AclKey.ofJson

/-- Names a member and what it is a member of. -/
def membership (r : Request) : Reading (AclKey × AclKey) := r.read membershipForm.read

/-- A grant that is asked for. -/
structure Award where
  key : AclKey
  principal : Principal
  permissions : PermissionSet
  kind : ObjectKind
  expiration : Option Instant

/-- The form of a grant that is asked for. -/
def Award.form : Form Award :=
  Award.mk <$> required "acl_key" AclKey.ofJson <*> required "principal" Principal.ofJson <*>
    required "permissions" PermissionSet.ofJson <*>
    defaulted "securable_object_type" ObjectKind.ofJson .unknown <*>
    optional "expiration_date" Instant.ofJson

/-- Asks for a grant. -/
def grant (r : Request) : Reading Command := do
  let a ← r.read Award.form.read
  notEmpty a.permissions
  return .grant a.key a.principal a.permissions a.kind a.expiration

/-- What is to be taken away. -/
structure Removal where
  key : AclKey
  principal : Principal
  permissions : PermissionSet

/-- The form of what is to be taken away. -/
def Removal.form : Form Removal :=
  Removal.mk <$> required "acl_key" AclKey.ofJson <*> required "principal" Principal.ofJson <*>
    required "permissions" PermissionSet.ofJson

/-- Asks to take permissions away. -/
def revoke (r : Request) : Reading Command := do
  let a ← r.read Removal.form.read
  notEmpty a.permissions
  return .revoke a.key a.principal a.permissions

/-- What is to be checked. -/
structure Question where
  principal : Principal
  keys : List AclKey
  needed : Option PermissionSet

/-- The form of what is to be checked. -/
def Question.form : Form Question :=
  Question.mk <$> required "principal" Principal.ofJson <*>
    required "acl_keys" (Reader.list AclKey.ofJson) <*> optional "required" PermissionSet.ofJson

/-- Asks what a principal may do. -/
def check (r : Request) : Reading Command := do
  let q ← r.read Question.form.read
  valid (if 1 ≤ q.keys.length ∧ q.keys.length ≤ 1000 then []
    else [⟨"acl_keys", "acl_keys must hold 1 to 1000 keys"⟩])
  return .check q.principal q.keys q.needed

/-! ## Requests -/

/-- The command of a request to a place, if the place knows the method. -/
def Command.read? (r : Request) : Place → Method → Option (Reading Command)
  | .health, .get => some (.ok .health)
  | .metrics, .get => some (.ok .metrics)
  | .ids, .post => some (Http.allocate r)
  | .reservation name, .get => some (.reservation <$> parameter name)
  | .reservation name, .patch => some (parameter name >>= Http.rename r)
  | .reservation name, .delete => some (.release <$> parameter name)
  | .reservationById id, .get => some (.nameOf <$> identifier id)
  | .principals, .post => some (Http.create r)
  | .memberships, .post => some ((fun m => .addMember m.1 m.2) <$> membership r)
  | .memberships, .delete => some ((fun m => .removeMember m.1 m.2) <$> membership r)
  | .principal kind id, .get => some (.lookup <$> principalAt kind id)
  | .principal kind id, .patch => some (Http.retitle r kind id)
  | .principal kind id, .delete => some (.delete <$> principalAt kind id)
  | .closure kind id, .get => some (.closure <$> principalAt kind id)
  | .grant, .post => some (Http.grant r)
  | .revoke, .post => some (Http.revoke r)
  | .check, .post => some (Http.check r)
  | .query, .post => some (.query <$> r.read Entry.Query.ofJson)
  | _, _ => none

end AccessRegistry.Http
