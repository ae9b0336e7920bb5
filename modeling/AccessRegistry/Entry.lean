/-
# Access control entries

An entry says which permissions a principal holds on an object, of which kind
the object is, and until when the grant counts. A query is a filter of up to
nine conditions, all of which an entry has to meet.

Key definitions: `ObjectKind`, `Entry.Key`, `Entry.Value`, `Entry.Value.activeAt`,
`Entry`, `Entry.Query`, `Entry.Query.accepts`.
-/
import AccessRegistry.Principal
import AccessRegistry.Permission
import AccessRegistry.Instant
import AccessRegistry.Log

namespace AccessRegistry

/-- The kinds of objects that can be secured. -/
inductive ObjectKind where
  | organization | role | principal | study | participant | questionnaire | appData
  /-- The kind was never stored, or is none that is known. -/
  | unknown
  deriving DecidableEq, Repr

namespace ObjectKind

/-- Every kind. -/
def all : List ObjectKind :=
  [organization, role, principal, study, participant, questionnaire, appData, unknown]

/-- The name of a kind. -/
def name : ObjectKind → String
  | organization => "organization"
  | role => "role"
  | principal => "principal"
  | study => "study"
  | participant => "participant"
  | questionnaire => "questionnaire"
  | appData => "app_data"
  | unknown => "unknown"

instance : ToString ObjectKind := ⟨name⟩

/-- The kind of a name, in the exact spelling. -/
def ofExactName? (s : String) : Option ObjectKind :=
  all.find? fun k => k.name = s

/-- The kind whose name is the lower case of a text. -/
def ofName? (s : String) : Option ObjectKind :=
  ofExactName? (LowerCase.ofString s)

/-- Why a text names no kind. -/
def unknownMessage (s : String) : String := s!"Invalid securable object type: {s}"

/-- The kind that a stored name stands for. A missing or unknown name stands for
the unknown kind, and the log says so. -/
def ofStored (stored : Option String) : ObjectKind × List Log.Record :=
  match stored.bind ofName? with
  | some k => (k, [])
  | none => (unknown, [{
      level := .warn
      part := .entries
      message := "Securable object type missing or unknown, returning degraded value"
      fields := [("stored", .text (stored.getD "<null>"))] }])

/-- The kind under which a principal's own object is filed. -/
def ofPrincipal : PrincipalKind → ObjectKind
  | .organization => organization
  | .role => role
  | .user => principal
  | .service => principal

end ObjectKind

/-- The members of a list of stored names. A name that is no permission is left
out, and the log says so. -/
def PermissionSet.ofStored (names : List String) : PermissionSet × List Log.Record :=
  names.foldl
    (fun (s, log) name =>
      match Permission.ofName? name with
      | some p => (s.insert p, log)
      | none => (s, log ++ [{
          level := .warn
          part := .permissions
          message := "Ignoring unknown permission"
          fields := [("permission", .text name)] }]))
    (.empty, [])

/-- Which object and which principal an entry is about. -/
@[ext] structure Entry.Key where
  aclKey : AclKey
  principal : Principal
  deriving DecidableEq

namespace Entry.Key

instance : Ord Entry.Key where
  compare := compareLex (compareOn Entry.Key.aclKey) (compareOn Entry.Key.principal)

instance : Std.TransOrd Entry.Key :=
  inferInstanceAs
    (Std.TransCmp (compareLex (compareOn Entry.Key.aclKey) (compareOn Entry.Key.principal)))

instance : Std.LawfulEqOrd Entry.Key :=
  lawfulEqCmp_compareLex fun _ _ => Entry.Key.ext

/-- The root of the object. -/
def root (k : Entry.Key) : Identifier := k.aclKey.root

end Entry.Key

/-- What an entry says. -/
@[ext] structure Entry.Value where
  permissions : PermissionSet
  kind : ObjectKind
  expiration : Instant
  deriving DecidableEq

namespace Entry.Value

/-- A grant counts strictly before it expires. -/
def activeAt (v : Entry.Value) (now : Instant) : Bool := now < v.expiration

/-- The permissions that count at an instant. -/
def permissionsAt (v : Entry.Value) (now : Instant) : PermissionSet :=
  if v.activeAt now then v.permissions else .empty

end Entry.Value

/-- An access control entry. -/
@[ext] structure Entry where
  key : Entry.Key
  value : Entry.Value
  deriving DecidableEq

/-- A filter for entries. A condition that is not set holds of every entry. -/
structure Entry.Query where
  key : Option Entry.Key := none
  aclKey : Option AclKey := none
  principal : Option Principal := none
  principalKind : Option PrincipalKind := none
  objectKind : Option ObjectKind := none
  root : Option Identifier := none
  /-- The entry holds at least one of these. -/
  anyPermission : Option PermissionSet := none
  /-- The entry expires at this instant or later. -/
  expiresFrom : Option Instant := none
  /-- The entry expires before this instant. -/
  expiresBefore : Option Instant := none
  deriving DecidableEq

namespace Entry.Query

/-- Whether an entry meets every condition that is set. -/
def accepts (q : Entry.Query) (k : Entry.Key) (v : Entry.Value) : Bool :=
  q.key.all (· = k) &&
  q.aclKey.all (· = k.aclKey) &&
  q.principal.all (· = k.principal) &&
  q.principalKind.all (· = k.principal.kind) &&
  q.objectKind.all (· = v.kind) &&
  q.root.all (· = k.root) &&
  q.anyPermission.all v.permissions.intersects &&
  q.expiresFrom.all (fun t => !decide (v.expiration < t)) &&
  q.expiresBefore.all (fun t => decide (v.expiration < t))

end Entry.Query
end AccessRegistry
