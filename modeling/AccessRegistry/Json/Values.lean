/-
# The domain's values as JSON

How identifiers, keys, principals, permissions, entries, cursors, reservations,
registrations, audit events and log records are written as JSON, and how those that
callers send are read.

Key definitions: `toJson` and `ofJson` of each type, `Entry.Query.ofJson`,
`AuditEvent.data`, `AuditEvent.toJson`, `Log.Record.toJson`.
-/
import AccessRegistry.Json.Form
import AccessRegistry.Instant.Text
import AccessRegistry.Reservation
import AccessRegistry.Cursor
import AccessRegistry.AuditEvent

namespace AccessRegistry

open Json (Reader Form Fault expect)
open Json.Form (required optional)

/-- An identifier is a text. -/
def Identifier.toJson (id : Identifier) : Json := .text id.toText

/-- Reads an identifier in any of its written forms. -/
def Identifier.ofJson : Reader Identifier := Reader.written Identifier.ofText?

/-- A key is the array of its identifiers. -/
def AclKey.toJson (key : AclKey) : Json := Json.ofList Identifier.toJson key.ids

/-- Reads a key; an empty array is none. -/
def AclKey.ofJson : Reader AclKey := fun j => do
  expect (AclKey.ofIds? (← Reader.list Identifier.ofJson j))

/-- An instant is a text. -/
def Instant.toJson (t : Instant) : Json := .text t.toText

/-- Reads an instant. -/
def Instant.ofJson : Reader Instant := Reader.written Instant.ofText?

/-- A permission is its name. -/
def Permission.toJson (p : Permission) : Json := .text p.name

/-- Reads a permission by its exact name. -/
def Permission.ofJson : Reader Permission := Reader.name Permission.ofExactName?

/-- A set is the array of its members, in order. -/
def PermissionSet.toJson (s : PermissionSet) : Json := Json.ofList Permission.toJson s.toList

/-- Reads a set from its members in any order, each any number of times. -/
def PermissionSet.ofJson : Reader PermissionSet := fun j => do
  return .ofList (← Reader.list Permission.ofJson j)

/-! ## Principals -/

/-- A kind is its name. -/
def PrincipalKind.toJson (k : PrincipalKind) : Json := .text k.name

/-- Reads a kind by its exact name. -/
def PrincipalKind.ofJson : Reader PrincipalKind := Reader.name PrincipalKind.ofExactName?

namespace Principal

/-- A principal is an object of its kind and its id. -/
def toJson (p : Principal) : Json := .object [("type", p.kind.toJson), ("id", .text p.id)]

/-- Reads the members of a principal from a point on, where `kind?` was met before
and `id?` stood before it. An id that stands in front of the kind is kept, and has its
form checked only when the kind is met. -/
def readMembers (kind? : Option PrincipalKind) (id? : Option Json) :
    List (String × Json) → Except Fault (Option PrincipalKind × Option Json)
  | [] => .ok (kind?, id?)
  | (name, j) :: ms =>
    if name = "type" then
      if kind?.isSome then .error .mismatched
      else do
        let kind ← PrincipalKind.ofJson j
        let _ ← id?.mapM Reader.text
        readMembers (some kind) id? ms
    else if name = "id" then
      if id?.isSome then .error .mismatched
      else do
        if kind?.isSome then let _ ← Reader.text j
        else let _ ← Reader.kept j
        readMembers kind? (some j) ms
    else do
      Reader.skipped j
      readMembers kind? id? ms

/-- Reads the kind of a principal where it stands first in an array: only as a text. -/
def kindItem : Reader PrincipalKind := Reader.written PrincipalKind.ofExactName?

/-- Reads a principal. An array holds the kind, then the id. -/
def ofJson : Reader Principal
  | .object ms => do
    let (kind?, id?) ← readMembers none none ms
    return ⟨← expect kind?, ← Reader.text (← expect id?)⟩
  | .severed ms _ => do
    let _ ← readMembers none none ms
    .error .malformed
  | .array [] => .error .mismatched
  | .array [k] => do
    let _ ← kindItem k
    .error .mismatched
  | .array (k :: i :: rest) => do
    let kind ← kindItem k
    let id ← Reader.text i
    if rest.isEmpty then .ok ⟨kind, id⟩ else .error .malformed
  | j => .error j.fault

end Principal

namespace Registration

/-- A registration is an object of its four parts. -/
def toJson (r : Registration) : Json :=
  .object [("acl_key", r.aclKey.toJson), ("principal", r.principal.toJson),
    ("title", .text r.title), ("description", .text r.description)]

/-- The form of a registration. -/
def form : Form Registration :=
  Registration.mk <$> required "acl_key" AclKey.ofJson <*> required "principal" Principal.ofJson <*>
    required "title" Reader.text <*> required "description" Reader.text

/-- Reads a registration. -/
def ofJson : Reader Registration := form.read

/-- A registration as it is shown: with its organization, if it has one. -/
def summary (r : Registration) : Json :=
  .object ([("acl_key", r.aclKey.toJson), ("principal", r.principal.toJson),
    ("title", .text r.title), ("description", .text r.description)] ++
    r.organization?.toList.map fun id => ("organization_id", id.toJson))

end Registration

/-! ## Entries -/

/-- A kind of objects is its name. -/
def ObjectKind.toJson (k : ObjectKind) : Json := .text k.name

/-- Reads a kind of objects by its exact name. -/
def ObjectKind.ofJson : Reader ObjectKind := Reader.name ObjectKind.ofExactName?

namespace Entry

/-- The members of an entry's key. -/
def Key.members (k : Entry.Key) : List (String × Json) :=
  [("acl_key", k.aclKey.toJson), ("principal", k.principal.toJson)]

/-- An entry's key is an object of the object's key and the principal. -/
def Key.toJson (k : Entry.Key) : Json := .object k.members

/-- The form of an entry's key. -/
def Key.form : Form Entry.Key :=
  Entry.Key.mk <$> required "acl_key" AclKey.ofJson <*> required "principal" Principal.ofJson

/-- Reads an entry's key. -/
def Key.ofJson : Reader Entry.Key := Key.form.read

/-- The members of an entry's value. -/
def Value.members (v : Entry.Value) : List (String × Json) :=
  [("permissions", v.permissions.toJson), ("securable_object_type", v.kind.toJson),
    ("expiration_date", v.expiration.toJson)]

/-- An entry's value is an object of its three parts. -/
def Value.toJson (v : Entry.Value) : Json := .object v.members

/-- The form of an entry's value. -/
def Value.form : Form Entry.Value :=
  Entry.Value.mk <$> required "permissions" PermissionSet.ofJson <*>
    required "securable_object_type" ObjectKind.ofJson <*>
    required "expiration_date" Instant.ofJson

/-- Reads an entry's value. -/
def Value.ofJson : Reader Entry.Value := Value.form.read

/-- An entry is one object with the members of its key and of its value. -/
def toJson (e : Entry) : Json := .object (e.key.members ++ e.value.members)

/-- The form of a query: every condition may be missing. -/
def Query.form : Form Entry.Query :=
  Entry.Query.mk <$> optional "ace_key" Key.ofJson <*> optional "acl_key" AclKey.ofJson <*>
    optional "principal" Principal.ofJson <*> optional "principal_type" PrincipalKind.ofJson <*>
    optional "securable_object_type" ObjectKind.ofJson <*> optional "root" Identifier.ofJson <*>
    optional "any_permission" PermissionSet.ofJson <*>
    optional "expires_after" Instant.ofJson <*> optional "expires_before" Instant.ofJson

/-- Reads a query. -/
def Query.ofJson : Reader Entry.Query := Query.form.read

end Entry

namespace Cursor

/-- A cursor is an object of three integers. -/
def toJson (c : Cursor) : Json :=
  .object [("partition_index", .ofInt c.partitionIndex.toInt), ("msb", .ofInt c.high.toInt),
    ("lsb", .ofInt c.low.toInt)]

/-- Reads a signed integer of 32 bits. -/
def int32 : Reader Int32 := fun j => do
  return Int32.ofInt (← Reader.integer Int32.minValue.toInt Int32.maxValue.toInt j)

/-- Reads a signed integer of 64 bits. -/
def int64 : Reader Int64 := fun j => do
  return Int64.ofInt (← Reader.integer Int64.minValue.toInt Int64.maxValue.toInt j)

/-- The form of a cursor. -/
def form : Form Cursor :=
  Cursor.mk <$> required "partition_index" int32 <*> required "msb" int64 <*> required "lsb" int64

/-- Reads a cursor. -/
def ofJson : Reader Cursor := form.read

end Cursor

namespace Reservation

/-- A reservation is an object of its four parts. -/
def toJson (r : Reservation) : Json :=
  .object [("acl_key", r.aclKey.toJson), ("securable_object_type", r.kind.toJson),
    ("securable_object_id", r.id.toJson), ("securable_object_name", .text r.name)]

/-- The form of a reservation. -/
def form : Form Reservation :=
  Reservation.mk <$> required "acl_key" AclKey.ofJson <*>
    required "securable_object_type" ObjectKind.ofJson <*>
    required "securable_object_id" Identifier.ofJson <*>
    required "securable_object_name" Reader.text

/-- Reads a reservation. -/
def ofJson : Reader Reservation := form.read

end Reservation

/-- What an event says beyond its principal and its target. -/
def AuditEvent.data : AuditEvent → Json
  | principalCreated _ _ owner title =>
    .object [("owner", .text owner.toText), ("title", .text title)]
  | principalDeleted _ _ edges held on =>
    .object [("edges", .ofNat edges), ("grants_held", .ofNat held), ("grants_on", .ofNat on)]
  | permissionsGranted _ _ s => .object [("permissions", Json.ofList .text s.names)]
  | permissionsRevoked _ _ s => .object [("permissions", Json.ofList .text s.names)]
  | membershipAdded .. => .null
  | membershipRemoved .. => .null

/-- An event is an object of its kind, what it is about and what it says. -/
def AuditEvent.toJson (e : AuditEvent) : Json :=
  .object [("type", .text e.kind.code),
    ("principal", Json.ofOption Principal.toJson e.principal?), ("target", e.target.toJson),
    ("data", e.data)]

/-- The log record of an event. -/
def AuditEvent.logRecord (e : AuditEvent) : Log.Record where
  level := .info
  part := .audit
  message := "Audit event"
  fields := [("event_type", .text e.kind.code)] ++
    (e.principal?.toList.map fun p => ("principal", .text p.toText)) ++
    [("acl_key", .text e.target.toText)] ++
    (match e.data with
      | .null => []
      | data => [("data", .text data.write)])

namespace Log

/-- A value is a text or a number. -/
def Value.toJson : Value → Json
  | text s => .text s
  | number n => .ofInt n

/-- A record is an object of its level, its message and its values. -/
def Record.toJson (r : Record) : Json :=
  .object (("level", .text r.level.name) :: ("message", .text r.message) ::
    r.fields.map fun f => (f.1, f.2.toJson))

end Log
end AccessRegistry
