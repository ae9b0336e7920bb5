/-
# Audit events

An audit event records a change of who may do what. The trail of events, read
from its start, tells which principals are registered, who is a member of whom,
and who holds which permissions.

Key definitions: `AuditEvent`, `AuditEvent.Kind`.
-/
import AccessRegistry.Entry

namespace AccessRegistry

/-- A recorded change. -/
inductive AuditEvent where
  /-- A principal was registered at a key, and its owner was given every
  permission on it. -/
  | principalCreated (principal : Principal) (target : AclKey) (owner : Principal) (title : String)
  /-- A principal was removed, with its memberships and members, the grants that it held
  and the grants on it. -/
  | principalDeleted (principal : Principal) (target : AclKey) (edges held on : Nat)
  /-- A principal was given permissions on an object. -/
  | permissionsGranted (principal : Principal) (target : AclKey) (permissions : PermissionSet)
  /-- A principal lost permissions on an object. -/
  | permissionsRevoked (principal : Principal) (target : AclKey) (permissions : PermissionSet)
  /-- A principal became a member of the principal at a key. -/
  | membershipAdded (member : Principal) (target : AclKey)
  /-- A principal, if it is still known, ceased to be a member of the principal
  at a key. -/
  | membershipRemoved (member : Option Principal) (target : AclKey)
  deriving DecidableEq

namespace AuditEvent

/-- The kinds of events. -/
inductive Kind where
  | principalCreated | principalDeleted | permissionsGranted | permissionsRevoked
  | membershipAdded | membershipRemoved
  deriving DecidableEq

/-- The kind of an event. -/
def kind : AuditEvent → Kind
  | principalCreated .. => .principalCreated
  | principalDeleted .. => .principalDeleted
  | permissionsGranted .. => .permissionsGranted
  | permissionsRevoked .. => .permissionsRevoked
  | membershipAdded .. => .membershipAdded
  | membershipRemoved .. => .membershipRemoved

/-- The code of a kind. -/
def Kind.code : Kind → String
  | principalCreated => "principal_created"
  | principalDeleted => "principal_deleted"
  | permissionsGranted => "permissions_granted"
  | permissionsRevoked => "permissions_revoked"
  | membershipAdded => "membership_added"
  | membershipRemoved => "membership_removed"

/-- The principal that an event is about. -/
def principal? : AuditEvent → Option Principal
  | principalCreated p .. => some p
  | principalDeleted p .. => some p
  | permissionsGranted p .. => some p
  | permissionsRevoked p .. => some p
  | membershipAdded member _ => some member
  | membershipRemoved member _ => member

/-- The object at which an event happened. -/
def target : AuditEvent → AclKey
  | principalCreated _ k .. => k
  | principalDeleted _ k .. => k
  | permissionsGranted _ k _ => k
  | permissionsRevoked _ k _ => k
  | membershipAdded _ k => k
  | membershipRemoved _ k => k

end AuditEvent
end AccessRegistry
