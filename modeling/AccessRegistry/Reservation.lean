/-
# Reservations

A reservation binds a unique name to the identifier of a securable object.

Key definitions: `Reservation`, `Reservation.ofKey`.
-/
import AccessRegistry.Entry

namespace AccessRegistry

/-- A name bound to an object. -/
@[ext] structure Reservation where
  aclKey : AclKey
  kind : ObjectKind
  id : Identifier
  name : String
  deriving DecidableEq

/-- The reservation of a name for the object at a key. -/
def Reservation.ofKey (key : AclKey) (kind : ObjectKind) (name : String) : Reservation :=
  { aclKey := key, kind, id := key.leaf, name }

end AccessRegistry
