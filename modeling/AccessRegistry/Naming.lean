/-
# Names

A name is bound to the identifier of one object. An object that is registered
gets the name that it asks for; if the name or the identifier is bound already, it
gets another identifier and tries again, with the name that goes with that one.

Key definitions: `Naming.NewObject`, `Naming.register`, `Naming.reserveWellKnown`,
`Naming.rename`, `Naming.releaseIds`, `Naming.releaseNames`.
-/
import AccessRegistry.Procedure

namespace AccessRegistry.Naming

/-- An object to be registered. -/
structure NewObject where
  kind : ObjectKind
  /-- The key of what the object lies in; empty for an object at the top. -/
  path : List Identifier
  /-- The name of the object, if it has an identifier. -/
  nameOf : Identifier → String

/-- How a registration ended. -/
structure Outcome where
  /-- The identifier that the object has now. -/
  objectId : Identifier
  /-- The identifier to which the name is bound. -/
  result : Except ServiceError Identifier

/-- The reservation that an object asks for. -/
def NewObject.reservation (o : NewObject) (id : Identifier) : Reservation :=
  .ofKey (.under o.path id) o.kind (o.nameOf id)

/-- The failure of an object whose attempts are used up. -/
def exhausted (name : String) (attempts : Nat) : ServiceError :=
  .illegalState s!"unable to reserve name '{name}' after {attempts} attempts"

/-- Registers from the attempt of a number on, with the identifier that the object has
then. `left` attempts are allowed. -/
def registerFrom (retry : Retry.Policy) (o : NewObject) (attempt : Nat) (id : Identifier) :
    (left : Nat) → Procedure Outcome
  | 0 => return ⟨id, .error (exhausted (o.nameOf id) retry.maxAttempts)⟩
  | left + 1 => do
    match ← Procedure.attemptStep (.insertReservation (o.reservation id)) with
    | .error e => return ⟨id, .error e⟩
    | .ok (some bound) =>
      Procedure.say .info .naming "Name reserved"
        [("name", .text (o.nameOf id)), ("id", .text bound.toText),
          ("object_type", .text o.kind.name)]
      return ⟨id, .ok bound⟩
    | .ok none =>
      Procedure.say .warn .naming "Reservation conflict, retrying with a fresh id"
        [("name", .text (o.nameOf id)), ("attempt", .number (attempt + 1))]
      if left = 0 then
        return ⟨id, .error (exhausted (o.nameOf id) retry.maxAttempts)⟩
      match ← Procedure.attemptStep .freshId with
      | .error e => return ⟨id, .error e⟩
      | .ok id =>
        let backoff := retry.backoff attempt
        if backoff ≠ 0 then Procedure.perform (.pause backoff)
        registerFrom retry o (attempt + 1) id left

/-- Registers an object that has an identifier. -/
def register (retry : Retry.Policy) (o : NewObject) (id : Identifier) : Procedure Outcome :=
  registerFrom retry o 0 id retry.maxAttempts

/-- Binds a fixed name to a fixed identifier, unless they are bound to each other. -/
def reserveWellKnown (r : Reservation) : Action Unit := do
  if (← Store.insertReservation r).isSome then return
  match ← Store.reservation? r.id with
  | some bound => if bound.name = r.name then return
  | none => pure ()
  throw (.conflict s!"well-known name '{r.name}' or id {r.id} is bound elsewhere")

/-- The reservation of a name. -/
def reservation? (name : String) : Action (Option Reservation) := do
  return (← Store.reservationsOf [name]).getLast?

/-- The identifier that a name is bound to. -/
def idOf? (name : String) : Action (Option Identifier) := do
  return (← reservation? name).map Reservation.id

/-- The identifiers of the names of a list that are bound. -/
def idsOf (names : List String) : Action (Std.ExtTreeMap String Identifier) := do
  return (← Store.reservationsOf names).foldl (fun found r => found.insert r.name r.id) ∅

/-- The name that an identifier is bound to. -/
def nameOf? (id : Identifier) : Action (Option String) := do
  return (← Store.reservation? id).map Reservation.name

/-- Whether a name is bound. -/
def isReserved (name : String) : Action Bool := do
  return 0 < (← Store.countReservations name)

/-! ## Renaming -/

/-- A name that is taken is a conflict. -/
def renameError : ServiceError → ServiceError
  | .store (.nameTaken name) => .conflict s!"name '{name}' is already reserved"
  | e => e

/-- Tells the log of a renaming that found nothing. -/
def sayMissing (fields : List (String × Log.Value)) : Action Unit :=
  Action.say .warn .naming "Rename of missing reservation ignored" fields

/-- Binds the identifier of a name to another name. A name that is not bound is
ignored. -/
def rename (old new : String) : Action Unit := do
  match ← Action.attempt (Store.renameByName old new) with
  | .error e => throw (renameError e)
  | .ok true => return
  | .ok false => sayMissing [("old_name", .text old), ("new_name", .text new)]

/-- Binds an identifier to another name. An identifier that is not bound is ignored. -/
def renameById (id : Identifier) (new : String) : Action Unit := do
  match ← Action.attempt (Store.renameById id new) with
  | .error e => throw (renameError e)
  | .ok true => return
  | .ok false => sayMissing [("id", .text id.toText), ("new_name", .text new)]

/-- What the log is told if fewer bindings were removed than was asked for. -/
def releaseFields (requested deleted : Nat) : List (String × Log.Value) :=
  [("requested", .number requested), ("deleted", .number deleted)]

/-- Removes the bindings of identifiers. Those that are not bound are ignored. -/
def releaseIds (ids : List Identifier) : Procedure Unit := do
  let deleted ← Procedure.perform (.deleteIds ids)
  if deleted < ids.length then
    Procedure.say .warn .naming "Some reservations to release by id were missing"
      (releaseFields ids.length deleted)

/-- Removes the bindings of names. Those that are not bound are ignored. -/
def releaseNames (names : List String) : Action Unit := do
  let deleted ← Store.deleteNames names
  if deleted < names.length then
    Action.say .warn .naming "Some reservations to release by name were missing"
      (releaseFields names.length deleted)

end AccessRegistry.Naming
