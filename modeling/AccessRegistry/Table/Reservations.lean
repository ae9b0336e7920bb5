/-
# The table of reservations

Names and identifiers are bound one to one. The table is kept from both sides: by
name, and by identifier.

Key definitions: `Reservations`, `Reservations.insert?`, `Reservations.rename`,
`Reservations.deleteIds`, `Reservations.deleteNames`.
-/
import AccessRegistry.Reservation
import AccessRegistry.Error

namespace AccessRegistry

/-- The bindings of names and identifiers. -/
@[ext] structure Reservations where
  byName : Std.ExtTreeMap String Identifier
  byId : Std.ExtTreeMap Identifier Reservation

namespace Reservations

/-- The table without bindings. -/
def empty : Reservations := ⟨∅, ∅⟩

instance : Inhabited Reservations := ⟨empty⟩

/-- The identifier that a name is bound to. -/
def idOf? (t : Reservations) (name : String) : Option Identifier := t.byName[name]?

/-- The reservation of an identifier. -/
def find? (t : Reservations) (id : Identifier) : Option Reservation := t.byId[id]?

/-- The reservation of a name. -/
def findByName? (t : Reservations) (name : String) : Option Reservation :=
  (t.idOf? name).bind t.find?

/-- The reservations of names, in the order of the names. -/
def findByNames (t : Reservations) (names : List String) : List Reservation :=
  names.filterMap t.findByName?

/-- How many reservations a name has: one or none. -/
def count (t : Reservations) (name : String) : Nat := if name ∈ t.byName then 1 else 0

/-- Whether neither the name nor the identifier of a reservation is bound. -/
def isFree (t : Reservations) (r : Reservation) : Bool :=
  (t.idOf? r.name).isNone && (t.find? r.id).isNone

/-- The table with one more binding, if the reservation is free. -/
def insert? (t : Reservations) (r : Reservation) : Option Reservations :=
  if t.isFree r then some ⟨t.byName.insert r.name r.id, t.byId.insert r.id r⟩ else none

/-- Binds an identifier to another name. Nothing happens if the identifier is not
bound or has that name; a name of another identifier is refused. The answer says
whether the identifier is bound. -/
def rename (t : Reservations) (id : Identifier) (name : String) :
    Except StoreError (Bool × Reservations) :=
  match t.find? id with
  | none => .ok (false, t)
  | some r =>
    if r.name = name then .ok (true, t)
    else if name ∈ t.byName then .error (.nameTaken name)
    else .ok (true, ⟨(t.byName.erase r.name).insert name id, t.byId.insert id { r with name }⟩)

/-- Binds the identifier of a name to another name. -/
def renameByName (t : Reservations) (old new : String) : Except StoreError (Bool × Reservations) :=
  match t.idOf? old with
  | some id => t.rename id new
  | none => .ok (false, t)

/-- Removes the binding of an identifier, and says whether there was one. -/
def delete (t : Reservations) (id : Identifier) : Bool × Reservations :=
  match t.find? id with
  | some r => (true, ⟨t.byName.erase r.name, t.byId.erase id⟩)
  | none => (false, t)

/-- Removes the bindings of identifiers and counts them. -/
def deleteIds : List Identifier → Reservations → Nat × Reservations
  | [], t => (0, t)
  | id :: ids, t =>
    let (found, t) := t.delete id
    let (n, t) := deleteIds ids t
    (n + found.toNat, t)

/-- Removes the binding of a name, and says whether there was one. -/
def deleteName (t : Reservations) (name : String) : Bool × Reservations :=
  match t.idOf? name with
  | some id => t.delete id
  | none => (false, t)

/-- Removes the bindings of names and counts them. -/
def deleteNames : List String → Reservations → Nat × Reservations
  | [], t => (0, t)
  | name :: names, t =>
    let (found, t) := t.deleteName name
    let (n, t) := deleteNames names t
    (n + found.toNat, t)

end Reservations
end AccessRegistry
