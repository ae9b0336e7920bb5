/-
# Places

A place is what the path of a request leads to: one object, or a task. The names of
a path stand between slashes; those that name an object are kept as they are written,
and only at the end of a path they must not be empty. The health and the metrics of the
service are open to all, every other place is guarded.

Key definitions: `Http.Place`, `Http.Place.ofPath?`, `Http.Place.isOpen`.
-/

namespace AccessRegistry.Http

/-- What a path leads to. -/
inductive Place where
  | health
  | metrics
  | ids
  | reservation (name : String)
  | reservationById (id : String)
  | principals
  | memberships
  | principal (kind id : String)
  | closure (kind id : String)
  | grant
  | revoke
  | check
  | query
  deriving DecidableEq, Repr

namespace Place

/-- The parts of a text between its slashes. -/
def segments : List Char → List (List Char)
  | [] => [[]]
  | c :: cs =>
    match segments cs with
    | [] => [[c]]
    | s :: ss => if c = '/' then [] :: s :: ss else (c :: s) :: ss

/-- The place of the parts of a path. A fixed name comes before the name of an object. -/
def ofSegments? : List String → Option Place
  | ["health"] => some health
  | ["metrics"] => some metrics
  | ["ids"] => some ids
  | ["reservations", name] => if name = "" then none else some (reservation name)
  | ["reservations", "by-id", id] => if id = "" then none else some (reservationById id)
  | ["principals"] => some principals
  | ["principals", "memberships"] => some memberships
  | ["principals", kind, id] => if id = "" then none else some (principal kind id)
  | ["principals", kind, id, "closure"] => some (closure kind id)
  | ["permissions", "grant"] => some grant
  | ["permissions", "revoke"] => some revoke
  | ["permissions", "check"] => some check
  | ["permissions", "query"] => some query
  | _ => none

/-- The place of a path. -/
def ofPath? (path : String) : Option Place :=
  match segments path.toList with
  | [] :: rest => ofSegments? (rest.map String.ofList)
  | _ => none

/-- Whether everyone is let in. -/
def isOpen : Place → Bool
  | health => true
  | metrics => true
  | _ => false

end Place
end AccessRegistry.Http
