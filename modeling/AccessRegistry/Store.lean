/-
# Calls to the stores

Every record is read and changed through one of these calls, each of which works
on the tables at once or fails without touching them. The lock and the queue are
shared by all processes and live outside the tables.

Key definitions: the calls of `Store`.
-/
import AccessRegistry.State

namespace AccessRegistry.Store

open AccessRegistry.Action (call callRecords reach tables change)

/-- Gives each of the first `count` partitions its first cursor if it has none. -/
def ensureCursors (count : Nat) : Action Unit := do
  callRecords .ensureCursors
  change fun t => ((), { t with cursors := t.cursors.ensure count })

/-- The cursor of a partition. -/
def cursor? (p : Partition) : Action (Option Cursor) := do
  callRecords .getCursor
  return (← tables).cursors[p]?

/-- Puts a cursor in the place of its partition's cursor. -/
def saveCursor (c : Cursor) : Action Unit := do
  callRecords .saveCursor
  change fun t => ((), { t with cursors := t.cursors.save c })

/-- Takes `count` identifiers from each partition of a list. -/
def scroll (ps : List Partition) (count : Nat) : Action Scroll := do
  callRecords .scroll
  change fun t =>
    let (s, cursors) := Cursors.scroll count ps t.cursors
    (s, { t with cursors })

/-! ## Reservations -/

/-- Binds name and identifier of a reservation if both are free, and gives the
identifier if it did. -/
def insertReservation (r : Reservation) : Action (Option Identifier) := do
  callRecords .insertReservation
  change fun t =>
    match t.reservations.insert? r with
    | some reservations => (some r.id, { t with reservations })
    | none => (none, t)

/-- The reservations of names, in the order of the names. -/
def reservationsOf (names : List String) : Action (List Reservation) := do
  callRecords .findByNames
  return (← tables).reservations.findByNames names

/-- The reservation of an identifier. -/
def reservation? (id : Identifier) : Action (Option Reservation) := do
  callRecords .findById
  return (← tables).reservations.find? id

/-- How many reservations a name has. -/
def countReservations (name : String) : Action Nat := do
  callRecords .countByName
  return (← tables).reservations.count name

/-- Takes over what a renaming gave. -/
def renamed (f : Reservations → Except StoreError (Bool × Reservations)) : Action Bool := do
  let s ← get
  match f s.tables.reservations with
  | .ok (found, reservations) =>
    set { s with tables := { s.tables with reservations } }
    return found
  | .error e => Action.failStore e

/-- Binds the identifier of a name to another name. -/
def renameByName (old new : String) : Action Bool := do
  callRecords .renameByName
  renamed fun t => t.renameByName old new

/-- Binds an identifier to another name. -/
def renameById (id : Identifier) (new : String) : Action Bool := do
  callRecords .renameById
  renamed fun t => t.rename id new

/-- Removes the bindings of names and counts them. -/
def deleteNames (names : List String) : Action Nat := do
  callRecords .deleteByNames
  change fun t =>
    let (n, reservations) := Reservations.deleteNames names t.reservations
    (n, { t with reservations })

/-- Removes the bindings of identifiers and counts them. -/
def deleteIds (ids : List Identifier) : Action Nat := do
  callRecords .deleteByIds
  change fun t =>
    let (n, reservations) := Reservations.deleteIds ids t.reservations
    (n, { t with reservations })

/-! ## Entries -/

/-- The value under a key. -/
def entry? (k : Entry.Key) : Action (Option Entry.Value) := do
  callRecords .getEntry
  return (← tables).permissions.find? k

/-- The values under the keys of a list. Nobody has to be asked about no keys. -/
def entries (ks : List Entry.Key) : Action (Std.ExtTreeMap Entry.Key Entry.Value) := do
  call .getEntries
  if ks.isEmpty then return ∅
  reach
  return (← tables).permissions.findMany ks

/-- Whether there is an entry. -/
def hasEntry (k : Entry.Key) : Action Bool := do
  callRecords .hasEntry
  return ((← tables).permissions.find? k).isSome

/-- Gives permissions under each key of a list. -/
def merge (ks : List Entry.Key) (s : PermissionSet) (kind : ObjectKind) (expiration : Instant) :
    Action Unit := do
  callRecords .merge
  change fun t => ((), { t with permissions := t.permissions.merge ks s kind expiration })

/-- Takes permissions away under each key of a list. -/
def subtract (ks : List Entry.Key) (s : PermissionSet) : Action Unit := do
  callRecords .subtract
  change fun t => ((), { t with permissions := t.permissions.subtract ks s })

/-- Sets the title of the principal at a key, and says whether there is one. -/
def retitle (key : AclKey) (title : String) : Action Bool := do
  callRecords .retitle
  change fun t =>
    let (found, directory) := t.directory.retitle key title
    (found, { t with directory })

/-- Sets the kind of an entry, and says whether there is one. -/
def updateKind (k : Entry.Key) (kind : ObjectKind) : Action Bool := do
  callRecords .updateKind
  change fun t =>
    let (found, permissions) := t.permissions.updateKind k kind
    (found, { t with permissions })

/-- Removes the entries on an object and counts them. -/
def deleteOn (key : AclKey) : Action Nat := do
  callRecords .deleteOn
  change fun t =>
    let (n, permissions) := t.permissions.deleteOn key
    (n, { t with permissions })

/-- Removes the entries of a principal and counts them. -/
def deleteOf (p : Principal) : Action Nat := do
  callRecords .deleteOf
  change fun t =>
    let (n, permissions) := t.permissions.deleteOf p
    (n, { t with permissions })

/-- The entries that a query accepts, in the order of their keys. -/
def query (q : Entry.Query) : Action (List Entry) := do
  callRecords .query
  return (← tables).permissions.query q

/-- Adds a membership, and says whether it is new. -/
def addEdge (child parent : AclKey) : Action Bool := do
  callRecords .addEdge
  change fun t =>
    let (isNew, memberships) := Memberships.add t.memberships child parent
    (isNew, { t with memberships })

/-- Removes a membership, and says whether there was one. -/
def removeEdge (child parent : AclKey) : Action Bool := do
  callRecords .removeEdge
  change fun t =>
    let (found, memberships) := Memberships.remove t.memberships child parent
    (found, { t with memberships })

/-- Removes every membership that a key has or that is in it, and counts them. -/
def removeAllEdges (key : AclKey) : Action Nat := do
  callRecords .removeAllEdges
  change fun t =>
    let (n, memberships) := Memberships.removeAll t.memberships key
    (n, { t with memberships })

/-- The parents of each key of a list that has any. Nobody has to be asked about no
keys. -/
def parents (keys : List AclKey) : Action Parents := do
  call .getParents
  if keys.isEmpty then return ∅
  reach
  return Memberships.parents (← tables).memberships keys

/-- Adds a registration unless its principal or its key is there. -/
def createPrincipal (r : Registration) : Action Bool := do
  callRecords .createPrincipal
  change fun t =>
    let (isNew, directory) := t.directory.add r
    (isNew, { t with directory })

/-- The registration of a principal. -/
def lookup? (p : Principal) : Action (Option Registration) := do
  callRecords .lookup
  return (← tables).directory.find? p

/-- The registrations at the keys of a list. Nobody has to be asked about no keys. -/
def lookupAt (keys : List AclKey) : Action (Std.ExtTreeMap AclKey Registration) := do
  call .lookupAt
  if keys.isEmpty then return ∅
  reach
  return (← tables).directory.findMany keys

/-- Removes a principal, and gives its registration if there was one. -/
def deletePrincipal (p : Principal) : Action (Option Registration) := do
  callRecords .deletePrincipal
  change fun t =>
    let (found, directory) := t.directory.remove p
    (found, { t with directory })

/-! ## The lock and the queue -/

/-- Gives a lock for `ttl` milliseconds, unless it is held. -/
def acquireLock (name : String) (ttl : Nat) : Action (Option LockToken) := do
  call .acquireLock
  let s ← get
  let (token, locks) := s.locks.acquire name ttl s.clock
  set { s with locks }
  return token

/-- Ends a lock for the holder of its token, and says whether it was held by them. -/
def releaseLock (name : String) (token : LockToken) : Action Bool := do
  call .releaseLock
  let s ← get
  let (held, locks) := s.locks.release name token s.clock
  set { s with locks }
  return held

/-- Puts a batch at the end of the queue, and says whether the queue took it. One
that does not take it within the time to wait will not take it. -/
def push (batch : List Identifier) (patience : Nat) : Action Bool := do
  call .push
  let s ← get
  match s.queue.push? batch with
  | some queue =>
    set { s with queue }
    return true
  | none =>
    Action.wait patience
    return false

/-- Takes the oldest identifier out of the queue. If there is none, none comes
within the time to wait. -/
def pop? (patience : Nat) : Action (Option Identifier) := do
  call .pop
  let s ← get
  match s.queue.pop? with
  | some (id, queue) =>
    set { s with queue }
    return some id
  | none =>
    Action.wait patience
    return none

/-- How many identifiers are in the queue. -/
def queueLength : Action Nat := do
  call .queueLength
  return (← get).queue.length

/-- Whether the store of the records answers. A closed database tells the log why
it does not. -/
def storeHealth : Action Unit := do
  call .storeHealth
  if (← get).storage = .closedDatabase then
    Action.say .error .database ("Database health check failed: " ++ Action.closedReason) []
  reach

/-- Whether the lock and the queue answer. -/
def coordinatorHealth : Action Unit := call .coordinatorHealth

end AccessRegistry.Store
