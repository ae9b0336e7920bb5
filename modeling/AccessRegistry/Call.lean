/-
# Calls and outages

The services work on their tables, the lock and the queue through calls, each of
which may fail because what it needs is out of service. A schedule of outages says
which calls fail: after some that work, a number of calls of a kind fail, or all
of them.

Key definitions: `Call`, `Call.name`, `Outage`, `Outages.check`.
-/

namespace AccessRegistry

/-- The kinds of calls. -/
inductive Call where
  | ensureCursors | getCursor | saveCursor | scroll
  | insertReservation | findByNames | findById | countByName | renameByName | renameById
  | deleteByNames | deleteByIds
  | getEntry | getEntries | hasEntry | merge | subtract | retitle | updateKind | deleteOn | deleteOf
  | query
  | addEdge | removeEdge | removeAllEdges | getParents
  | createPrincipal | lookup | lookupAt | deletePrincipal
  | acquireLock | releaseLock
  | push | pop | queueLength
  | storeHealth | coordinatorHealth
  deriving DecidableEq, Repr

namespace Call

/-- Every kind of call. -/
def all : List Call :=
  [ensureCursors, getCursor, saveCursor, scroll, insertReservation, findByNames, findById,
    countByName, renameByName, renameById, deleteByNames, deleteByIds, getEntry, getEntries,
    hasEntry, merge, subtract, retitle, updateKind, deleteOn, deleteOf, query, addEdge, removeEdge,
    removeAllEdges, getParents, createPrincipal, lookup, lookupAt, deletePrincipal, acquireLock,
    releaseLock, push, pop, queueLength, storeHealth, coordinatorHealth]

/-- The name by which an outage is reported. -/
def name : Call → String
  | ensureCursors => "ranges.initialize_partitions"
  | getCursor => "ranges.get_range"
  | saveCursor => "ranges.save_range"
  | scroll => "ranges.scroll"
  | insertReservation => "reservations.insert_if_absent"
  | findByNames => "reservations.find_by_names"
  | findById => "reservations.find_by_id"
  | countByName => "reservations.count_by_name"
  | renameByName => "reservations.update_name_by_name"
  | renameById => "reservations.update_name_by_id"
  | deleteByNames => "reservations.delete_by_names"
  | deleteByIds => "reservations.delete_by_ids"
  | getEntry => "permissions.get"
  | getEntries => "permissions.get_many"
  | hasEntry => "permissions.exists"
  | merge => "permissions.merge"
  | subtract => "permissions.subtract"
  | retitle => "permissions.update_title"
  | updateKind => "permissions.update_securable_object_type"
  | deleteOn => "permissions.delete_by_acl_key"
  | deleteOf => "permissions.delete_by_principal"
  | query => "permissions.query"
  | addEdge => "memberships.add_edge"
  | removeEdge => "memberships.remove_edge"
  | removeAllEdges => "memberships.remove_all_edges"
  | getParents => "memberships.get_parents"
  | createPrincipal => "principals.create_if_not_exists"
  | lookup => "principals.lookup"
  | lookupAt => "principals.lookup_by_acl_keys"
  | deletePrincipal => "principals.delete_principal"
  | acquireLock => "lock.try_lock"
  | releaseLock => "lock.unlock"
  | push => "queue.push_all"
  | pop => "queue.pop"
  | queueLength => "queue.len"
  | storeHealth => "health.memory"
  | coordinatorHealth => "health.coordinator"

/-- The kind of call of a name. -/
def ofName? (s : String) : Option Call := all.find? fun c => c.name = s

end Call

/-- Which calls of a kind fail. -/
structure Outage where
  /-- How many calls work first. -/
  working : Nat
  /-- How many calls fail then; all of them if there is no number. -/
  failing : Option Nat
  deriving DecidableEq, Repr

/-- Whether the next call fails, and what is left of the outage after it. -/
def Outage.next (o : Outage) : Bool × Outage :=
  match o.working, o.failing with
  | n + 1, _ => (false, { o with working := n })
  | 0, none => (true, o)
  | 0, some 0 => (false, o)
  | 0, some (n + 1) => (true, { o with failing := some n })

/-- The outages of the kinds of calls that have one. -/
abbrev Outages := List (Call × Outage)

/-- Whether a call fails, and the outages after it. -/
def Outages.check (c : Call) : Outages → Bool × Outages
  | [] => (false, [])
  | (d, o) :: rest =>
    if d = c then
      let (fails, o) := o.next
      (fails, (d, o) :: rest)
    else
      let (fails, rest) := Outages.check c rest
      (fails, (d, o) :: rest)

@[simp] theorem Outages.check_nil (c : Call) : Outages.check c [] = (false, []) := rfl

end AccessRegistry
