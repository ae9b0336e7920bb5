/-
# Handing out identifiers

At a desk one gets an identifier, or several different ones, and gives back those
that were not used. From a queue only unreserved identifiers are handed out; if
none comes in time there is none. Who asked for several and cannot have them all
gets none, and those that were taken go back to the desk.

Key definitions: `Desk.next`, `Desk.nextMany`, `Desk.giveBack`, `Desk.buffered`.
-/
import AccessRegistry.Store

namespace AccessRegistry.Desk

/-- The failure of a desk at which no identifier came in time. -/
def timedOut (timeout : Nat) : Action Identifier := do
  Action.say .error .allocator "Timed out waiting for an identifier; is the replenisher running?"
    [("timeout_ms", .number timeout)]
  throw (.idUnavailable s!"no identifier available within {timeout} ms")

/-- Takes an identifier out of the queue. A reserved one is thrown away; `again` says
how to go on then. -/
def popOr (again : Action Identifier) (timeout deadline : Nat) : Action Identifier := do
  match ← Store.pop? (deadline - (← get).clock) with
  | none => timedOut timeout
  | some id =>
    if id.IsReserved then
      Action.say .warn .allocator "Skipping reserved id found in queue" [("id", .text id.toText)]
      again
    else return id

/-- Takes identifiers out of the queue until one is not reserved. No more of them are
reserved than `waiting` has members. -/
def popUnreserved (timeout deadline : Nat) : (waiting : List Identifier) → Action Identifier
  | [] => popOr (timedOut timeout) timeout deadline
  | _ :: waiting => popOr (popUnreserved timeout deadline waiting) timeout deadline

/-- Draws a random identifier. -/
def draw : Action Identifier := do
  let s ← get
  set { s with draws := s.draws + 1 }
  return .ofRandomBits s.draws

/-- An identifier that nobody has: one that was given back, or one of the source. -/
def next (d : Desk) : Action Identifier := do
  let s ← get
  let a := s.allocator d
  match a.take? with
  | some (id, a) =>
    set (s.setAllocator d a)
    return id
  | none =>
    match a.source with
    | .random => draw
    | .partitioned => popUnreserved a.timeout (s.clock + a.timeout) s.queue.items

/-- Gives identifiers back that were not used. -/
def giveBack (d : Desk) (ids : List Identifier) : Action Unit := do
  let s ← get
  let (a, log) := (s.allocator d).giveBack ids
  set (s.setAllocator d a)
  Action.logAll log

/-- Takes identifiers until there are `count` different ones. `more` bounds how many
are taken. -/
def collect (d : Desk) (count : Nat) : (more : Nat) → Std.ExtTreeSet Identifier →
    Action (Std.ExtTreeSet Identifier)
  | 0, taken => return taken
  | more + 1, taken => do
    if count ≤ taken.size then return taken
    match ← Action.attempt (next d) with
    | .ok id => collect d count more (taken.insert id)
    | .error e =>
      giveBack d taken.toList
      throw e

/-- So many different identifiers that nobody has. -/
def nextMany (d : Desk) (count : Nat) : Action (Std.ExtTreeSet Identifier) := do
  let s ← get
  collect d count (count + (s.allocator d).buffer.length + s.queue.length + 1) ∅

/-- How many identifiers that were given back wait at a desk. -/
def buffered (d : Desk) : Action Nat := return ((← get).allocator d).buffer.length

/-- Whether a desk hands out random identifiers. -/
def isRandom (d : Desk) : Action Bool := return ((← get).allocator d).source = .random

end AccessRegistry.Desk
