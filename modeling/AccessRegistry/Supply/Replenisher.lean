/-
# Replenishers

A replenisher mints identifiers into the shared queue. In a round it takes the
cluster's lock, scrolls its active partitions, gives the lock back and delivers
what it minted. A partition that has too few identifiers left is retired. A round
waits for the lock for a while, and for room in the queue as long as it takes; it
may be called off by whoever asked for it, or cut off at a time limit.

Key definitions: `Replenisher`, `Replenisher.active`, `Replenisher.mint`,
`Replenisher.deliver`, `Replenisher.round`, `Replenisher.run`.
-/
import AccessRegistry.Store

namespace AccessRegistry

/-- Until when a round may go on, in milliseconds. -/
structure Patience where
  /-- When the round is called off: it gives up where it waits. -/
  calledOff : Option Nat
  /-- Whether it is called off before a wait ends that ends at the same moment. -/
  callFirst : Bool
  /-- When the round is cut off: nothing happens after it. -/
  limit : Option Nat
  deriving DecidableEq, Repr

namespace Patience

/-- Without limit. -/
def endless : Patience := ⟨none, true, none⟩

/-- Whether the round was called off by the time a wait ends. -/
def isOver (p : Patience) (now : Nat) : Bool :=
  p.calledOff.any fun c => c < now || (p.callFirst && c == now)

/-- How long the round can wait at most. -/
def remaining (p : Patience) (now : Nat) : Nat := ((p.limit <|> p.calledOff).getD now) - now

/-- How a rest ended. -/
inductive Wake where
  | rested | calledOff | cut
  deriving DecidableEq, Repr

/-- When a rest from `now` until `wake` ends, and how, if nothing cuts it off. -/
def wakeUp (p : Patience) (now wake : Nat) : Nat × Wake :=
  match p.calledOff.filter fun _ => p.isOver wake with
  | some c => (max c now, .calledOff)
  | none => (wake, .rested)

/-- Whether the limit cuts off a rest from `now` on that would end at a time in some way.
It comes before a call at the same moment, and after the end of the rest. -/
def cuts (p : Patience) (now stop : Nat) (wake : Wake) (l : Nat) : Bool :=
  l < stop || (wake == .calledOff && l == stop && !p.isOver now)

/-- Rests, unless the round is called off before or is cut off meanwhile. -/
def rest (p : Patience) (ms : Nat) : Action Wake := do
  let now := (← get).clock
  let (stop, wake) := p.wakeUp now (now + ms)
  match p.limit.filter (p.cuts now stop wake) with
  | some l =>
    modify fun s => { s with clock := max l now }
    return .cut
  | none =>
    modify fun s => { s with clock := stop }
    return wake

end Patience

/-- A task that mints identifiers. -/
@[ext] structure Replenisher where
  settings : IdSettings
  /-- The partitions that had too few identifiers left. -/
  retired : Std.ExtTreeSet Partition

namespace Replenisher

/-- A replenisher that has retired nothing. -/
def ofSettings (s : IdSettings) : Replenisher := ⟨s, ∅⟩

/-- The lock under which identifiers are minted. -/
def lockName : String := "id-generation"

/-- The time between two attempts to take the lock. -/
def pollInterval : Nat := 50

/-- The time that one attempt to deliver waits for room. -/
def pushWait : Nat := 1000

/-- The partitions that are not retired, in order. -/
def active (r : Replenisher) : List Partition :=
  ((List.range (min r.settings.partitions partitionCount)).map UInt16.ofNat).filter
    fun p => p ∉ r.retired

/-! ## Minting -/

/-- How the wait for the lock ended. -/
inductive Acquisition where
  | acquired (token : LockToken)
  | busy
  | cut
  deriving DecidableEq, Repr

/-- Tries to take the lock; `again` says how to go on after a pause. -/
def tryLock (again : Action Acquisition) (r : Replenisher) (p : Patience) (deadline : Nat) :
    Action Acquisition := do
  match ← Store.acquireLock lockName r.settings.lockTtl with
  | some token => return .acquired token
  | none =>
    if deadline ≤ (← get).clock then
      Action.say .debug .allocator "Id generation lock busy" []
      return .busy
    match ← p.rest pollInterval with
    | .rested => again
    | .calledOff => return .busy
    | .cut => return .cut

/-- Tries to take the lock until a deadline. `more` bounds how often. -/
def pollLock (r : Replenisher) (p : Patience) (deadline : Nat) : (more : Nat) → Action Acquisition
  | 0 => tryLock (pure .busy) r p deadline
  | more + 1 => tryLock (pollLock r p deadline more) r p deadline

/-- Waits for the lock as long as the settings say. -/
def waitForLock (r : Replenisher) (p : Patience) : Action Acquisition := do
  pollLock r p ((← get).clock + r.settings.lockWait) (r.settings.lockWait / pollInterval + 1)

/-- Gives the lock back. That this may fail stops nobody. -/
def unlock (token : LockToken) : Action Unit := do
  match ← Action.attempt (Store.releaseLock lockName token) with
  | .ok true => pure ()
  | .ok false => Action.say .warn .allocator "Id generation lock expired before release" []
  | .error e =>
    Action.say .warn .allocator "Failed to release id generation lock" [("error", .text e.message)]

/-- The replenisher with more partitions retired. -/
def retire (r : Replenisher) (exhausted : List Partition) : Replenisher :=
  { r with retired := exhausted.foldl .insert r.retired }

/-- What the log is told of partitions that are retired. -/
def retirementLog (r : Replenisher) (exhausted : List Partition) : List Log.Record :=
  let record (message : String) (fields : List (String × Log.Value)) : Log.Record :=
    { level := .error, part := .allocator, message, fields }
  exhausted.map (fun p => record "Id partition exhausted, retiring it"
    [("partition", .number p.toNat)]) ++
  if exhausted.isEmpty ∨ (r.retire exhausted).retired.size < r.settings.partitions then []
  else [record "Every id partition is exhausted; no further ids can be minted" []]

/-- What minting gave. -/
inductive Minting where
  /-- Identifiers to deliver, which may be none. -/
  | batch (ids : List Identifier)
  /-- There was no partition to mint from, or no lock. -/
  | idle
  /-- The round was cut off. -/
  | cut
  deriving DecidableEq

/-- Mints from the active partitions under the lock, and retires those that have
too few identifiers left. -/
def mint (r : Replenisher) (p : Patience) : Action (Replenisher × Minting) := do
  let active := r.active
  if active.isEmpty then return (r, .idle)
  match ← waitForLock r p with
  | .busy => return (r, .idle)
  | .cut => return (r, .cut)
  | .acquired token =>
    let scrolled ← Action.attempt (Store.scroll active r.settings.scrollSize)
    unlock token
    match scrolled with
    | .error e => throw e
    | .ok scroll =>
      Action.logAll (r.retirementLog scroll.exhausted)
      return (r.retire scroll.exhausted, .batch (scroll.ids.filter fun id => ¬ id.IsReserved))

/-- How a round ended. -/
inductive Delivery where
  /-- So many identifiers are in the queue. -/
  | delivered (count : Nat)
  /-- The round was cut off, and what it minted is lost. -/
  | cut
  deriving DecidableEq, Repr

/-- Tries to put a batch into the queue; `again` says how to go on if there was no
room. -/
def tryPush (again : Action Delivery) (ids : List Identifier) (p : Patience) :
    Action Delivery := do
  let now := (← get).clock
  let longest := (p.limit.getD (now + pushWait)) - now
  if ← Store.push ids (min pushWait longest) then
    Action.say .debug .allocator "Delivered minted ids" [("count", .number ids.length)]
    return .delivered ids.length
  if longest < pushWait then return .cut
  if p.isOver (← get).clock then
    Action.say .warn .allocator "Dropping undelivered ids on shutdown"
      [("count", .number ids.length)]
    return .delivered 0
  again

/-- Tries to put a batch into the queue until it is taken. `more` bounds how often;
a round that nobody ends waits for ever, which is the same as being cut off. -/
def pushUntilTaken (ids : List Identifier) (p : Patience) : (more : Nat) → Action Delivery
  | 0 => tryPush (pure .cut) ids p
  | more + 1 => tryPush (pushUntilTaken ids p more) ids p

/-- Puts minted identifiers into the queue as soon as it takes them. -/
def deliver (ids : List Identifier) (p : Patience) : Action Delivery := do
  if ids.isEmpty then return .delivered 0
  pushUntilTaken ids p (p.remaining (← get).clock / pushWait + 1)

/-! ## Rounds -/

/-- One round. The replenisher may have retired partitions even if the round failed. -/
def round (r : Replenisher) (p : Patience) :
    Action (Replenisher × Except ServiceError Delivery) := do
  match ← Action.attempt (mint r p) with
  | .error e => return (r, .error e)
  | .ok (r, .idle) => return (r, .ok (.delivered 0))
  | .ok (r, .cut) => return (r, .ok .cut)
  | .ok (r, .batch ids) => return (r, ← Action.attempt (deliver ids p))

/-- The pause after a number of failures in a row, in milliseconds: half a second,
half as long again each time, and half a minute at most. It is the middle of the
pauses that may be drawn, which are up to a half longer or shorter. -/
def failurePause (failures : Nat) : Nat :=
  min 30000 (500 * Nat.pow 3 (min failures 12) / Nat.pow 2 (min failures 12))

/-- Gives the partitions their cursors, however often that fails before it works.
`more` bounds how often. The answer says whether it worked before the task was
called off. -/
def prepare (r : Replenisher) (p : Patience) (failures : Nat) : (more : Nat) → Action Bool
  | 0 => return false
  | more + 1 => do
    if p.isOver (← get).clock then return false
    match ← Action.attempt (Store.ensureCursors r.settings.partitions) with
    | .ok () => return true
    | .error e =>
      Action.say .error .allocator "Failed to initialize id partitions" [("error", .text e.message)]
      match ← p.rest (failurePause failures) with
      | .rested => prepare r p (failures + 1) more
      | _ => return false

/-- Runs rounds until the task is called off or no partition is active. `more` bounds
how many. -/
def runRounds (r : Replenisher) (p : Patience) (failures : Nat) : (more : Nat) →
    Action Unit
  | 0 => return
  | more + 1 => do
    if p.isOver (← get).clock then return
    let (r, result) ← round r p
    match result with
    | .ok _ =>
      if r.active.isEmpty then
        Action.say .error .allocator "No active id partitions left, stopping replenisher" []
      else runRounds r p 0 more
    | .error e =>
      Action.say .error .allocator "Id replenishment round failed" [("error", .text e.message)]
      match ← p.rest (failurePause failures) with
      | .rested => runRounds r p (failures + 1) more
      | _ => return

/-- More rounds than fit into a time: a round fills the queue, or retires a partition,
or uses up reserved identifiers, or takes time. -/
def roundBound (r : Replenisher) (ms : Nat) : Nat :=
  ms + r.settings.queueCapacity + r.settings.partitions + reservedCount + 3

/-- The whole task, which is called off after some milliseconds. -/
def run (r : Replenisher) (ms : Nat) : Action Unit := do
  let s ← get
  let p : Patience := { calledOff := some (s.clock + ms), callFirst := true, limit := none }
  Action.say .info .allocator "Starting id replenisher"
    [("partitions", .number r.settings.partitions), ("scroll_size", .number r.settings.scrollSize)]
  if ← prepare r p 0 (ms + 1) then
    runRounds r p 0 (r.roundBound ms)
    Action.say .info .allocator "Id replenisher shutting down" []

end Replenisher
end AccessRegistry
