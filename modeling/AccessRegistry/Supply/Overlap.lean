/-
# Calls to the queue that overlap

One call waits at the queue while another one comes: an identifier that arrives goes
to whoever waits for one, and room that is made is taken by whoever waits for it. If the
other call comes at the moment when the wait ends, it comes first, unless at the start of
the wait a call had just been reached: then it is late. Who does not wait at all is not
reached.

Key definitions: `Overlap`, `Overlap.reaches`, `Overlap.popThenPush`, `Overlap.pushThenPop`.
-/
import AccessRegistry.Store

namespace AccessRegistry

/-- The times of two calls that overlap. -/
structure Overlap where
  /-- When the first call begins. -/
  start : Nat
  /-- How long the first call waits at most. -/
  patience : Nat
  /-- After which time the other call comes. -/
  delay : Nat
  /-- A call had been reached just before the first call began. -/
  late : Bool
  deriving DecidableEq, Repr

namespace Overlap

/-- What a pop and a push gave. -/
structure Result where
  popped : Except ServiceError (Option Identifier)
  pushed : Except ServiceError Bool

/-- Two calls of which the first one begins now. -/
def now (patience delay : Nat) : Action Overlap := do
  let s ← get
  return ⟨s.clock, patience, delay, s.reached = some s.clock⟩

/-- Whether the other call reaches the first one while it waits. -/
def reaches (o : Overlap) : Bool :=
  0 < o.patience && (o.delay < o.patience || (o.delay == o.patience && !o.late))

/-- Goes on to when the other call comes. -/
def untilCall (o : Overlap) : Action Unit := modify fun s => { s with clock := o.start + o.delay }

/-- When a call was last reached, after the other call came. A call that comes late, or at
once, is forgotten. -/
def mark (o : Overlap) (came : Bool) (last : Option Nat) : Option Nat :=
  if came && o.reaches then
    if o.late || o.delay == 0 then none else some (o.start + o.delay)
  else last

/-- What the first call takes from the queue if it is reached, after the other call; if
there is nothing to take it waits to its end. `came` says whether the other call changed the
queue. -/
def take {α : Type} (o : Overlap) (came : Bool) (find : Queue → Option (α × Queue)) :
    Action (Option α) := do
  modify fun s => { s with reached := o.mark came s.reached }
  let s ← get
  match (find s.queue).filter fun _ => o.reaches with
  | some (a, queue) =>
    set { s with queue }
    return some a
  | none =>
    set { s with clock := o.start + max o.delay o.patience }
    return none

/-- Waits up to `patience` milliseconds for an identifier while a batch comes after
`delay` milliseconds. -/
def popThenPush (patience : Nat) (batch : List Identifier) (delay : Nat) : Action Result := do
  let o ← now patience delay
  let popped ← Action.attempt (Store.pop? 0)
  o.untilCall
  let pushed ← Action.attempt (Store.push batch 0)
  match popped with
  | .ok none =>
    let came := pushed.toOption == some true && !batch.isEmpty
    return ⟨.ok (← o.take came Queue.pop?), pushed⟩
  | _ => return ⟨popped, pushed⟩

/-- Waits up to `patience` milliseconds for room for a batch while an identifier is
taken after `delay` milliseconds. -/
def pushThenPop (patience : Nat) (batch : List Identifier) (delay : Nat) : Action Result := do
  let o ← now patience delay
  let pushed ← Action.attempt (Store.push batch 0)
  o.untilCall
  let popped ← Action.attempt (Store.pop? 0)
  match pushed with
  | .ok false =>
    let came := popped.toOption.join.isSome
    let taken ← o.take came fun q => (q.push? batch).map fun q => ((), q)
    return ⟨popped, .ok taken.isSome⟩
  | _ => return ⟨popped, pushed⟩

end Overlap
end AccessRegistry
