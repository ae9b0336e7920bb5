/-
# The shared queue of identifiers

Identifiers leave the queue in the order in which they came. A batch is taken as
a whole as soon as the queue is shorter than its capacity, so that it may end up
longer than that.

Key definitions: `Queue`, `Queue.push?`, `Queue.pop?`.
-/
import AccessRegistry.Identifier

namespace AccessRegistry

/-- Identifiers that wait to be handed out, the oldest first. -/
@[ext] structure Queue where
  capacity : Nat
  items : List Identifier
  deriving DecidableEq

namespace Queue

/-- The queue without identifiers. -/
def empty (capacity : Nat) : Queue := ⟨capacity, []⟩

/-- How many identifiers wait. -/
def length (q : Queue) : Nat := q.items.length

/-- Whether the queue takes another batch. -/
def hasRoom (q : Queue) : Bool := q.length < q.capacity

/-- The queue with a batch at its end, if it takes one. A batch of nothing is
always taken. -/
def push? (q : Queue) (batch : List Identifier) : Option Queue :=
  if batch.isEmpty then some q
  else if q.hasRoom then some { q with items := q.items ++ batch }
  else none

/-- The oldest identifier and the queue without it. -/
def pop? (q : Queue) : Option (Identifier × Queue) :=
  match q.items with
  | [] => none
  | id :: ids => some (id, { q with items := ids })

end Queue
end AccessRegistry
