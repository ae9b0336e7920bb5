/-
# Allocators

An allocator hands out identifiers. Those that were given back to it unused go
out first; after them come those of its source, which is the shared queue or
chance. What is given back is kept in a buffer of its own, up to a capacity.

Key definitions: `Allocator`, `Allocator.take?`, `Allocator.giveBack`.
-/
import AccessRegistry.Identifier.Text
import AccessRegistry.Config

namespace AccessRegistry

/-- One desk at which identifiers are handed out. -/
@[ext] structure Allocator where
  /-- Where identifiers come from. -/
  source : IdMode
  /-- How many identifiers the buffer keeps. -/
  capacity : Nat
  /-- How long to wait for the queue, in milliseconds. -/
  timeout : Nat
  /-- Identifiers that were given back, the oldest first. -/
  buffer : List Identifier
  deriving DecidableEq

namespace Allocator

/-- The allocator of a configuration: its buffer holds as many identifiers as
there are partitions. -/
def ofSettings (s : IdSettings) : Allocator := ⟨s.mode, s.partitions, s.acquireTimeout, []⟩

/-- An allocator of random identifiers. -/
def random (capacity : Nat) : Allocator := ⟨.random, capacity, 0, []⟩

/-- The oldest identifier that was given back, and the allocator without it. -/
def take? (a : Allocator) : Option (Identifier × Allocator) :=
  match a.buffer with
  | [] => none
  | id :: ids => some (id, { a with buffer := ids })

/-- Whether an identifier that is given back is of no use: it is reserved, or it is
in the buffer. -/
def refuses (a : Allocator) (id : Identifier) : Bool :=
  decide id.IsReserved || a.buffer.contains id

/-- Gives an identifier back. Where the buffer is full it is lost, and the log says so. -/
def giveBackOne (a : Allocator) (id : Identifier) : Allocator × List Log.Record :=
  if a.refuses id then (a, [])
  else if a.capacity ≤ a.buffer.length then
    (a, [{ level := .debug, part := .allocator
           message := "Local id buffer full, dropping returned id"
           fields := [("id", .text id.toText)] }])
  else ({ a with buffer := a.buffer ++ [id] }, [])

/-- Gives identifiers back, one after the other. -/
def giveBack (a : Allocator) : List Identifier → Allocator × List Log.Record
  | [] => (a, [])
  | id :: ids =>
    let (a, log) := a.giveBackOne id
    let (a, rest) := a.giveBack ids
    (a, log ++ rest)

end Allocator
end AccessRegistry
