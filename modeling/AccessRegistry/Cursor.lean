/-
# Cursors

A cursor is the place in a partition up to which identifiers have been minted.
It is kept as the two halves of the next identifier, next to the number of its
partition. The last counter of a partition is never minted, so that a cursor
always lies inside its partition.

Key definitions: `Cursor`, `Cursor.start`, `Cursor.partition`, `Cursor.next`,
`Cursor.advance?`.
-/
import AccessRegistry.Identifier

namespace AccessRegistry

/-- The next identifier of a partition. -/
@[ext] structure Cursor where
  partitionIndex : Int32
  high : Int64
  low : Int64
  deriving DecidableEq

namespace Cursor

/-- The cursor whose next identifier is `id`. -/
def pointingTo (id : Identifier) : Cursor where
  partitionIndex := Int32.ofNat id.partition.toNat
  high := id.halves.1
  low := id.halves.2

/-- Where minting starts in a partition: in partition zero, after the reserved
identifiers. -/
def start (p : Partition) : Cursor :=
  pointingTo (.ofParts p (if p = 0 then reservedCount else 0))

/-- The partition: the low 16 bits of its number. -/
def partition (c : Cursor) : Partition :=
  c.partitionIndex.toUInt32.toUInt16

/-- The next identifier. -/
def next (c : Cursor) : Identifier :=
  .ofHalves c.high c.low

/-- The next `count` identifiers in order and the cursor after them, if the
partition has that many left. -/
def advance? (c : Cursor) (count : Nat) : Option (List Identifier × Cursor) :=
  let first := c.next.counter
  let stop := first + count
  if stop < counterLimit then
    some ((List.range count).map fun i => .ofParts c.partition (first + i),
      pointingTo (.ofParts c.partition stop))
  else none

end Cursor
end AccessRegistry
