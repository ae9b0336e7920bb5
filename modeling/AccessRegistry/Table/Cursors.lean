/-
# The cursors of all partitions

A partition has a cursor from the first time it is asked for. Scrolling takes the
same number of identifiers from each partition of a list, one after the other; a
partition that has too few left is reported and keeps its cursor.

Key definitions: `Cursors`, `Cursors.ensure`, `Cursors.scroll`.
-/
import AccessRegistry.Cursor

namespace AccessRegistry

/-- What a scroll gave. -/
structure Scroll where
  /-- The identifiers in the order of the partitions, ascending within each. -/
  ids : List Identifier := []
  /-- The partitions that had too few left. -/
  exhausted : List Partition := []
  deriving DecidableEq

/-- The cursor of each partition that has one. -/
abbrev Cursors := Std.ExtTreeMap Partition Cursor

namespace Cursors

/-- The cursor from which a partition is minted next. -/
def current (t : Cursors) (p : Partition) : Cursor := t.getD p (.start p)

/-- Gives a partition its first cursor if it has none. -/
def ensureOne (t : Cursors) (p : Partition) : Cursors := t.insertIfNew p (.start p)

/-- Gives each of the first `count` partitions its first cursor if it has none. -/
def ensure (t : Cursors) (count : Nat) : Cursors :=
  ((List.range (min count partitionCount)).map UInt16.ofNat).foldl ensureOne t

/-- Puts a cursor in the place of its partition's cursor. -/
def save (t : Cursors) (c : Cursor) : Cursors := t.insert c.partition c

/-- Takes `count` identifiers from each partition of a list. -/
def scroll (count : Nat) : List Partition → Cursors → Scroll × Cursors
  | [], t => ({}, t)
  | p :: ps, t =>
    match (t.current p).advance? count with
    | some (ids, c) =>
      let (rest, t) := scroll count ps (t.insert p c)
      ({ rest with ids := ids ++ rest.ids }, t)
    | none =>
      let (rest, t) := scroll count ps (t.insert p (t.current p))
      ({ rest with exhausted := p :: rest.exhausted }, t)

end Cursors
end AccessRegistry
