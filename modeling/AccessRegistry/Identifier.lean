/-
# Identifiers

An identifier is a 128-bit number: a 16-bit partition in front of a 112-bit
counter. The first 1024 counters of partition zero are kept for the system's
own objects. A store keeps an identifier as two signed 64-bit halves.

Key definitions: `Identifier`, `Identifier.ofParts`, `Identifier.partition`,
`Identifier.counter`, `Identifier.IsReserved`, `Identifier.ofHalves`,
`Identifier.halves`.
-/
import AccessRegistry.Order

namespace AccessRegistry

/-- A partition of the identifier space. -/
abbrev Partition := UInt16

/-- How many partitions there are. -/
def partitionCount : Nat := 65536

/-- How many counters a partition has: as many as fit into 112 bits. -/
def counterLimit : Nat := 0x1_0000_0000_0000_0000_0000_0000_0000

/-- How many identifiers there are: as many as fit into 128 bits. -/
def identifierLimit : Nat := 0x1_0000_0000_0000_0000_0000_0000_0000_0000

/-- How many counters at the start of partition zero are kept for the system. -/
def reservedCount : Nat := 1024

/-- A 128-bit identifier. -/
@[ext] structure Identifier where
  value : Nat
  value_lt : value < identifierLimit
  deriving DecidableEq

namespace Identifier

/-- Identifiers are ordered as numbers. -/
instance : Ord Identifier where
  compare := compareOn Identifier.value

instance : Std.TransOrd Identifier :=
  inferInstanceAs (Std.TransCmp (compareOn Identifier.value))

instance : Std.LawfulEqOrd Identifier :=
  lawfulEqCmp_compareOn fun _ _ => Identifier.ext

instance : Inhabited Identifier := ⟨⟨0, by decide⟩⟩

/-- The identifier of a partition and a counter, of which the low 112 bits count. -/
def ofParts (p : Partition) (c : Nat) : Identifier where
  value := counterLimit * p.toNat + c % counterLimit
  value_lt := by
    have := p.toNat_lt
    unfold counterLimit identifierLimit
    omega

/-- A fixed identifier of the system, in partition zero. -/
def system (c : UInt16) : Identifier :=
  ofParts 0 c.toNat

/-- The partition: the top 16 bits. -/
def partition (id : Identifier) : Partition :=
  UInt16.ofNat (id.value / counterLimit)

/-- The counter: the low 112 bits. -/
def counter (id : Identifier) : Nat :=
  id.value % counterLimit

/-- Reserved identifiers are never handed out. -/
def IsReserved (id : Identifier) : Prop :=
  id.partition = 0 ∧ id.counter < reservedCount

instance : DecidablePred IsReserved := fun id =>
  inferInstanceAs (Decidable (id.partition = 0 ∧ id.counter < reservedCount))

/-- The identifier whose high and low 64 bits are the two words. -/
def ofHalves (high low : Int64) : Identifier where
  value := UInt64.size * high.toUInt64.toNat + low.toUInt64.toNat
  value_lt := by
    have := high.toUInt64.toNat_lt
    have := low.toUInt64.toNat_lt
    unfold UInt64.size identifierLimit
    omega

/-- The high and the low 64 bits, each as a signed word. -/
def halves (id : Identifier) : Int64 × Int64 :=
  ((UInt64.ofNat (id.value / UInt64.size)).toInt64, (UInt64.ofNat id.value).toInt64)

/-- A random identifier made from 122 random bits: the four bits of the version
are 4 and the two bits of the variant are 2. -/
def ofRandomBits (bits : Nat) : Identifier where
  value :=
    let low := bits % 0x4000_0000_0000_0000
    let middle := bits / 0x4000_0000_0000_0000 % 0x1000
    let high := bits / 0x4000_0000_0000_0000 / 0x1000 % 0x1_0000_0000_0000
    UInt64.size * ((high * 16 + 4) * 0x1000 + middle) + (0x8000_0000_0000_0000 + low)
  value_lt := by
    unfold UInt64.size identifierLimit
    dsimp only
    omega

end Identifier
end AccessRegistry
