/-
# Partitions and counters

An identifier is told by its partition and its counter, and a cursor that was put to an
identifier points to it, in the partition that the identifier has.

Key theorems: `Identifier.ofParts_partition_counter`, `Cursor.next_pointingTo`,
`Cursor.partition_pointingTo`.
-/
import AccessRegistry.Cursor

namespace AccessRegistry

namespace Identifier

@[simp] theorem partition_ofParts (p : Partition) (c : Nat) : (ofParts p c).partition = p := by
  have hdiv : (counterLimit * p.toNat + c % counterLimit) / counterLimit = p.toNat := by
    unfold counterLimit
    omega
  show UInt16.ofNat ((counterLimit * p.toNat + c % counterLimit) / counterLimit) = p
  rw [hdiv, UInt16.ofNat_toNat]

@[simp] theorem counter_ofParts (p : Partition) (c : Nat) :
    (ofParts p c).counter = c % counterLimit := by
  show (counterLimit * p.toNat + c % counterLimit) % counterLimit = c % counterLimit
  unfold counterLimit
  omega

theorem toNat_partition (id : Identifier) : id.partition.toNat = id.value / counterLimit := by
  have hlt : id.value / counterLimit < 65536 := by
    have := id.value_lt
    unfold identifierLimit at this
    unfold counterLimit
    omega
  exact UInt16.toNat_ofNat_of_lt' hlt

/-- An identifier is told by its partition and its counter. -/
theorem ofParts_partition_counter (id : Identifier) : ofParts id.partition id.counter = id := by
  apply Identifier.ext
  show counterLimit * id.partition.toNat + id.value % counterLimit % counterLimit = id.value
  rw [toNat_partition, Nat.mod_mod]
  exact Nat.div_add_mod id.value counterLimit

theorem ofHalves_halves (id : Identifier) : ofHalves id.halves.1 id.halves.2 = id := by
  apply Identifier.ext
  have hlt := id.value_lt
  show UInt64.size * (UInt64.ofNat (id.value / UInt64.size)).toInt64.toUInt64.toNat +
    (UInt64.ofNat id.value).toInt64.toUInt64.toNat = id.value
  rw [UInt64.toUInt64_toInt64, UInt64.toUInt64_toInt64, UInt64.toNat_ofNat', UInt64.toNat_ofNat']
  unfold identifierLimit at hlt
  unfold UInt64.size
  omega

end Identifier

namespace Cursor

@[simp] theorem next_pointingTo (id : Identifier) : (pointingTo id).next = id :=
  Identifier.ofHalves_halves id

@[simp] theorem partition_pointingTo (id : Identifier) :
    (pointingTo id).partition = id.partition := by
  have hword : (Int32.ofNat id.partition.toNat).toUInt32 = UInt32.ofNat id.partition.toNat := rfl
  have hlt := id.partition.toNat_lt
  show (Int32.ofNat id.partition.toNat).toUInt32.toUInt16 = id.partition
  rw [hword]
  apply UInt16.toNat_inj.mp
  rw [UInt32.toNat_toUInt16, UInt32.toNat_ofNat']
  omega

@[simp] theorem partition_start (p : Partition) : (start p).partition = p := by
  simp [start]

/-- The identifiers that are taken come next in the partition, and the cursor after them
points behind them. -/
theorem advance?_eq_some {c c' : Cursor} {count : Nat} {ids : List Identifier}
    (h : c.advance? count = some (ids, c')) :
    c.next.counter + count < counterLimit ∧
      ids = (List.range count).map (fun i => .ofParts c.partition (c.next.counter + i)) ∧
      c'.partition = c.partition ∧ c'.next.counter = c.next.counter + count := by
  unfold advance? at h
  dsimp only at h
  split at h
  · rename_i hlt
    simp only [Option.some.injEq, Prod.mk.injEq] at h
    obtain ⟨rfl, rfl⟩ := h
    refine ⟨hlt, rfl, by simp, ?_⟩
    rw [next_pointingTo, Identifier.counter_ofParts]
    exact Nat.mod_eq_of_lt hlt
  · cases h

/-- A partition that gives nothing has too few left. -/
theorem advance?_eq_none {c : Cursor} {count : Nat} (h : c.advance? count = none) :
    counterLimit ≤ c.next.counter + count := by
  unfold advance? at h
  dsimp only at h
  split at h
  · cases h
  · rename_i hlt
    exact Nat.le_of_not_lt hlt

end Cursor
end AccessRegistry
