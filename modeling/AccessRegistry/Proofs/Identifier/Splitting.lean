/-
# Splitting an identifier

The 128 bits of an identifier are the 16 of its partition in front of the 112 of its counter, and
also the 64 of its high half in front of the 64 of its low half. Neither split loses anything: a
half has the same bits whether its sign is set or not, and what a counter has above its 112 bits
does not reach the partition.

The order of the identifiers is that of their numbers. To compare two numbers is to compare their
quotients and then their remainders (`compare_div_mod`), so that identifiers are ordered by their
partitions and then by their counters, and also by their sixteen bytes from the front one on.

Key definitions: `Identifier.bits`, `Identifier.bytes`.
Key theorems: `Identifier.bits_ofParts`, `Identifier.bits_ofHalves`, `Identifier.compare_parts`,
`Identifier.compare_bytes`, `Identifier.splitting_is_exact`.
-/
import AccessRegistry.Proofs.Identifier

namespace AccessRegistry

/-- A number is compared by its quotient and then by its remainder. -/
theorem compare_div_mod (k m n : Nat) :
    compare m n = (compare (m / k) (n / k)).then (compare (m % k) (n % k)) := by
  have hm := Nat.div_add_mod m k
  have hn := Nat.div_add_mod n k
  rcases Nat.lt_trichotomy (m / k) (n / k) with h | h | h
  · have hlt : m < n := Nat.lt_of_div_lt_div h
    rw [Nat.compare_eq_lt.mpr h, Nat.compare_eq_lt.mpr hlt]
    rfl
  · have hrest : compare m n = compare (m % k) (n % k) := by
      rw [h] at hm
      rcases Nat.lt_trichotomy (m % k) (n % k) with hr | hr | hr
      · rw [Nat.compare_eq_lt.mpr hr, Nat.compare_eq_lt.mpr (by omega)]
      · rw [Nat.compare_eq_eq.mpr hr, Nat.compare_eq_eq.mpr (by omega)]
      · rw [Nat.compare_eq_gt.mpr hr, Nat.compare_eq_gt.mpr (by omega)]
    rw [Nat.compare_eq_eq.mpr h, hrest]
    rfl
  · have hgt : n < m := Nat.lt_of_div_lt_div h
    rw [Nat.compare_eq_gt.mpr h, Nat.compare_eq_gt.mpr hgt]
    rfl

/-- Two rows of the same length are compared before what follows them. -/
theorem compare_append_singleton {α : Type} [Ord α] (x y : α) :
    ∀ {xs ys : List α}, xs.length = ys.length →
      compare (xs ++ [x]) (ys ++ [y]) = (compare xs ys).then (compare x y)
  | [], [], _ => by
    simp [List.compare_cons_cons, List.compare_nil_nil]
  | [], _ :: _, h => by simp at h
  | _ :: _, [], h => by simp at h
  | a :: xs, b :: ys, h => by
    have h := compare_append_singleton x y (Nat.succ_inj.mp h)
    simp only [List.cons_append, List.compare_cons_cons, h, Ordering.then_assoc]

/-- The last `k` bytes of a number, the front one first. -/
def lastBytes : Nat → Nat → List UInt8
  | 0, _ => []
  | k + 1, n => lastBytes k (n / 256) ++ [UInt8.ofNat n]

theorem length_lastBytes (k n : Nat) : (lastBytes k n).length = k := by
  induction k generalizing n with
  | zero => rfl
  | succ k ih => simp [lastBytes, ih]

theorem compare_byte (m n : Nat) :
    compare (UInt8.ofNat m) (UInt8.ofNat n) = compare (m % 256) (n % 256) := by
  simp [compare, compareOfLessAndEq, UInt8.lt_iff_toNat_lt, ← UInt8.toNat_inj]

/-- Numbers are ordered as their bytes are, if these are all that there is of the numbers. -/
theorem compare_lastBytes (k : Nat) {m n : Nat} (hm : m < Nat.pow 256 k) (hn : n < Nat.pow 256 k) :
    compare (lastBytes k m) (lastBytes k n) = compare m n := by
  induction k generalizing m n with
  | zero =>
    have hzero : m = 0 ∧ n = 0 := ⟨Nat.lt_one_iff.mp hm, Nat.lt_one_iff.mp hn⟩
    rw [hzero.1, hzero.2]
    rfl
  | succ k ih =>
    have hfront : compare (lastBytes k (m / 256)) (lastBytes k (n / 256)) =
        compare (m / 256) (n / 256) :=
      ih (Nat.div_lt_of_lt_mul (Nat.mul_comm _ _ ▸ hm))
        (Nat.div_lt_of_lt_mul (Nat.mul_comm _ _ ▸ hn))
    have hlength : (lastBytes k (m / 256)).length = (lastBytes k (n / 256)).length := by
      rw [length_lastBytes, length_lastBytes]
    rw [lastBytes, lastBytes, compare_append_singleton _ _ hlength, hfront, compare_byte,
      ← compare_div_mod]

namespace Identifier

/-- The bits of an identifier. -/
def bits (id : Identifier) : BitVec 128 := ⟨id.value, id.value_lt⟩

@[simp] theorem toNat_bits (id : Identifier) : id.bits.toNat = id.value := rfl

/-- An identifier of a partition and a counter has the bits of the one in front of the last 112
bits of the other. -/
theorem bits_ofParts (p : Partition) (c : Nat) :
    (ofParts p c).bits = p.toBitVec ++ BitVec.ofNat 112 c := by
  apply BitVec.eq_of_toNat_eq
  have hlow : c % counterLimit < 2 ^ 112 := Nat.mod_lt _ (by decide)
  show counterLimit * p.toNat + c % counterLimit = _
  rw [BitVec.toNat_append, Nat.shiftLeft_eq, Nat.mul_comm _ (2 ^ 112), BitVec.toNat_ofNat]
  exact Nat.two_pow_add_eq_or_of_lt hlow _

theorem bits_ofHalves (high low : Int64) :
    (ofHalves high low).bits = high.toBitVec ++ low.toBitVec := by
  apply BitVec.eq_of_toNat_eq
  have hlow : low.toUInt64.toNat < 2 ^ 64 := low.toUInt64.toNat_lt
  show UInt64.size * high.toUInt64.toNat + low.toUInt64.toNat = _
  rw [BitVec.toNat_append, Nat.shiftLeft_eq, Nat.mul_comm _ (2 ^ 64)]
  exact Nat.two_pow_add_eq_or_of_lt hlow _

theorem halves_ofHalves (high low : Int64) : (ofHalves high low).halves = (high, low) := by
  have hhigh := high.toUInt64.toNat_lt
  have hlow := low.toUInt64.toNat_lt
  have hfront : (UInt64.size * high.toUInt64.toNat + low.toUInt64.toNat) / UInt64.size =
      high.toUInt64.toNat := by
    unfold UInt64.size
    omega
  have hback : UInt64.ofNat (UInt64.size * high.toUInt64.toNat + low.toUInt64.toNat) =
      low.toUInt64 := by
    apply UInt64.toNat_inj.mp
    rw [UInt64.toNat_ofNat']
    unfold UInt64.size
    omega
  show ((UInt64.ofNat ((UInt64.size * high.toUInt64.toNat + low.toUInt64.toNat) /
    UInt64.size)).toInt64, (UInt64.ofNat (UInt64.size * high.toUInt64.toNat +
      low.toUInt64.toNat)).toInt64) = (high, low)
  rw [hfront, hback, UInt64.ofNat_toNat]
  rfl

theorem isReserved_iff (id : Identifier) : id.IsReserved ↔ id.value < reservedCount := by
  have hp : id.partition = 0 ↔ id.value / counterLimit = 0 := by
    rw [← UInt16.toNat_inj, toNat_partition]
    rfl
  show id.partition = 0 ∧ id.value % counterLimit < reservedCount ↔ _
  rw [hp]
  unfold counterLimit reservedCount
  omega

/-! ### The order -/

/-- The sixteen bytes of an identifier, the front one first. -/
def bytes (id : Identifier) : List UInt8 := lastBytes 16 id.value

/-- Identifiers are ordered by their partitions and then by their counters. -/
theorem compare_parts (a b : Identifier) :
    compare a b = (compare a.partition.toNat b.partition.toNat).then
      (compare a.counter b.counter) := by
  rw [toNat_partition, toNat_partition]
  exact compare_div_mod counterLimit a.value b.value

/-- Identifiers are ordered by their bytes. -/
theorem compare_bytes (a b : Identifier) : compare a b = compare a.bytes b.bytes :=
  (compare_lastBytes 16 a.value_lt b.value_lt).symm

theorem lt_iff_parts (a b : Identifier) :
    compare a b = .lt ↔
      a.partition < b.partition ∨ a.partition = b.partition ∧ a.counter < b.counter := by
  rw [compare_parts, Ordering.then_eq_lt, Nat.compare_eq_lt, Nat.compare_eq_eq, Nat.compare_eq_lt,
    UInt16.lt_iff_toNat_lt, UInt16.toNat_inj]

/-- **Splitting an identifier is exact and keeps the order.** A partition and a counter make an
identifier whose bits are theirs, side by side, and these are its partition and its counter; of
the counter just the last 112 bits count. Two halves do so as well, whatever their signs are.
Whoever splits an identifier and joins the parts has it again.

One identifier is before another if its partition is, or if it has the same partition and its
counter is before that of the other; this is the order of the bytes, from the front one on. The
reserved ones are the numbers below 1024. -/
theorem splitting_is_exact :
    (∀ id : Identifier, ofParts id.partition id.counter = id ∧
      ofHalves id.halves.1 id.halves.2 = id ∧ (id.IsReserved ↔ id.bits.toNat < 1024)) ∧
    (∀ p c, (ofParts p c).bits = p.toBitVec ++ BitVec.ofNat 112 c ∧
      (ofParts p c).partition = p ∧ (ofParts p c).counter = c % counterLimit) ∧
    (∀ high low, (ofHalves high low).bits = high.toBitVec ++ low.toBitVec ∧
      (ofHalves high low).halves = (high, low)) ∧
    ∀ a b : Identifier,
      (compare a b = .lt ↔
        a.partition < b.partition ∨ a.partition = b.partition ∧ a.counter < b.counter) ∧
      compare a b = compare a.bytes b.bytes := by
  refine ⟨fun id => ⟨?_, ?_, ?_⟩, fun p c => ⟨?_, ?_, ?_⟩, fun high low => ⟨?_, ?_⟩,
    fun a b => ⟨?_, ?_⟩⟩
  · exact ofParts_partition_counter id
  · exact ofHalves_halves id
  · rw [toNat_bits]
    exact isReserved_iff id
  · exact bits_ofParts p c
  · exact partition_ofParts p c
  · exact counter_ofParts p c
  · exact bits_ofHalves high low
  · exact halves_ofHalves high low
  · exact lt_iff_parts a b
  · exact compare_bytes a b

/-- The last identifier of all: both of its halves are -1. -/
example :
    let id := ofHalves (-1) (-1)
    id.partition = 65535 ∧ id.counter = counterLimit - 1 ∧ id.halves = (-1, -1) := by decide

end Identifier
end AccessRegistry
