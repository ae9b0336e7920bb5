/-
# Advancing a cursor

A cursor is three words: the number of a partition, and the two halves of the next identifier. Its
counter is the low 112 bits of the two halves together, whatever the rest of the words holds. It
gives just the identifiers that it is asked for if their end lies in front of the last counter,
and stays as it is otherwise. To ask twice is to ask once for both numbers together.

The partition of a cursor is the low half of its own number and need not be the partition of its
next identifier. Once it has been advanced the two are the same (`Cursor.WellFormed`).

Key definitions: `Cursor.WellFormed`, `Cursor.draw`.
Key theorems: `Cursor.counter_next`, `Cursor.advance?_add`, `Cursor.advancing_is_exact`.
-/
import AccessRegistry.Proofs.Identifier.Splitting
import AccessRegistry.Proofs.Supply.Gapless

namespace AccessRegistry

namespace Cursor

open Cursors (stretch stretch_append)

variable (c : Cursor) {count a b : Nat}

/-- The counter of a cursor is the low 112 bits of its two halves. -/
theorem counter_next :
    c.next.counter = ((c.high.toBitVec ++ c.low.toBitVec).setWidth 112).toNat := by
  rw [BitVec.toNat_setWidth, ← Identifier.bits_ofHalves]
  rfl

/-- The number of a cursor is that of the partition of its next identifier. -/
def WellFormed : Prop := c.partitionIndex.toInt = c.next.partition.toNat

theorem toInt_pointingTo (id : Identifier) :
    (pointingTo id).partitionIndex.toInt = id.partition.toNat := by
  have hlt := id.partition.toNat_lt
  exact Int32.toInt_ofNat_of_lt (by omega)

theorem wellFormed_pointingTo (id : Identifier) : (pointingTo id).WellFormed := by
  rw [WellFormed, next_pointingTo, toInt_pointingTo]

/-- What a cursor answers when it is asked for identifiers, and the cursor afterwards. One that
has too few left stays as it is. -/
def draw (count : Nat) : Option (List Identifier) × Cursor :=
  match c.advance? count with
  | some (ids, c') => (some ids, c')
  | none => (none, c)

variable {c}

theorem advance?_of_lt (h : c.next.counter + count < counterLimit) :
    c.advance? count = some (stretch c.partition c.next.counter (c.next.counter + count),
      pointingTo (.ofParts c.partition (c.next.counter + count))) := by
  simp only [advance?, if_pos h, stretch, Nat.add_sub_cancel_left, List.range'_eq_map_range,
    List.map_map]
  rfl

theorem advance?_of_le (h : counterLimit ≤ c.next.counter + count) : c.advance? count = none := by
  simp only [advance?, if_neg (Nat.not_lt_of_le h)]

theorem draw_of_lt (h : c.next.counter + count < counterLimit) :
    c.draw count = (some (stretch c.partition c.next.counter (c.next.counter + count)),
      pointingTo (.ofParts c.partition (c.next.counter + count))) := by
  rw [draw, advance?_of_lt h]

theorem draw_of_le (h : counterLimit ≤ c.next.counter + count) : c.draw count = (none, c) := by
  rw [draw, advance?_of_le h]

theorem mem_stretch {p : Partition} {first last : Nat} {id : Identifier}
    (hlast : last < counterLimit) (h : id ∈ stretch p first last) :
    id.partition = p ∧ first ≤ id.counter ∧ id.counter < last := by
  obtain ⟨i, hi, rfl⟩ := List.mem_map.mp h
  rw [List.mem_range'_1] at hi
  rw [Identifier.partition_ofParts, Identifier.counter_ofParts, Nat.mod_eq_of_lt (by omega)]
  exact ⟨rfl, hi.1, by omega⟩

theorem pairwise_stretch {first last : Nat} (p : Partition) (hlast : last < counterLimit) :
    (stretch p first last).Pairwise fun x y => compare x y = .lt := by
  rw [stretch, List.pairwise_map]
  refine List.Pairwise.imp_of_mem ?_ List.pairwise_lt_range'
  intro i j hi hj hij
  rw [List.mem_range'_1] at hi hj
  show compare (counterLimit * p.toNat + i % counterLimit)
    (counterLimit * p.toNat + j % counterLimit) = .lt
  rw [Nat.mod_eq_of_lt (by omega), Nat.mod_eq_of_lt (by omega), Nat.compare_eq_lt]
  omega

theorem counters_stretch {first count : Nat} (p : Partition) (h : first + count < counterLimit) :
    (stretch p first (first + count)).map Identifier.counter = List.range' first count := by
  rw [stretch, Nat.add_sub_cancel_left, List.map_map]
  refine (List.map_congr_left fun i hi => ?_).trans (List.map_id _)
  rw [List.mem_range'_1] at hi
  show (Identifier.ofParts p i).counter = i
  rw [Identifier.counter_ofParts, Nat.mod_eq_of_lt (by omega)]

/-! ### Two requests -/

theorem counter_pointingTo {p : Partition} {n : Nat} (h : n < counterLimit) :
    (pointingTo (.ofParts p n)).next.counter = n := by
  rw [next_pointingTo, Identifier.counter_ofParts, Nat.mod_eq_of_lt h]

variable (c a b) in
/-- To ask for two numbers together is to ask for one after the other. -/
theorem advance?_add :
    c.advance? (a + b) = (c.advance? a).bind fun r =>
      (r.2.advance? b).map fun r' => (r.1 ++ r'.1, r'.2) := by
  have hsum : c.next.counter + (a + b) = c.next.counter + a + b := by omega
  by_cases ha : c.next.counter + a < counterLimit
  · rw [advance?_of_lt ha, Option.bind_some]
    dsimp only
    have hcounter := counter_pointingTo (p := c.partition) ha
    by_cases hb : c.next.counter + a + b < counterLimit
    · rw [advance?_of_lt (hsum ▸ hb), advance?_of_lt (hcounter.symm ▸ hb), hcounter,
        partition_pointingTo, Identifier.partition_ofParts, Option.map_some, hsum,
        stretch_append (by omega) (by omega)]
    · have hb' := Nat.le_of_not_lt hb
      rw [advance?_of_le (hsum ▸ hb'), advance?_of_le (hcounter.symm ▸ hb'), Option.map_none]
  · have ha' := Nat.le_of_not_lt ha
    rw [advance?_of_le ha', advance?_of_le (by omega), Option.bind_none]

variable (c a b) in
/-- Two requests are met just if one for both would be, and then they are met the same way. -/
theorem draw_add :
    ((c.draw (a + b)).1.isSome ↔ (c.draw a).1.isSome ∧ ((c.draw a).2.draw b).1.isSome) ∧
    ∀ ids ids', (c.draw a).1 = some ids → ((c.draw a).2.draw b).1 = some ids' →
      c.draw (a + b) = (some (ids ++ ids'), ((c.draw a).2.draw b).2) := by
  unfold draw
  rw [advance?_add]
  cases c.advance? a with
  | none => simp
  | some r => cases hb : r.2.advance? b <;> simp [hb]

/-- A counter and a count of 64 bits make a sum of 128 bits. -/
theorem counter_add_lt (h : count < UInt64.size) : c.next.counter + count < identifierLimit := by
  have hlt : c.next.counter < counterLimit := Nat.mod_lt _ (by decide)
  unfold UInt64.size at h
  unfold counterLimit at hlt
  unfold identifierLimit
  omega

variable (c) in
/-- **Advancing a cursor is exact, and it can be done in parts.** Let a cursor be any three words,
which need not fit each other, and let it start at the low 112 bits of its halves, in the partition
of the low 16 bits of its number. If the end of the identifiers that it is asked for is a counter,
it gives just those of the partition from the start up to the end, in ascending order, and becomes
the well-formed cursor at the end, so that the last counter of all is not among them. Otherwise it
gives nothing and is the same three words as before. The end is a number of 128 bits in any case.

It gives a sum just if it gives the one number and then the other; the identifiers then follow
one another, and it becomes the same cursor. -/
theorem advancing_is_exact :
    let start := ((c.high.toBitVec ++ c.low.toBitVec).setWidth 112).toNat
    let p : Partition := ⟨c.partitionIndex.toBitVec.setWidth 16⟩
    (∀ count,
      (start + count < counterLimit → ∃ ids c', c.draw count = (some ids, c') ∧
        ids.map Identifier.counter = List.range' start count ∧
        (∀ id ∈ ids, id.partition = p ∧ id.counter < counterLimit - 1) ∧
        ids.Pairwise (fun x y => compare x y = .lt) ∧
        c' = pointingTo (.ofParts p (start + count)) ∧ c'.WellFormed ∧
        c'.next.partition = p ∧ c'.next.counter = start + count) ∧
      (counterLimit ≤ start + count → c.draw count = (none, c)) ∧
      (count < UInt64.size → start + count < identifierLimit)) ∧
    ∀ a b,
      ((c.draw (a + b)).1.isSome ↔ (c.draw a).1.isSome ∧ ((c.draw a).2.draw b).1.isSome) ∧
      ∀ ids ids', (c.draw a).1 = some ids → ((c.draw a).2.draw b).1 = some ids' →
        c.draw (a + b) = (some (ids ++ ids'), ((c.draw a).2.draw b).2) := by
  intro start p
  have hstart : c.next.counter = start := counter_next c
  refine ⟨fun count => ⟨fun hlt => ?_, fun hle => ?_, fun hcount => ?_⟩, draw_add c⟩
  · refine ⟨_, _, draw_of_lt (hstart ▸ hlt), ?_, fun id hid => ?_, ?_, ?_, ?_, ?_, ?_⟩
    · rw [hstart]
      exact counters_stretch _ hlt
    · obtain ⟨hp, -, hcounter⟩ := mem_stretch (hstart ▸ hlt) hid
      exact ⟨hp, by omega⟩
    · exact pairwise_stretch _ (hstart ▸ hlt)
    · rw [hstart]
      rfl
    · exact wellFormed_pointingTo _
    · rw [next_pointingTo, Identifier.partition_ofParts]
      rfl
    · rw [counter_pointingTo (hstart ▸ hlt), hstart]
  · exact draw_of_le (hstart ▸ hle)
  · exact hstart ▸ counter_add_lt hcount

/-- Three counters are left in front of the last one: five are refused, and two are given. -/
example :
    let c := pointingTo (.ofParts 9 (counterLimit - 3))
    c.draw 5 = (none, c) ∧ (c.draw 2).2 = pointingTo (.ofParts 9 (counterLimit - 1)) := by decide

end Cursor
end AccessRegistry
