/-
# Decimal numerals are read exactly

A numeral is read from left to right, and given up as soon as its value is too large. Since more
digits never make a number smaller, this refuses just the numerals whose value is too large in the
end. Zeros in front do not matter, and one plus sign may stand before all of them.

Key definitions: `Numeral.Writes`.
Key theorems: `Numeral.readDigits_eq_ok_iff`, `Numeral.read_eq_ok_iff`.
-/
import AccessRegistry.Text.Numeral
import Mathlib.Data.List.Induction
import Mathlib.Data.Nat.Digits.Defs

namespace AccessRegistry.Numeral

/-- A text writes a number if it is a row of at least one digit that stands for it, or such a row
with a plus sign in front. -/
def Writes (s : String) (n : Nat) : Prop :=
  ∃ ds : List Char, ds ≠ [] ∧ (∀ c ∈ ds, c.isDigit) ∧ (s.toList = ds ∨ s.toList = '+' :: ds) ∧
    n = valueOf ds

theorem valueOf_append_singleton (ds : List Char) (c : Char) :
    valueOf (ds ++ [c]) = valueOf ds * 10 + (c.toNat - 48) := by
  rw [valueOf, List.foldl_append]
  rfl

/-- The digits are those of the number in base ten, the last one first. -/
theorem valueOf_eq_ofDigits (ds : List Char) :
    valueOf ds = Nat.ofDigits 10 (ds.reverse.map fun c => c.toNat - 48) := by
  induction ds using List.reverseRecOn with
  | nil => rfl
  | append_singleton ds c ih =>
    rw [valueOf_append_singleton, ih, List.reverse_concat, List.map_cons, Nat.ofDigits_cons,
      Nat.mul_comm, Nat.add_comm]

theorem valueOf_append (ds ds' : List Char) :
    valueOf (ds ++ ds') = valueOf ds * 10 ^ ds'.length + valueOf ds' := by
  simp only [valueOf_eq_ofDigits, List.reverse_append, List.map_append, Nat.ofDigits_append,
    List.length_map, List.length_reverse]
  rw [Nat.mul_comm, Nat.add_comm]

theorem valueOf_le_append (ds ds' : List Char) : valueOf ds ≤ valueOf (ds ++ ds') := by
  rw [valueOf_append]
  exact Nat.le_add_right_of_le (Nat.le_mul_of_pos_right _ (Nat.pow_pos (by decide)))

theorem valueOf_zeros (count : Nat) (ds : List Char) :
    valueOf (List.replicate count '0' ++ ds) = valueOf ds := by
  simp only [valueOf_eq_ofDigits, List.reverse_append, List.map_append, List.reverse_replicate,
    List.map_replicate, Char.reduceToNat, Nat.sub_self, Nat.ofDigits_append_replicate_zero]

theorem valueOf_toDigits (n : Nat) : valueOf (Nat.toDigits 10 n) = n := by
  induction n using Nat.strongRecOn with
  | ind n ih =>
    obtain hn | hn := Nat.lt_or_ge n 10
    · rw [Nat.toDigits_of_lt_base hn, ← List.nil_append [_], valueOf_append_singleton,
        Nat.toNat_digitChar_sub_48_of_lt_ten hn]
      exact Nat.zero_add n
    · rw [Nat.toDigits_of_base_le (by decide) hn, valueOf_append_singleton, ih _ (by omega),
        Nat.toNat_digitChar_sub_48_of_lt_ten (Nat.mod_lt n (by decide))]
      omega

theorem digit?_eq (c : Char) : digit? c = if c.isDigit then some (c.toNat - 48) else none := by
  have h : c.isDigit = true ↔ '0' ≤ c ∧ c ≤ '9' := by
    simp only [Char.isDigit, ge_iff_le, Bool.and_eq_true, decide_eq_true_eq]
    exact Iff.rfl
  simp only [digit?, h]

/-- Digits that stand behind others are read just if they are digits and the number that they
make all together is not too large. -/
theorem readDigits_eq_ok_iff {limit n : Nat} (done ds : List Char) (h : valueOf done ≤ limit) :
    readDigits limit (valueOf done) ds = .ok n ↔
      (∀ c ∈ ds, c.isDigit) ∧ n = valueOf (done ++ ds) ∧ n ≤ limit := by
  induction ds generalizing done with
  | nil =>
    simp only [readDigits, Except.ok.injEq, List.append_nil, List.not_mem_nil, false_implies,
      implies_true, true_and]
    omega
  | cons c ds ih =>
    rw [readDigits, digit?_eq]
    by_cases hc : c.isDigit = true
    · rw [if_pos hc]
      dsimp only
      rw [← valueOf_append_singleton]
      by_cases hle : valueOf (done ++ [c]) ≤ limit
      · rw [if_pos hle, ih _ hle]
        simp [hc]
      · have hmore := valueOf_le_append (done ++ [c]) ds
        rw [List.append_assoc, List.singleton_append] at hmore
        rw [if_neg hle]
        simp only [reduceCtorEq, false_iff, not_and]
        omega
    · simp [hc]

/-- A row of characters without the plus sign that stands in front, if one does. -/
def unsigned : List Char → List Char
  | '+' :: cs => cs
  | cs => cs

theorem unsigned_of_ne {cs : List Char} (h : ∀ cs', cs ≠ '+' :: cs') : unsigned cs = cs := by
  unfold unsigned
  split
  · exact absurd rfl (h _)
  · rfl

theorem unsigned_of_isDigit {ds : List Char} (h : ∀ c ∈ ds, c.isDigit) : unsigned ds = ds := by
  apply unsigned_of_ne
  rintro cs rfl
  have hplus := h '+' List.mem_cons_self
  cases hplus

theorem eq_unsigned (cs : List Char) : cs = unsigned cs ∨ cs = '+' :: unsigned cs := by
  unfold unsigned
  split
  · exact .inr rfl
  · exact .inl rfl

theorem writes_iff {s : String} {n : Nat} :
    Writes s n ↔ unsigned s.toList ≠ [] ∧ (∀ c ∈ unsigned s.toList, c.isDigit) ∧
      n = valueOf (unsigned s.toList) := by
  constructor
  · rintro ⟨ds, hne, hdigits, hs, rfl⟩
    have hds : unsigned s.toList = ds := by
      obtain hs | hs := hs
      · rw [hs, unsigned_of_isDigit hdigits]
      · rw [hs, unsigned]
    rw [hds]
    exact ⟨hne, hdigits, rfl⟩
  · rintro ⟨hne, hdigits, hn⟩
    exact ⟨_, hne, hdigits, eq_unsigned _, hn⟩

theorem readChars_eq_ok_iff {limit n : Nat} (cs : List Char) :
    readChars limit cs = .ok n ↔ unsigned cs ≠ [] ∧ readDigits limit 0 (unsigned cs) = .ok n := by
  unfold readChars
  split
  · simp [unsigned]
  · rename_i cs
    cases cs <;> simp [unsigned]
  · rename_i hnil hplus
    rw [unsigned_of_ne hplus]
    exact (and_iff_right hnil).symm

/-- A text is read as a number just if it writes one that is not too large. -/
theorem read_eq_ok_iff {limit n : Nat} {s : String} :
    read limit s = .ok n ↔ Writes s n ∧ n ≤ limit := by
  have hread := readDigits_eq_ok_iff (n := n) [] (unsigned s.toList) (Nat.zero_le limit)
  rw [read, readChars_eq_ok_iff, writes_iff, show (0 : Nat) = valueOf [] from rfl, hread,
    List.nil_append, and_assoc, and_assoc]

end AccessRegistry.Numeral
