/-
# Indexes

An index files values under keys. Under each key lies a set; a key under which
nothing lies has no row.

Key definitions: `Index`, `Index.row`, `Index.add`, `Index.drop`, `Index.Tidy`.
Key theorems: `Index.contains_row_add`, `Index.contains_row_drop`, `Index.tidy_add`,
`Index.tidy_drop`.
-/
import AccessRegistry.Order

namespace AccessRegistry

variable {α β : Type} [Ord α] [Std.TransOrd α] [Ord β] [Std.TransOrd β]

/-- For each key the set of the values filed under it. -/
abbrev Index (α β : Type) [Ord α] [Ord β] := Std.ExtTreeMap α (Std.ExtTreeSet β)

namespace Index

/-- The values under a key. -/
def row (i : Index α β) (a : α) : Std.ExtTreeSet β := i.getD a ∅

/-- The index with the row of a key replaced; an empty row goes. -/
def setRow (i : Index α β) (a : α) (bs : Std.ExtTreeSet β) : Index α β :=
  if bs.isEmpty then i.erase a else i.insert a bs

/-- Files a value under a key. -/
def add (i : Index α β) (a : α) (b : β) : Index α β := i.insert a ((row i a).insert b)

/-- Takes a value away from under a key. -/
def drop (i : Index α β) (a : α) (b : β) : Index α β := setRow i a ((row i a).erase b)

omit [Std.TransOrd β] in
@[simp] theorem row_empty (a : α) : row (∅ : Index α β) a = ∅ := by
  simp [row]

/-- No key has an empty row. -/
def Tidy (i : Index α β) : Prop := ∀ (a : α) (bs : Std.ExtTreeSet β), i[a]? = some bs → bs ≠ ∅

omit [Std.TransOrd β] in
theorem tidy_empty : Tidy (∅ : Index α β) := by
  intro a bs h
  simp at h

theorem tidy_setRow {i : Index α β} (h : Tidy i) (a : α) (bs : Std.ExtTreeSet β) :
    Tidy (setRow i a bs) := by
  intro x row hx
  unfold setRow at hx
  split at hx
  · rw [Std.ExtTreeMap.getElem?_erase] at hx
    split at hx
    · cases hx
    · exact h x row hx
  · rename_i hbs
    rw [Std.ExtTreeMap.getElem?_insert] at hx
    split at hx
    · cases hx
      exact fun he => hbs (Std.ExtTreeSet.isEmpty_iff.mpr he)
    · exact h x row hx

theorem tidy_add {i : Index α β} (h : Tidy i) (a : α) (b : β) : Tidy (add i a b) := by
  intro x row hx
  unfold add at hx
  rw [Std.ExtTreeMap.getElem?_insert] at hx
  split at hx
  · cases hx
    exact Std.ExtTreeSet.insert_ne_empty
  · exact h x row hx

theorem tidy_drop {i : Index α β} (h : Tidy i) (a : α) (b : β) : Tidy (drop i a b) :=
  tidy_setRow h a _

/-! ## Rows -/

variable [Std.LawfulEqOrd α]

theorem row_setRow [DecidableEq α] (i : Index α β) (a x : α) (bs : Std.ExtTreeSet β) :
    row (setRow i a bs) x = if a = x then bs else row i x := by
  unfold setRow row
  split
  · rename_i h
    rw [Std.ExtTreeMap.getD_erase]
    by_cases hx : a = x
    · subst hx
      simp only [Std.ReflCmp.compare_self, if_true]
      rw [Std.ExtTreeSet.isEmpty_iff] at h
      exact h.symm
    · have : compare a x ≠ .eq := fun h => hx (Std.LawfulEqOrd.eq_of_compare h)
      simp [hx, this]
  · rw [Std.ExtTreeMap.getD_insert]
    by_cases hx : a = x
    · subst hx; simp
    · have : compare a x ≠ .eq := fun h => hx (Std.LawfulEqOrd.eq_of_compare h)
      simp [hx, this]

variable [Std.LawfulEqOrd β]

theorem contains_row_add (i : Index α β) (a x : α) (b y : β) :
    y ∈ row (add i a b) x ↔ (a = x ∧ b = y) ∨ y ∈ row i x := by
  unfold add row
  rw [Std.ExtTreeMap.getD_insert]
  by_cases hx : a = x
  · subst hx
    simp [Std.ExtTreeSet.mem_insert]
  · have : compare a x ≠ .eq := fun h => hx (Std.LawfulEqOrd.eq_of_compare h)
    simp [hx, this]

theorem contains_row_drop (i : Index α β) (a x : α) (b y : β) :
    y ∈ row (drop i a b) x ↔ ¬ (a = x ∧ b = y) ∧ y ∈ row i x := by
  classical
  rw [drop, row_setRow]
  by_cases hx : a = x
  · subst hx
    simp [Std.ExtTreeSet.mem_erase]
  · simp [hx]

end Index
end AccessRegistry
