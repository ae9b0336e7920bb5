/-
# Orders taken from keys

The domain's types are ordered by a key each, or by two keys one after the
other. Such an order tells values apart when the keys do.

Key theorems: `lawfulEqCmp_compareOn`, `lawfulEqCmp_compareLex`.
-/
import Std.Data.ExtTreeMap
import Std.Data.ExtTreeSet

namespace AccessRegistry

variable {α β γ : Type}

theorem lawfulEqCmp_compareOn [Ord β] [Std.LawfulEqOrd β] {key : α → β}
    (inj : ∀ a b, key a = key b → a = b) : Std.LawfulEqCmp (compareOn key) where
  compare_self := Std.ReflCmp.compare_self (α := β)
  eq_of_compare h := inj _ _ (Std.LawfulEqOrd.eq_of_compare h)

/-- Comparing two keys that are injective together tells values apart. -/
theorem lawfulEqCmp_compareLex [Ord β] [Std.LawfulEqOrd β] [Ord γ] [Std.LawfulEqOrd γ]
    {fst : α → β} {snd : α → γ} (inj : ∀ a b, fst a = fst b → snd a = snd b → a = b) :
    Std.LawfulEqCmp (compareLex (compareOn fst) (compareOn snd)) where
  compare_self := by
    intro a
    simp [compareLex, compareOn, Std.ReflCmp.compare_self]
  eq_of_compare := by
    intro a b h
    simp only [compareLex, Ordering.then_eq_eq] at h
    exact inj a b (Std.LawfulEqOrd.eq_of_compare h.1) (Std.LawfulEqOrd.eq_of_compare h.2)

end AccessRegistry
