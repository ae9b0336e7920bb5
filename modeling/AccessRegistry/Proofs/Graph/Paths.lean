/-
# Paths of memberships

A membership leads from a key to a key above it. The searches in the graph go along such
steps with sets of keys that grow, and what bounds them is how many keys there are that
are above anything: whatever a search newly finds is taken from those
(`size_without_union`).

Key definitions: `Graph.Leads`, `Graph.Above`.
Key theorems: `Graph.mem_above_of_closed`, `Graph.size_allParents_le`,
`Graph.size_without_union`, `Graph.getElem?_parents`.
-/
import Mathlib.Logic.Relation
import AccessRegistry.Graph
import AccessRegistry.Proofs.Actions
import AccessRegistry.Proofs.Collections

namespace AccessRegistry.Graph

open Std (ExtTreeMap ExtTreeSet)

variable {m : Memberships} {a b : AclKey}

/-- The first key is a member of the second. -/
def Leads (m : Memberships) (a b : AclKey) : Prop := b ∈ Index.row m a

instance : Decidable (Leads m a b) := inferInstanceAs (Decidable (b ∈ Index.row m a))

/-- One or more memberships lead from the first key up to the second. -/
def Above (m : Memberships) : AclKey → AclKey → Prop := Relation.TransGen (Leads m)

theorem leads_iff_getElem? : Leads m a b ↔ ∃ bs : Keys, m[a]? = some bs ∧ b ∈ bs := by
  unfold Leads Index.row
  rw [ExtTreeMap.getD_eq_getD_getElem?]
  cases m[a]? with
  | none => simp
  | some bs => simp

/-- A set that has every key directly above a key, and with each of its keys those
directly above it, has all that is above the key. -/
theorem mem_above_of_closed {keys : Keys} (hroot : ∀ b, Leads m a b → b ∈ keys)
    (hkeys : ∀ b ∈ keys, ∀ c, Leads m b c → c ∈ keys) (h : Above m a b) : b ∈ keys := by
  induction h with
  | single hb => exact hroot _ hb
  | tail _ hc ih => exact hkeys _ ih _ hc

/-! ### Sets of keys -/

theorem mem_allParents : b ∈ allParents m ↔ ∃ a, Leads m a b := by
  unfold allParents
  rw [ExtTreeMap.foldl_eq_foldl_toList, mem_foldl_union (Prod.snd : AclKey × Keys → Keys)]
  constructor
  · rintro (h | ⟨⟨a, bs⟩, hrow, hb⟩)
    · exact absurd h ExtTreeSet.not_mem_empty
    · exact ⟨a, leads_iff_getElem?.mpr ⟨bs, ExtTreeMap.mem_toList_iff_getElem?_eq_some.mp hrow, hb⟩⟩
  · rintro ⟨a, h⟩
    obtain ⟨bs, hrow, hb⟩ := leads_iff_getElem?.mp h
    exact Or.inr ⟨(a, bs), ExtTreeMap.mem_toList_iff_getElem?_eq_some.mpr hrow, hb⟩

/-- The union of some rows has no more keys than the rows together. -/
theorem size_foldl_union_le : ∀ (rows : List (AclKey × Keys)) (t : Keys) (n : Nat), t.size ≤ n →
    (rows.foldl (fun found row => found ∪ row.2) t).size ≤
      rows.foldl (fun n row => n + row.2.size) n
  | [], _, _, h => h
  | row :: rows, t, n, h => by
    refine size_foldl_union_le rows _ _ ?_
    calc (t ∪ row.2).size ≤ t.size + row.2.size := ExtTreeSet.size_union_le_size_add_size
      _ ≤ n + row.2.size := Nat.add_le_add_right h _

theorem size_allParents_le (m : Memberships) : (allParents m).size ≤ edgeCount m := by
  unfold allParents edgeCount
  rw [ExtTreeMap.foldl_eq_foldl_toList, ExtTreeMap.foldl_eq_foldl_toList]
  exact size_foldl_union_le _ ∅ 0 (Nat.le_of_eq ExtTreeSet.size_empty)

theorem mem_without {keys seen : Keys} : b ∈ without keys seen ↔ b ∈ keys ∧ b ∉ seen := by
  unfold without
  rw [← ExtTreeSet.mem_toList, ExtTreeSet.toList_filter, List.mem_filter, ExtTreeSet.mem_toList,
    Bool.not_eq_true', ← Bool.not_eq_true, ExtTreeSet.contains_iff_mem]

/-- There are never more keys left to find than there are memberships. -/
theorem size_without_allParents_le (m : Memberships) (seen : Keys) :
    (without (allParents m) seen).size ≤ edgeCount m :=
  calc (without (allParents m) seen).size
      ≤ (allParents m).size := size_le_size_of_subset fun _ hb => (mem_without.mp hb).1
    _ ≤ edgeCount m := size_allParents_le m

/-- What is newly found among some keys is no longer to be found. -/
theorem size_without_union {keys seen new : Keys} (hkeys : ∀ b ∈ new, b ∈ keys)
    (hseen : ∀ b ∈ new, b ∉ seen) :
    (without keys (seen ∪ new)).size + new.size = (without keys seen).size := by
  have hunion : without keys (seen ∪ new) ∪ new = without keys seen := by
    apply ExtTreeSet.ext_mem
    intro b
    simp only [ExtTreeSet.mem_union_iff, mem_without, not_or]
    constructor
    · rintro (⟨hb, hs, -⟩ | hb)
      · exact ⟨hb, hs⟩
      · exact ⟨hkeys b hb, hseen b hb⟩
    · rintro ⟨hb, hs⟩
      by_cases hn : b ∈ new
      · exact Or.inr hn
      · exact Or.inl ⟨hb, hs, hn⟩
  rw [← hunion, ExtTreeSet.size_union_of_not_mem]
  intro b hb hn
  rw [mem_without, ExtTreeSet.mem_union_iff] at hb
  exact hb.2 (Or.inr hn)

/-- A search that newly finds some keys has fewer left to find. -/
theorem size_without_union_lt {keys seen new : Keys} (hkeys : ∀ b ∈ new, b ∈ keys)
    (hseen : ∀ b ∈ new, b ∉ seen) (hnew : ¬ new.isEmpty) :
    (without keys (seen ∪ new)).size < (without keys seen).size := by
  have hsize := size_without_union hkeys hseen
  have hpos : new.size ≠ 0 := fun h0 =>
    hnew (ExtTreeSet.isEmpty_iff.mpr (ExtTreeSet.eq_empty_iff_size_eq_zero.mpr h0))
  omega

/-- The memberships of a key, if it has any. -/
def row? (m : Memberships) (key : AclKey) : Option Keys :=
  if (Index.row m key).isEmpty then none else some (Index.row m key)

theorem leads_iff_row? : Leads m a b ↔ ∃ bs : Keys, row? m a = some bs ∧ b ∈ bs := by
  unfold Leads row?
  by_cases he : (Index.row m a).isEmpty
  · have hrow : Index.row m a = ∅ := ExtTreeSet.isEmpty_iff.mp he
    simp [hrow]
  · simp only [if_neg he, Option.some.injEq, exists_eq_left']

/-- The parents that are given for some keys are the memberships of these keys. -/
theorem getElem?_parents (m : Memberships) (keys : List AclKey) (key : AclKey) :
    (Memberships.parents m keys)[key]? = if key ∈ keys then row? m key else none := by
  have hfold : Memberships.parents m keys =
      keys.foldl (fun found key => (row? m key).elim found (found.insert key)) ∅ := by
    unfold Memberships.parents
    congr 1
    funext found key
    show (if (Index.row m key).isEmpty then found else _) = _
    unfold row?
    split <;> rfl
  rw [hfold, getElem?_foldl_elim]
  simp

theorem leads_parents {keys : List AclKey} :
    Leads (Memberships.parents m keys) a b ↔ a ∈ keys ∧ Leads m a b := by
  rw [leads_iff_getElem?, getElem?_parents, leads_iff_row?]
  by_cases ha : a ∈ keys
  · simp [ha]
  · simp [ha]

theorem mem_allParents_parents {keys : List AclKey} :
    b ∈ allParents (Memberships.parents m keys) ↔ ∃ a ∈ keys, Leads m a b := by
  rw [mem_allParents]
  constructor
  · rintro ⟨a, h⟩
    exact ⟨a, leads_parents.mp h⟩
  · rintro ⟨a, h⟩
    exact ⟨a, leads_parents.mpr h⟩

end AccessRegistry.Graph
