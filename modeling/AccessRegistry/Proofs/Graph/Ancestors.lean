/-
# The ancestors of a principal

A climb goes up layer by layer from one key. It has seen only what is above the key, and
whatever is directly above the key or above something it has seen, it has seen too, save
what is above the last layer (`Graph.Climbing`). When it stops it has seen everything
above the key (`Graph.reads_climb`), whatever cycles there are.

Key definitions: `Graph.Climbing`.
Key theorems: `Graph.climbing_step`, `Graph.reads_climb`, `Graph.reads_ancestors`.
-/
import Mathlib.Data.List.Nodup
import AccessRegistry.Proofs.Directory
import AccessRegistry.Proofs.Graph.Paths

namespace AccessRegistry.Graph

open Std (ExtTreeMap ExtTreeSet)

variable {m : Memberships} {root : AclKey} {seen frontier : Keys}

/-- How far a climb from a key has come: `frontier` is what it has yet to look above. -/
structure Climbing (m : Memberships) (root : AclKey) (seen frontier : Keys) : Prop where
  above : ∀ b ∈ seen, Above m root b
  ahead : ∀ a ∈ frontier, a = root ∨ a ∈ seen
  edges : ∀ a b, a = root ∨ a ∈ seen → Leads m a b → b ∈ seen ∨ a ∈ frontier

theorem climbing_start (m : Memberships) (root : AclKey) :
    Climbing m root ∅ (ExtTreeSet.ofList [root]) where
  above b hb := absurd hb ExtTreeSet.not_mem_empty
  ahead a ha := Or.inl (List.mem_singleton.mp (mem_setOfList.mp ha))
  edges a b ha _ := by
    rcases ha with rfl | ha
    · exact Or.inr (mem_setOfList.mpr (List.mem_singleton.mpr rfl))
    · exact absurd ha ExtTreeSet.not_mem_empty

/-- What the next layer newly finds. -/
def next (m : Memberships) (seen frontier : Keys) : Keys :=
  without (allParents (Memberships.parents m frontier.toList)) seen

theorem mem_next {b : AclKey} :
    b ∈ next m seen frontier ↔ (∃ a ∈ frontier, Leads m a b) ∧ b ∉ seen := by
  unfold next
  rw [mem_without, mem_allParents_parents]
  simp only [ExtTreeSet.mem_toList]

/-- One layer further the climb is still sound, and owes only what is above that layer. -/
theorem climbing_step (h : Climbing m root seen frontier) :
    Climbing m root (seen ∪ next m seen frontier) (next m seen frontier) where
  above b hb := by
    rcases ExtTreeSet.mem_union_iff.mp hb with hb | hb
    · exact h.above b hb
    · obtain ⟨⟨a, ha, hab⟩, -⟩ := mem_next.mp hb
      rcases h.ahead a ha with rfl | ha
      · exact .single hab
      · exact .tail (h.above a ha) hab
  ahead a ha := Or.inr (ExtTreeSet.mem_union_iff.mpr (Or.inr ha))
  edges a b ha hab := by
    rw [ExtTreeSet.mem_union_iff, ← or_assoc] at ha
    rw [ExtTreeSet.mem_union_iff]
    rcases ha with ha | ha
    · rcases h.edges a b ha hab with hb | hf
      · exact Or.inl (Or.inl hb)
      · by_cases hb : b ∈ seen
        · exact Or.inl (Or.inl hb)
        · exact Or.inl (Or.inr (mem_next.mpr ⟨⟨a, hf, hab⟩, hb⟩))
    · exact Or.inr ha

/-- A climb that finds nothing new has seen everything. -/
theorem mem_seen_iff (h : Climbing m root seen frontier) (hnext : (next m seen frontier).isEmpty)
    {b : AclKey} : b ∈ seen ↔ Above m root b := by
  have hclosed : ∀ a b, a = root ∨ a ∈ seen → Leads m a b → b ∈ seen := by
    intro a b ha hab
    rcases h.edges a b ha hab with hb | hf
    · exact hb
    · by_cases hb : b ∈ seen
      · exact hb
      · have hmem : b ∈ next m seen frontier := mem_next.mpr ⟨⟨a, hf, hab⟩, hb⟩
        rw [ExtTreeSet.isEmpty_iff.mp hnext] at hmem
        exact absurd hmem ExtTreeSet.not_mem_empty
  constructor
  · exact h.above b
  · exact mem_above_of_closed (fun b => hclosed root b (Or.inl rfl))
      fun a ha b => hclosed a b (Or.inr ha)

/-- Where a climb ends that goes on from a layer. -/
def climbed (m : Memberships) (seen frontier : Keys) : (more : Nat) → Keys
  | 0 => seen
  | more + 1 =>
    if (next m seen frontier).isEmpty then seen
    else climbed m (seen ∪ next m seen frontier) (next m seen frontier) more

/-- A climb ends with exactly the keys above its root, if it may look at more layers
than there are keys left to find. -/
theorem mem_climbed {more : Nat} (h : Climbing m root seen frontier)
    (hmore : (without (allParents m) seen).size < more) {b : AclKey} :
    b ∈ climbed m seen frontier more ↔ Above m root b := by
  induction more generalizing seen frontier with
  | zero => omega
  | succ more ih =>
    unfold climbed
    by_cases hnext : (next m seen frontier).isEmpty
    · rw [if_pos hnext]
      exact mem_seen_iff h hnext
    · rw [if_neg hnext]
      have hfound : ∀ b ∈ next m seen frontier, b ∈ allParents m := by
        intro b hb
        obtain ⟨⟨a, -, hab⟩, -⟩ := mem_next.mp hb
        exact mem_allParents.mpr ⟨a, hab⟩
      have hfewer := size_without_union_lt hfound (fun b hb => (mem_next.mp hb).2) hnext
      exact ih (climbing_step h) (by omega)

/-- Every key above a key. -/
def aboveKeys (m : Memberships) (root : AclKey) : Keys :=
  climbed m ∅ (ExtTreeSet.ofList [root]) (edgeCount m + 1)

theorem mem_aboveKeys {b : AclKey} : b ∈ aboveKeys m root ↔ Above m root b :=
  mem_climbed (climbing_start m root) (Nat.lt_succ_of_le (size_without_allParents_le m ∅))

/-! ### The search in the store -/

variable {s : State}

theorem reads_layer (h : s.InMemory) (keys : Keys) :
    (layer keys).Reads s (allParents (Memberships.parents s.tables.memberships keys.toList)) := by
  unfold layer
  split
  · rename_i he
    rw [ExtTreeSet.isEmpty_iff.mp he]
    exact Action.reads_pure _ s
  · exact Action.reads_bind (Store.reads_parents h keys.toList) fun _ => Action.reads_pure _ _

theorem reads_climb : ∀ (more : Nat) (seen frontier : Keys) {s : State}, s.InMemory →
    (climb seen frontier more).Reads s (climbed s.tables.memberships seen frontier more)
  | 0, seen, _, s, _ => Action.reads_pure seen s
  | more + 1, seen, frontier, s, h => by
    refine Action.reads_bind (reads_layer h frontier) fun log => ?_
    unfold climbed
    show (if (next s.tables.memberships seen frontier).isEmpty then pure seen else _ :
      Action Keys).Reads _ _
    split
    · exact Action.reads_pure seen _
    · exact reads_climb more _ _ (h.withLog log)

/-- The registered principals above a registration, in the order of their keys. -/
def ancestorList (t : Tables) (root : Registration) : List Registration :=
  (aboveKeys t.memberships root.aclKey).toList.filterMap t.directory.findAt?

/-- The ancestors that are read are the registered principals above the root. -/
theorem reads_ancestors (h : s.InMemory) (root : Registration) :
    (ancestors root).Reads s (ancestorList s.tables root) := by
  let keys := (aboveKeys s.tables.memberships root.aclKey).toList
  have hfound : keys.filterMap (fun key => (s.tables.directory.findMany keys)[key]?) =
      ancestorList s.tables root := by
    refine List.filterMap_congr fun key hkey => ?_
    rw [Directory.getElem?_findMany_of_mem _ hkey]
  refine Action.reads_bind (Action.reads_tables s) fun log => ?_
  refine Action.reads_bind (reads_climb _ _ _ (h.withLog log)) fun log => ?_
  refine Action.reads_bind (Store.reads_lookupAt (h.withLog log) keys) fun log => ?_
  refine Action.reads_bind (Action.reads_forIn keys _ fun key log => ?_) fun log => ?_
  · split
    · exact Action.reads_bind (Action.reads_say _ _ _ _ _) fun _ => Action.reads_pure _ _
    · exact Action.reads_pure _ _
  · rw [← hfound]
    exact Action.reads_pure _ _

/-- The ancestors of a principal are the registered principals above it. -/
theorem mem_ancestorList {t : Tables} (h : t.directory.Consistent) {root r : Registration} :
    r ∈ ancestorList t root ↔
      t.directory.find? r.principal = some r ∧ Above t.memberships root.aclKey r.aclKey := by
  unfold ancestorList
  simp only [List.mem_filterMap, ExtTreeSet.mem_toList, mem_aboveKeys]
  constructor
  · rintro ⟨key, habove, hr⟩
    obtain ⟨hfind, rfl⟩ := (Directory.findAt?_eq_some_iff h).mp hr
    exact ⟨hfind, habove⟩
  · rintro ⟨hr, habove⟩
    exact ⟨r.aclKey, habove, (Directory.findAt?_eq_some_iff h).mpr ⟨hr, rfl⟩⟩

theorem nodup_ancestorList {t : Tables} (h : t.directory.Consistent) (root : Registration) :
    (ancestorList t root).Nodup := by
  refine List.Nodup.filterMap ?_ (nodup_toList _)
  intro a b r ha hb
  obtain ⟨-, rfl⟩ := (Directory.findAt?_eq_some_iff h).mp ha
  obtain ⟨-, rfl⟩ := (Directory.findAt?_eq_some_iff h).mp hb
  rfl

end AccessRegistry.Graph
