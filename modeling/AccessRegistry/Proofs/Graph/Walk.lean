/-
# Walks over loaded memberships

For many principals at once the memberships are loaded first, layer by layer from all the
roots together (`Graph.Loading`), and then walked over without the store, from each root
with a stack (`Graph.Walking`). A walk over what was loaded finds what a walk over all
memberships would find, since nothing that a root leads to was left out.

Key definitions: `Graph.Loading`, `Graph.Walking`.
Key theorems: `Graph.loading_loaded`, `Graph.mem_walk`, `Graph.mem_walk_loadedFor`.
-/
import AccessRegistry.Proofs.Graph.Paths

namespace AccessRegistry.Graph

open Std (ExtTreeMap ExtTreeSet)
open Relation (ReflTransGen)

variable {m : Memberships} {a b : AclKey}

/-- What was loaded, after the parents of some more keys were. -/
def grow (m : Memberships) (l : Loaded) (frontier : Keys) : Loaded :=
  ⟨addRows l.parents (Memberships.parents m frontier.toList), l.keys ∪ frontier, l.rounds + 1⟩

/-- The parents that are not loaded yet. -/
def unloaded (m : Memberships) (l : Loaded) (frontier : Keys) : Keys :=
  without (allParents (Memberships.parents m frontier.toList)) (grow m l frontier).keys

/-- Where loading ends. -/
def loaded (m : Memberships) (l : Loaded) (frontier : Keys) : (more : Nat) → Loaded
  | 0 => l
  | more + 1 =>
    if frontier.isEmpty then l else loaded m (grow m l frontier) (unloaded m l frontier) more

/-- How far loading has come: the memberships of the loaded keys are there, and what they
lead to is loaded too, or is next. -/
structure Loading (m : Memberships) (l : Loaded) (frontier : Keys) : Prop where
  rows : ∀ a : AclKey, l.parents[a]? = if a ∈ l.keys then row? m a else none
  edges : ∀ a ∈ l.keys, ∀ b, Leads m a b → b ∈ l.keys ∨ b ∈ frontier

theorem loading_start (m : Memberships) (frontier : Keys) : Loading m {} frontier where
  rows a := by simp
  edges a ha := absurd ha ExtTreeSet.not_mem_empty

theorem loading_grow {l : Loaded} {frontier : Keys} (h : Loading m l frontier) :
    Loading m (grow m l frontier) (unloaded m l frontier) where
  rows a := by
    show (addRows l.parents _)[a]? = if a ∈ l.keys ∪ frontier then row? m a else none
    unfold addRows
    rw [getElem?_foldl_insert, getElem?_parents, h.rows]
    simp only [ExtTreeSet.mem_toList, ExtTreeSet.mem_union_iff]
    by_cases hf : a ∈ frontier
    · by_cases hl : a ∈ l.keys <;> simp [hf, hl]
    · simp [hf]
  edges a ha b hab := by
    by_cases hb : b ∈ (grow m l frontier).keys
    · exact Or.inl hb
    · refine Or.inr (mem_without.mpr ⟨mem_allParents_parents.mpr ⟨a, ?_, hab⟩, hb⟩)
      rw [ExtTreeSet.mem_toList]
      rcases ExtTreeSet.mem_union_iff.mp ha with hl | hf
      · exact absurd (ExtTreeSet.mem_union_iff.mpr (h.edges a hl b hab)) hb
      · exact hf

theorem mem_allParents_of_unloaded {l : Loaded} {frontier : Keys}
    (h : b ∈ unloaded m l frontier) : b ∈ allParents m := by
  obtain ⟨a, -, hab⟩ := mem_allParents_parents.mp (mem_without.mp h).1
  exact mem_allParents.mpr ⟨a, hab⟩

theorem loading_done {l : Loaded} {frontier : Keys} (h : Loading m l frontier)
    (he : frontier.isEmpty) : Loading m l ∅ ∧ ∀ a ∈ l.keys ∪ frontier, a ∈ l.keys := by
  rw [ExtTreeSet.isEmpty_iff] at he
  subst he
  refine ⟨h, fun a ha => ?_⟩
  exact (ExtTreeSet.mem_union_iff.mp ha).resolve_right ExtTreeSet.not_mem_empty

/-- Loading leaves nothing out that the keys of its first layer lead to, if as many
layers are allowed as there are keys to load, and one more. -/
theorem loading_loaded {more : Nat} {l : Loaded} {frontier : Keys} (h : Loading m l frontier)
    (hmore : ¬ frontier.isEmpty → (without (allParents m) (l.keys ∪ frontier)).size < more) :
    Loading m (loaded m l frontier more) ∅ ∧
      ∀ a ∈ l.keys ∪ frontier, a ∈ (loaded m l frontier more).keys := by
  induction more generalizing l frontier with
  | zero =>
    exact loading_done h (Classical.byContradiction fun he => Nat.not_lt_zero _ (hmore he))
  | succ more ih =>
    unfold loaded
    by_cases he : frontier.isEmpty
    · rw [if_pos he]
      exact loading_done h he
    · rw [if_neg he]
      have hrest : ¬ (unloaded m l frontier).isEmpty →
          (without (allParents m) ((grow m l frontier).keys ∪ unloaded m l frontier)).size <
            more := by
        intro hnew
        have hfewer := size_without_union_lt (fun b => mem_allParents_of_unloaded)
          (fun b hb => (mem_without.mp hb).2) hnew
        exact Nat.lt_of_lt_of_le hfewer (Nat.le_of_lt_succ (hmore he))
      obtain ⟨hload, hkeys⟩ := ih (loading_grow h) hrest
      exact ⟨hload, fun a ha => hkeys a (ExtTreeSet.mem_union_iff.mpr (Or.inl ha))⟩

/-! ### Walking -/

/-- How far a walk has come: `stack` is what it has yet to look above. -/
structure Walking (p : Parents) (start : AclKey) (seen : Keys) (stack : List AclKey) : Prop where
  begun : start ∈ seen
  reached : ∀ b ∈ seen, ReflTransGen (Leads p) start b
  ahead : ∀ a ∈ stack, a ∈ seen
  edges : ∀ a ∈ seen, ∀ b, Leads p a b → b ∈ seen ∨ a ∈ stack

variable {p : Parents} {start : AclKey} {seen : Keys} {stack : List AclKey}

theorem walking_start (p : Parents) (start : AclKey) :
    Walking p start (ExtTreeSet.ofList [start]) [start] := by
  have hstart : ∀ a, a ∈ ExtTreeSet.ofList [start] ↔ a = start := fun a => by
    rw [mem_setOfList, List.mem_singleton]
  constructor
  · exact (hstart start).mpr rfl
  · intro b hb
    obtain rfl := (hstart b).mp hb
    exact .refl
  · intro a ha
    exact (hstart a).mpr (List.mem_singleton.mp ha)
  · intro a ha b _
    exact Or.inr (List.mem_singleton.mpr ((hstart a).mp ha))

/-- What is newly found above one key. -/
def above (p : Parents) (seen : Keys) (key : AclKey) : Keys := without (Index.row p key) seen

theorem mem_newAbove {key : AclKey} : b ∈ above p seen key ↔ Leads p key b ∧ b ∉ seen :=
  mem_without

/-- Once what is above the top of the stack was seen, the top can go. -/
theorem walking_step {key : AclKey} (h : Walking p start seen (key :: stack)) :
    Walking p start (seen ∪ above p seen key) ((above p seen key).toList ++ stack) where
  begun := ExtTreeSet.mem_union_iff.mpr (Or.inl h.begun)
  reached b hb := by
    rcases ExtTreeSet.mem_union_iff.mp hb with hb | hb
    · exact h.reached b hb
    · exact (h.reached key (h.ahead key List.mem_cons_self)).tail (mem_newAbove.mp hb).1
  ahead a ha := by
    rw [ExtTreeSet.mem_union_iff]
    rcases List.mem_append.mp ha with ha | ha
    · exact Or.inr (ExtTreeSet.mem_toList.mp ha)
    · exact Or.inl (h.ahead a (List.mem_cons_of_mem key ha))
  edges a ha b hab := by
    rw [ExtTreeSet.mem_union_iff] at ha ⊢
    rw [List.mem_append, ExtTreeSet.mem_toList]
    rcases ha with ha | ha
    · rcases h.edges a ha b hab with hb | hstack
      · exact Or.inl (Or.inl hb)
      · rcases List.mem_cons.mp hstack with rfl | hstack
        · by_cases hb : b ∈ seen
          · exact Or.inl (Or.inl hb)
          · exact Or.inl (Or.inr (mem_newAbove.mpr ⟨hab, hb⟩))
        · exact Or.inr (Or.inr hstack)
    · exact Or.inr (Or.inl ha)

/-- A walk with nothing left on its stack has seen everything. -/
theorem mem_seen_of_walked (h : Walking p start seen []) :
    b ∈ seen ↔ ReflTransGen (Leads p) start b := by
  constructor
  · exact h.reached b
  · intro hb
    induction hb with
    | refl => exact h.begun
    | tail _ hbc ih => exact (h.edges _ ih _ hbc).resolve_right List.not_mem_nil

/-- A walk finds exactly what its start leads to, if it may look above as many keys as
are on the stack or left to find. -/
theorem mem_walkFrom {more : Nat} (h : Walking p start seen stack)
    (hmore : stack.length + (without (allParents p) seen).size ≤ more) :
    b ∈ walkFrom p seen stack more ↔ ReflTransGen (Leads p) start b := by
  induction more generalizing seen stack with
  | zero =>
    obtain rfl : stack = [] := List.eq_nil_of_length_eq_zero (by omega)
    exact mem_seen_of_walked h
  | succ more ih =>
    cases stack with
    | nil => exact mem_seen_of_walked h
    | cons key stack =>
      have hsize : (without (allParents p) (seen ∪ above p seen key)).size +
          (above p seen key).size = (without (allParents p) seen).size :=
        size_without_union
          (fun b hb => mem_allParents.mpr ⟨key, (mem_newAbove.mp hb).1⟩)
          (fun b hb => (mem_newAbove.mp hb).2)
      show b ∈ walkFrom p (seen ∪ above p seen key) ((above p seen key).toList ++ stack) more ↔ _
      refine ih (walking_step h) ?_
      rw [List.length_append, ExtTreeSet.length_toList]
      rw [List.length_cons] at hmore
      omega

theorem mem_walk : b ∈ walk p start ↔ ReflTransGen (Leads p) start b := by
  unfold walk
  refine mem_walkFrom (walking_start p start) ?_
  rw [List.length_singleton, Nat.add_comm]
  exact Nat.add_le_add_right (size_without_allParents_le p _) 1

/-- What is loaded for some roots. -/
def loadedFor (m : Memberships) (roots : Keys) : Loaded := loaded m {} roots (edgeCount m + 2)

theorem loading_loadedFor (m : Memberships) (roots : Keys) :
    Loading m (loadedFor m roots) ∅ ∧ ∀ a ∈ roots, a ∈ (loadedFor m roots).keys := by
  have h : Loading m (loadedFor m roots) ∅ ∧
      ∀ a ∈ (∅ : Keys) ∪ roots, a ∈ (loadedFor m roots).keys :=
    loading_loaded (loading_start m roots) fun _ =>
      Nat.lt_add_right 1 (Nat.lt_succ_of_le (size_without_allParents_le m _))
  obtain ⟨hload, hkeys⟩ := h
  exact ⟨hload, fun a ha => hkeys a (ExtTreeSet.mem_union_iff.mpr (Or.inr ha))⟩

/-- From a root, a walk over what was loaded is a walk over all memberships. -/
theorem mem_walk_loadedFor {roots : Keys} (hstart : start ∈ roots) :
    b ∈ walk (loadedFor m roots).parents start ↔ b = start ∨ Above m start b := by
  obtain ⟨hload, hroots⟩ := loading_loadedFor m roots
  have hleads : ∀ {a b}, Leads (loadedFor m roots).parents a b ↔
      a ∈ (loadedFor m roots).keys ∧ Leads m a b := by
    intro a b
    rw [leads_iff_getElem?, hload.rows, leads_iff_row?]
    by_cases ha : a ∈ (loadedFor m roots).keys <;> simp [ha]
  rw [mem_walk, Above, ← Relation.reflTransGen_iff_eq_or_transGen]
  constructor
  · exact Relation.ReflTransGen.mono (fun a b hab => (hleads.mp hab).2) start b
  · intro hb
    have hwalk : b ∈ (loadedFor m roots).keys ∧
        ReflTransGen (Leads (loadedFor m roots).parents) start b := by
      induction hb with
      | refl => exact ⟨hroots start hstart, .refl⟩
      | tail _ hbc ih =>
        obtain ⟨hin, hpath⟩ := ih
        have hnext := (hload.edges _ hin _ hbc).resolve_right ExtTreeSet.not_mem_empty
        exact ⟨hnext, hpath.tail (hleads.mpr ⟨hin, hbc⟩)⟩
    exact hwalk.2

end AccessRegistry.Graph
