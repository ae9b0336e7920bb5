/-
# The memberships are a set of edges

The table of memberships keeps the parents of each member in a row of its own, and a change
may go over many rows. What it stands for is a set of edges (`Represents`): a membership that
is added or removed is an edge that is put in or taken out, a key that loses its memberships
takes the edges at either of its ends along, and the parents of a key are where its edges
lead. This holds after any calls to the stores, whatever else they do, and of what each of
them answers.

Key definitions: `Graph.Edges`, `Graph.Represents`, `Tables.Change.onEdges`,
`Graph.ToldByEdges`.
Key theorems: `Graph.Represents.removeAll`, `Graph.Represents.apply`,
`Graph.memberships_are_edges`.
-/
import AccessRegistry.Proofs.Bindings
import AccessRegistry.Proofs.Graph.Edges
import Mathlib.Data.Finset.Card

namespace AccessRegistry

/-- The state with other memberships. -/
def State.withMemberships (s : State) (memberships : Memberships) : State :=
  { s with tables := { s.tables with memberships } }

theorem Store.perform_parents {s : State} (h : s.InMemory) (keys : List AclKey) :
    (Store.parents keys).perform s = (.ok (Memberships.parents s.tables.memberships keys), s) :=
  Action.perform_callUnless h .getParents
    (f := fun t => Memberships.parents t.memberships keys) fun hidle => by
      rw [List.isEmpty_iff.mp hidle]
      rfl

namespace Graph

open Std (ExtTreeMap ExtTreeSet)

/-- Edges, each from a member to what it is a member of. -/
abbrev Edges : Type := Finset (AclKey × AclKey)

/-- The edges that begin or end at a key. -/
def Edges.touching (E : Edges) (key : AclKey) : Edges := E.filter fun e => e.1 = key ∨ e.2 = key

/-- Memberships represent edges: they lead along these and along no others, and no key has
an empty row. -/
structure Represents (m : Memberships) (E : Edges) : Prop where
  leads_iff : ∀ {a b}, Leads m a b ↔ (a, b) ∈ E
  tidy : m.Tidy

variable {m : Memberships} {E : Edges} {child parent key : AclKey}

theorem represents_empty : Represents ∅ ∅ where
  leads_iff := ⟨fun h => (leads_empty h).elim, fun h => (Finset.notMem_empty _ h).elim⟩
  tidy := Index.tidy_empty

namespace Represents

theorem add (h : Represents m E) :
    Represents (Memberships.add m child parent).2 (insert (child, parent) E) where
  leads_iff {a b} := by
    rw [leads_add, h.leads_iff, Finset.mem_insert, Prod.mk.injEq]
    exact or_congr_left (and_congr eq_comm eq_comm)
  tidy := Index.tidy_add h.tidy child parent

theorem remove (h : Represents m E) :
    Represents (Memberships.remove m child parent).2 (E.erase (child, parent)) where
  leads_iff {a b} := by
    rw [leads_remove, h.leads_iff, Finset.mem_erase, ne_eq, Prod.mk.injEq]
    exact and_congr_left' (not_congr (and_congr eq_comm eq_comm))
  tidy := Index.tidy_drop h.tidy child parent

/-- A key that loses its memberships takes along the edges at either of its ends. -/
theorem removeAll (h : Represents m E) :
    Represents (Memberships.removeAll m key).2 (E \ E.touching key) where
  leads_iff {a b} := by
    rw [leads_removeAll, h.leads_iff, Finset.mem_sdiff, Edges.touching, Finset.mem_filter,
      not_and, not_or]
    exact and_congr_right fun hab => (imp_iff_right hab).symm
  tidy := tidy_removeAll m key

theorem holds_eq (h : Represents m E) :
    Memberships.holds m child parent = decide ((child, parent) ∈ E) := by
  rw [Bool.eq_iff_iff, holds_iff, h.leads_iff, decide_eq_true_eq]

theorem fst_add (h : Represents m E) (child parent : AclKey) :
    (Memberships.add m child parent).1 = decide (insert (child, parent) E ≠ E) := by
  show (!Memberships.holds m child parent) = _
  rw [h.holds_eq, ← decide_not, decide_eq_decide, ne_eq, Finset.insert_eq_self]

theorem fst_remove (h : Represents m E) (child parent : AclKey) :
    (Memberships.remove m child parent).1 = decide (E.erase (child, parent) ≠ E) := by
  show Memberships.holds m child parent = _
  rw [h.holds_eq, decide_eq_decide, ne_eq, Finset.erase_eq_self, not_not]

theorem toFinset_edges (h : Represents m E) : (edges m).toFinset = E := by
  ext e
  rw [List.mem_toFinset, mem_edges, h.leads_iff]

/-- As many are counted as there are edges at the key: the edge of a key that is a member
of itself is one edge. -/
theorem fst_removeAll (h : Represents m E) (key : AclKey) :
    (Memberships.removeAll m key).1 = (E.touching key).card := by
  have hgone : ((edges m).filter fun e => e.1 = key ∨ e.2 = key).toFinset = E.touching key := by
    rw [Edges.touching, ← h.toFinset_edges]
    ext e
    rw [List.mem_toFinset, List.mem_filter, Finset.mem_filter, List.mem_toFinset,
      decide_eq_true_eq]
  calc (Memberships.removeAll m key).1
    _ = (edges m).countP fun e => e.1 = key ∨ e.2 = key := Graph.fst_removeAll m key
    _ = ((edges m).filter fun e => e.1 = key ∨ e.2 = key).length := List.countP_eq_length_filter
    _ = ((edges m).filter fun e => e.1 = key ∨ e.2 = key).toFinset.card :=
        (List.toFinset_card_of_nodup ((nodup_edges m).filter _)).symm
    _ = (E.touching key).card := congrArg Finset.card hgone

theorem mem_row?_iff (h : Represents m E) {row : Keys} (hrow : row? m key = some row) {b : AclKey} :
    b ∈ row ↔ (key, b) ∈ E := by
  rw [← h.leads_iff, leads_iff_row?, hrow]
  simp only [Option.some.injEq, exists_eq_left']

theorem isSome_row?_iff (h : Represents m E) : (row? m key).isSome ↔ ∃ b, (key, b) ∈ E := by
  -- An empty row is none.
  unfold row?
  simp only [← h.leads_iff, Leads]
  split
  · rename_i hempty
    simp [ExtTreeSet.isEmpty_iff.mp hempty]
  · rename_i hrow
    refine iff_of_true rfl ?_
    by_contra hnone
    refine hrow (ExtTreeSet.isEmpty_iff.mpr (ExtTreeSet.ext_mem fun b => ?_))
    exact iff_of_false (fun hb => hnone ⟨b, hb⟩) ExtTreeSet.not_mem_empty

theorem mem_iff (h : Represents m E) : key ∈ m ↔ ∃ b, (key, b) ∈ E := by
  rw [ExtTreeMap.mem_iff_isSome_getElem?, getElem?_eq_row? h.tidy, h.isSome_row?_iff]

end Represents

end Graph

/-! ### After any calls -/

/-- What a change of the tables does to the edges that the memberships represent. -/
def Tables.Change.onEdges (E : Graph.Edges) : Tables.Change → Graph.Edges
  | addEdge child parent => insert (child, parent) E
  | removeEdge child parent => E.erase (child, parent)
  | removeAllEdges key => E \ E.touching key
  | _ => E

namespace Graph

theorem Represents.apply {t : Tables} (h : Represents t.memberships E) (c : Tables.Change) :
    Represents (c.apply t).memberships (c.onEdges E) := by
  cases c with
  | addEdge child parent => exact h.add
  | removeEdge child parent => exact h.remove
  | removeAllEdges key => exact h.removeAll
  | renameByName old new => exact (Tables.Change.memberships_renamed t _).symm ▸ h
  | renameById id new => exact (Tables.Change.memberships_renamed t _).symm ▸ h
  | _ => exact h

theorem Represents.foldl_apply : ∀ (cs : List Tables.Change) {t : Tables} {E : Edges},
    Represents t.memberships E →
      Represents (cs.foldl Tables.Change.apply t).memberships (cs.foldl Tables.Change.onEdges E)
  | [], _, _, h => h
  | c :: cs, _, _, h => foldl_apply cs (h.apply c)

/-- The memberships of a state are some edges, and each call does to them, and answers, what
the set of these edges tells. -/
structure ToldByEdges (s : State) (E : Edges) : Prop where
  represents : Represents s.tables.memberships E
  /-- An edge is put in. The answer is whether the set is another one then. -/
  addEdge : ∀ child parent, ∃ m, Represents m (insert (child, parent) E) ∧
    (Store.addEdge child parent).perform s =
      (.ok (decide (insert (child, parent) E ≠ E)), s.withMemberships m)
  /-- An edge is taken out. The answer is whether the set is another one then. -/
  removeEdge : ∀ child parent, ∃ m, Represents m (E.erase (child, parent)) ∧
    (Store.removeEdge child parent).perform s =
      (.ok (decide (E.erase (child, parent) ≠ E)), s.withMemberships m)
  /-- The edges at a key are taken out. The answer is how many these are. -/
  removeAllEdges : ∀ key, ∃ m, Represents m (E \ E.touching key) ∧
    (Store.removeAllEdges key).perform s =
      (.ok (E.touching key).card, s.withMemberships m)
  /-- Of the keys of a list those are found that have a parent, each with all its parents. -/
  parents : ∀ keys, ∃ found : Parents, (Store.parents keys).perform s = (.ok found, s) ∧
    (∀ key, key ∈ found ↔ key ∈ keys ∧ ∃ parent, (key, parent) ∈ E) ∧
    ∀ key row, found[key]? = some row → ∀ parent, parent ∈ row ↔ (key, parent) ∈ E

theorem Represents.told {s : State} (hs : s.InMemory) (h : Represents s.tables.memberships E) :
    ToldByEdges s E where
  represents := h
  addEdge child parent :=
    ⟨_, h.add, h.fst_add child parent ▸ Action.perform_change hs .addEdge _⟩
  removeEdge child parent :=
    ⟨_, h.remove, h.fst_remove child parent ▸ Action.perform_change hs .removeEdge _⟩
  removeAllEdges key :=
    ⟨_, h.removeAll, h.fst_removeAll key ▸ Action.perform_change hs .removeAllEdges _⟩
  parents keys := by
    refine ⟨_, Store.perform_parents hs keys, fun key => ?_, fun key row hrow parent => ?_⟩
    · rw [Std.ExtTreeMap.mem_iff_isSome_getElem?, getElem?_parents, ← h.isSome_row?_iff]
      split
      · rename_i hkey
        exact (and_iff_right hkey).symm
      · rename_i hkey
        simp [hkey]
    · rw [getElem?_parents] at hrow
      obtain ⟨-, hrow⟩ := Option.ite_none_right_eq_some.mp hrow
      exact h.mem_row?_iff hrow

/-- **The memberships are a set of edges.** After any calls to the stores, begun without
memberships, the memberships represent the edges that the calls put in and took out, no key
has an empty row, and every further call is told by these edges. -/
theorem memberships_are_edges {s₀ : State} (h : s₀.InMemory)
    (hempty : s₀.tables.memberships = ∅) (calls : List Tables.Change) :
    ToldByEdges (s₀.afterAll (calls.map .call)) (calls.foldl Tables.Change.onEdges ∅) := by
  rw [State.afterAll_calls calls h]
  have hstart : Represents s₀.tables.memberships ∅ := hempty ▸ represents_empty
  exact Represents.told ⟨h.storage, h.outages⟩ (hstart.foldl_apply calls)

/-- A key that is a member of itself, has a parent and a member, and loses them all, loses
three memberships; those of others stay, and the member that had no other parent has none. -/
theorem last_parent_goes :
    let a : AclKey := .single (.system 7)
    let b : AclKey := .single (.system 8)
    let c : AclKey := .single (.system 9)
    let s := (State.start {} ⟨0, 0⟩).afterAll
      ([.addEdge a a, .addEdge a b, .addEdge b a, .addEdge c a, .addEdge c b, .addEdge a a,
        .removeEdge c a, .removeEdge c a].map .call)
    ∃ m, (Store.removeAllEdges a).perform s = (.ok 3, s.withMemberships m) ∧
      Represents m {(c, b)} ∧ b ∉ m := by
  intro a b c s
  have hstart : (State.start {} ⟨0, 0⟩).InMemory := ⟨rfl, rfl⟩
  have htold := memberships_are_edges hstart rfl
    [.addEdge a a, .addEdge a b, .addEdge b a, .addEdge c a, .addEdge c b, .addEdge a a,
      .removeEdge c a, .removeEdge c a]
  obtain ⟨m, hm, hperform⟩ := htold.removeAllEdges a
  rw [show _ \ Edges.touching _ a = {(c, b)} by decide +kernel] at hm
  rw [show (Edges.touching _ a).card = 3 by decide +kernel] at hperform
  refine ⟨m, hperform, hm, ?_⟩
  rw [hm.mem_iff]
  rintro ⟨parent, hparent⟩
  have hne : b ≠ c := by decide
  exact hne (congrArg Prod.fst (Finset.mem_singleton.mp hparent))

end Graph
end AccessRegistry
