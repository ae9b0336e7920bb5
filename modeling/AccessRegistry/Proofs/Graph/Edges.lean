/-
# Memberships as a set of edges

The table of memberships is a set of edges from members to what they are members of.
Adding and removing a membership adds and removes one edge, and removing a key removes
the edges at either of its ends (`leads_removeAll`) and counts each of them once
(`fst_removeAll`).

A new edge leads whoever reaches its lower end to all that is reached from its upper end, and
nobody else anywhere new, whatever cycles it closes (`reaches_add`). Whoever does not reach the
lower end of an edge does not miss it (`aboveBut_of_not_reaches`).

Key definitions: `Graph.edges`, `Graph.AboveWithout`, `Graph.Reaches`, `Graph.AboveBut`.
Key theorems: `Graph.leads_add`, `Graph.leads_remove`, `Graph.leads_removeAll`,
`Graph.fst_removeAll`, `Graph.above_removeAll`, `Graph.ext_leads`, `Graph.reaches_add`,
`Graph.above_remove`.
-/
import Mathlib.Data.List.Nodup
import AccessRegistry.Proofs.Graph.Paths

namespace AccessRegistry.Graph

open Std (ExtTreeMap ExtTreeSet)

variable {m : Memberships} {a b child parent key : AclKey}

theorem holds_iff : Memberships.holds m a b = true ↔ Leads m a b := by
  unfold Memberships.holds Leads
  exact ExtTreeSet.contains_iff_mem

theorem leads_empty : ¬ Leads ∅ a b := by
  unfold Leads
  rw [Index.row_empty]
  exact ExtTreeSet.not_mem_empty

theorem leads_add :
    Leads (Memberships.add m child parent).2 a b ↔ (child = a ∧ parent = b) ∨ Leads m a b :=
  Index.contains_row_add m child a parent b

theorem leads_remove :
    Leads (Memberships.remove m child parent).2 a b ↔ ¬ (child = a ∧ parent = b) ∧ Leads m a b :=
  Index.contains_row_drop m child a parent b

/-- Where there are no empty rows, a row is found exactly if there is something in it. -/
theorem getElem?_eq_row? (hm : m.Tidy) (key : AclKey) : m[key]? = row? m key := by
  unfold row? Index.row
  rw [ExtTreeMap.getD_eq_getD_getElem?]
  cases hrow : m[key]? with
  | none => simp
  | some bs => simp [ExtTreeSet.isEmpty_iff, hm key bs hrow]

/-- Memberships without empty rows are the same if they have the same edges. -/
theorem ext_leads {m' : Memberships} (hm : m.Tidy) (hm' : m'.Tidy)
    (h : ∀ a b, Leads m a b ↔ Leads m' a b) : m = m' := by
  apply ExtTreeMap.ext_getElem?
  intro key
  have hrow : Index.row m key = Index.row m' key := ExtTreeSet.ext_mem fun b => h key b
  rw [getElem?_eq_row? hm, getElem?_eq_row? hm']
  unfold row?
  rw [hrow]

theorem add_of_leads (hm : m.Tidy) (h : Leads m child parent) :
    (Memberships.add m child parent).2 = m :=
  ext_leads (Index.tidy_add hm _ _) hm fun a b => by
    rw [leads_add]
    refine ⟨?_, Or.inr⟩
    rintro (⟨rfl, rfl⟩ | hab)
    · exact h
    · exact hab

theorem remove_of_not_leads (hm : m.Tidy) (h : ¬ Leads m child parent) :
    (Memberships.remove m child parent).2 = m :=
  ext_leads (Index.tidy_drop hm _ _) hm fun a b => by
    rw [leads_remove]
    refine ⟨And.right, fun hab => ⟨?_, hab⟩⟩
    rintro ⟨rfl, rfl⟩
    exact h hab

/-- A new edge that is removed again leaves nothing behind. -/
theorem remove_add (hm : m.Tidy) (h : ¬ Leads m child parent) :
    (Memberships.remove (Memberships.add m child parent).2 child parent).2 = m :=
  ext_leads (Index.tidy_drop (Index.tidy_add hm _ _) _ _) hm fun a b => by
    rw [leads_remove, leads_add]
    constructor
    · rintro ⟨hne, hab⟩
      exact hab.resolve_left hne
    · refine fun hab => ⟨?_, .inr hab⟩
      rintro ⟨rfl, rfl⟩
      exact h hab

/-! ### All memberships of a key -/

/-- The memberships that stay are those at neither end of which the key is. -/
theorem leads_removeAll :
    Leads (Memberships.removeAll m key).2 a b ↔ Leads m a b ∧ a ≠ key ∧ b ≠ key := by
  rw [leads_iff_getElem?, leads_iff_getElem?]
  unfold Memberships.removeAll
  simp only [ExtTreeMap.getElem?_filterMap', ExtTreeMap.getElem?_erase,
    Std.LawfulEqOrd.compare_eq_iff_eq, Option.bind_eq_some_iff, Option.ite_none_left_eq_some,
    Option.some.injEq, ExtTreeSet.isEmpty_iff]
  constructor
  · rintro ⟨bs, ⟨row, ⟨hne, hrow⟩, -, rfl⟩, hb⟩
    rw [ExtTreeSet.mem_erase] at hb
    simp only [ne_eq, Std.LawfulEqOrd.compare_eq_iff_eq] at hb
    exact ⟨⟨row, hrow, hb.2⟩, fun he => hne he.symm, fun he => hb.1 he.symm⟩
  · rintro ⟨⟨row, hrow, hb⟩, ha, hbkey⟩
    have hleft : b ∈ row.erase key := by
      rw [ExtTreeSet.mem_erase]
      simp only [ne_eq, Std.LawfulEqOrd.compare_eq_iff_eq]
      exact ⟨fun he => hbkey he.symm, hb⟩
    refine ⟨row.erase key, ⟨row, ⟨fun he => ha he.symm, hrow⟩, ?_, rfl⟩, hleft⟩
    intro hempty
    rw [hempty] at hleft
    exact ExtTreeSet.not_mem_empty hleft

theorem tidy_removeAll (m : Memberships) (key : AclKey) :
    (Memberships.removeAll m key).2.Tidy := by
  intro a bs hbs
  unfold Memberships.removeAll at hbs
  simp only [ExtTreeMap.getElem?_filterMap', Option.bind_eq_some_iff,
    Option.ite_none_left_eq_some] at hbs
  obtain ⟨row, -, hempty, hrow⟩ := hbs
  rw [← Option.some.inj hrow]
  exact fun he => hempty (ExtTreeSet.isEmpty_iff.mpr he)

/-- Every membership, as a pair of the member and what it is a member of. -/
def edges (m : Memberships) : List (AclKey × AclKey) :=
  m.toList.flatMap fun row => row.2.toList.map fun b => (row.1, b)

theorem mem_edges {e : AclKey × AclKey} : e ∈ edges m ↔ Leads m e.1 e.2 := by
  unfold edges
  simp only [List.mem_flatMap, List.mem_map, ExtTreeSet.mem_toList]
  rw [leads_iff_getElem?]
  constructor
  · rintro ⟨row, hrow, b, hb, rfl⟩
    exact ⟨row.2, ExtTreeMap.mem_toList_iff_getElem?_eq_some.mp hrow, hb⟩
  · rintro ⟨bs, hrow, hb⟩
    exact ⟨(e.1, bs), ExtTreeMap.mem_toList_iff_getElem?_eq_some.mpr hrow, e.2, hb, rfl⟩

theorem nodup_edges (m : Memberships) : (edges m).Nodup := by
  unfold edges
  rw [List.nodup_flatMap]
  constructor
  · intro row _
    exact (nodup_toList row.2).map fun b c h => (Prod.mk.inj h).2
  · refine ExtTreeMap.distinct_keys_toList.imp fun {row row'} hne => ?_
    intro e he he'
    obtain ⟨b, -, rfl⟩ := List.mem_map.mp he
    obtain ⟨c, -, hc⟩ := List.mem_map.mp he'
    exact hne (by rw [(Prod.mk.inj hc).1]; exact Std.ReflCmp.compare_self)

/-- The edges at a key: those from it, and those to it from another key. -/
def edgesAt (m : Memberships) (key : AclKey) : List (AclKey × AclKey) :=
  ((Index.row m key).toList.map fun b => (key, b)) ++
    ((m.erase key).filter fun _ parents => parents.contains key).keys.map fun a => (a, key)

theorem mem_edgesAt {e : AclKey × AclKey} :
    e ∈ edgesAt m key ↔ Leads m e.1 e.2 ∧ (e.1 = key ∨ e.2 = key) := by
  obtain ⟨a, b⟩ := e
  unfold edgesAt
  simp only [List.mem_append, List.mem_map, ExtTreeSet.mem_toList, ExtTreeMap.mem_keys,
    ExtTreeMap.mem_iff_isSome_getElem?, Option.isSome_iff_exists, ExtTreeMap.getElem?_filter',
    ExtTreeMap.getElem?_erase, Std.LawfulEqOrd.compare_eq_iff_eq, Prod.mk.injEq]
  constructor
  · rintro (⟨b', hb, rfl, rfl⟩ | ⟨a', ⟨row, hrow⟩, rfl, rfl⟩)
    · exact ⟨hb, Or.inl rfl⟩
    · rw [Option.filter_eq_some_iff, Option.ite_none_left_eq_some] at hrow
      obtain ⟨⟨-, hrow⟩, hmem⟩ := hrow
      exact ⟨leads_iff_getElem?.mpr ⟨row, hrow, ExtTreeSet.contains_iff_mem.mp hmem⟩, Or.inr rfl⟩
  · rintro ⟨h, hkey⟩
    by_cases ha : a = key
    · subst ha
      exact Or.inl ⟨b, h, rfl, rfl⟩
    · obtain rfl : b = key := hkey.resolve_left ha
      obtain ⟨row, hrow, hmem⟩ := leads_iff_getElem?.mp h
      refine Or.inr ⟨a, ⟨row, ?_⟩, rfl, rfl⟩
      rw [Option.filter_eq_some_iff, Option.ite_none_left_eq_some]
      exact ⟨⟨fun he => ha he.symm, hrow⟩, ExtTreeSet.contains_iff_mem.mpr hmem⟩

theorem nodup_edgesAt (m : Memberships) (key : AclKey) : (edgesAt m key).Nodup := by
  unfold edgesAt
  rw [List.nodup_append]
  refine ⟨?_, ?_, ?_⟩
  · exact (nodup_toList _).map fun b c h => (Prod.mk.inj h).2
  · exact ExtTreeMap.nodup_keys.map fun a c h => (Prod.mk.inj h).1
  · rintro e he e' he' rfl
    obtain ⟨b, -, rfl⟩ := List.mem_map.mp he
    obtain ⟨a, ha, hpair⟩ := List.mem_map.mp he'
    obtain rfl := (Prod.mk.inj hpair).1
    simp [ExtTreeMap.mem_keys, ExtTreeMap.mem_iff_isSome_getElem?] at ha

/-- Each edge that goes is counted, and that once: also the one of a key that is a
member of itself. -/
theorem fst_removeAll (m : Memberships) (key : AclKey) :
    (Memberships.removeAll m key).1 = (edges m).countP fun e => e.1 = key ∨ e.2 = key := by
  have hlength : (Memberships.removeAll m key).1 = (edgesAt m key).length := by
    unfold Memberships.removeAll edgesAt
    rw [List.length_append, List.length_map, List.length_map, ExtTreeSet.length_toList,
      ExtTreeMap.length_keys]
  rw [hlength, List.countP_eq_length_filter]
  have hnodup := (nodup_edges m).filter fun e => decide (e.1 = key ∨ e.2 = key)
  refine ((List.perm_ext_iff_of_nodup (nodup_edgesAt m key) hnodup).mpr ?_).length_eq
  intro e
  rw [mem_edgesAt, List.mem_filter, mem_edges, decide_eq_true_eq]

/-- One or more memberships lead from the first key up to the second, none of which begins
or ends at the key that is left out. -/
def AboveWithout (m : Memberships) (out : AclKey) : AclKey → AclKey → Prop :=
  Relation.TransGen fun a b => Leads m a b ∧ a ≠ out ∧ b ≠ out

/-- Where a key has lost its memberships, the paths are those that keep clear of it. -/
theorem above_removeAll :
    Above (Memberships.removeAll m key).2 a b ↔ AboveWithout m key a b := by
  have hleads : Leads (Memberships.removeAll m key).2 =
      fun a b => Leads m a b ∧ a ≠ key ∧ b ≠ key := by
    funext a b
    exact propext leads_removeAll
  unfold Above AboveWithout
  rw [hleads]

theorem AboveWithout.ne {out : AclKey} (h : AboveWithout m out a b) : b ≠ out := by
  cases h with
  | single h => exact h.2.2
  | tail _ h => exact h.2.2

/-! ### Paths with an edge more and an edge less -/

/-- Some memberships, or none, lead from the first key up to the second. -/
def Reaches (m : Memberships) : AclKey → AclKey → Prop := Relation.ReflTransGen (Leads m)

theorem reaches_iff : Reaches m a b ↔ b = a ∨ Above m a b :=
  Relation.reflTransGen_iff_eq_or_transGen

/-- With a new edge whoever reaches its lower end reaches all that its upper end reaches,
and nobody reaches anything else. -/
theorem reaches_add : Reaches (Memberships.add m child parent).2 a b ↔
    Reaches m a b ∨ (Reaches m a child ∧ Reaches m parent b) := by
  constructor
  · intro h
    -- a path that takes the new edge again begins anew at its upper end
    induction h with
    | refl => exact .inl .refl
    | tail _ hstep ih =>
      obtain ⟨rfl, rfl⟩ | hold := leads_add.mp hstep
      · exact .inr ⟨ih.elim id And.left, .refl⟩
      · exact ih.imp (fun h => h.tail hold) fun h => ⟨h.1, h.2.tail hold⟩
  · have hstays : Leads m ≤ Leads (Memberships.add m child parent).2 :=
      fun _ _ hstep => leads_add.mpr (.inr hstep)
    have hmono : ∀ {x y : AclKey}, Reaches m x y → Reaches (Memberships.add m child parent).2 x y :=
      Relation.ReflTransGen.mono hstays _ _
    rintro (h | ⟨hchild, hparent⟩)
    · exact hmono h
    · exact ((hmono hchild).tail (leads_add.mpr (.inl ⟨rfl, rfl⟩))).trans (hmono hparent)

/-- One or more memberships lead from the first key up to the second, none of which is that of
the child in the parent. -/
def AboveBut (m : Memberships) (child parent : AclKey) : AclKey → AclKey → Prop :=
  Relation.TransGen fun a b => ¬ (child = a ∧ parent = b) ∧ Leads m a b

theorem above_remove :
    Above (Memberships.remove m child parent).2 a b ↔ AboveBut m child parent a b := by
  have hleads : Leads (Memberships.remove m child parent).2 =
      fun a b => ¬ (child = a ∧ parent = b) ∧ Leads m a b := by
    funext a b
    exact propext leads_remove
  unfold Above AboveBut
  rw [hleads]

theorem AboveBut.above (h : AboveBut m child parent a b) : Above m a b :=
  Relation.TransGen.mono (fun _ _ hstep => hstep.2) _ _ h

/-- No path from where the lower end of an edge is not reached takes the edge. -/
theorem aboveBut_of_not_reaches (hnot : ¬ Reaches m a child) (h : Above m a b) :
    AboveBut m child parent a b := by
  have hstep : ∀ {x y : AclKey}, Reaches m a x → Leads m x y →
      ¬ (child = x ∧ parent = y) ∧ Leads m x y := by
    refine fun hx hxy => ⟨?_, hxy⟩
    rintro ⟨rfl, -⟩
    exact hnot hx
  induction h with
  | single h => exact .single (hstep .refl h)
  | tail hpath h ih => exact ih.tail (hstep hpath.to_reflTransGen h)

end AccessRegistry.Graph
