/-
# Queries find what a scan of the whole table finds

A query looks only at the keys that its narrowest condition leaves, and which condition
that is hangs on which of the nine are set. In a table whose indexes are right this
makes no difference: the answer is that of a scan of all entries, each of them once and
in the order of the keys (`query_eq_scan`). What is deleted by an index is what a scan
would find, too (`deleteOn_eq_filter`, `deleteOf_eq_filter`).

Key definitions: `Permissions.scan`, `Entry.Before`.
Key theorems: `Permissions.query_eq_scan`, `Permissions.find?_removeList`,
`Permissions.fst_removeList`, `Permissions.indexed_queries_scan`.
-/
import AccessRegistry.Proofs.Permissions.Indexed

namespace AccessRegistry

namespace Entry.Key

theorem compare_eq (a b : Entry.Key) :
    compare a b = (compare a.aclKey b.aclKey).then (compare a.principal b.principal) := rfl

theorem compare_same_aclKey (key : AclKey) (p q : Principal) :
    compare (⟨key, p⟩ : Entry.Key) ⟨key, q⟩ = compare p q := by
  simp [compare_eq]

theorem compare_same_principal (key other : AclKey) (p : Principal) :
    compare (⟨key, p⟩ : Entry.Key) ⟨other, p⟩ = compare key other := by
  simp [compare_eq]

end Entry.Key

/-- One entry stands before another: its key is smaller. -/
def Entry.Before (a b : Entry) : Prop := compare a.key b.key = .lt

/-- Entries in strict order are told by which they are. -/
theorem Entry.eq_of_before {l l' : List Entry} (h : l.Pairwise Before) (h' : l'.Pairwise Before)
    (same : ∀ e, e ∈ l ↔ e ∈ l') : l = l' := by
  have nodup : ∀ {m : List Entry}, m.Pairwise Before → m.Nodup := fun hm =>
    hm.imp fun {a b} hab he => by
      subst he
      simp [Before] at hab
  refine List.Perm.eq_of_pairwise (fun a b _ _ hab hba => ?_) h h'
    ((List.perm_ext_iff_of_nodup (nodup h) (nodup h')).mpr same)
  exact (Std.OrientedCmp.not_lt_of_lt hab hba).elim

namespace Permissions

variable {t : Permissions}

theorem mem_entries_iff {k : Entry.Key} : k ∈ t.entries ↔ ∃ v, t.find? k = some v := by
  rw [Std.ExtTreeMap.mem_iff_isSome_getElem?, Option.isSome_iff_exists]
  rfl

theorem mem_keysOn (h : t.Indexed) {key : AclKey} {k : Entry.Key} :
    k ∈ t.keysOn key ↔ k.aclKey = key ∧ k ∈ t.entries := by
  simp only [keysOn, List.mem_map, Std.ExtTreeSet.mem_toList, h.byAclKey]
  constructor
  · rintro ⟨p, hp, rfl⟩
    exact ⟨rfl, hp⟩
  · rintro ⟨rfl, hk⟩
    exact ⟨k.principal, hk, rfl⟩

theorem mem_keysOf (h : t.Indexed) {p : Principal} {k : Entry.Key} :
    k ∈ t.keysOf p ↔ k.principal = p ∧ k ∈ t.entries := by
  simp only [keysOf, List.mem_map, Std.ExtTreeSet.mem_toList, h.byPrincipal]
  constructor
  · rintro ⟨key, hkey, rfl⟩
    exact ⟨rfl, hkey⟩
  · rintro ⟨rfl, hk⟩
    exact ⟨k.aclKey, hk, rfl⟩

theorem mem_keysUnder (h : t.Indexed) {root : Identifier} {k : Entry.Key} :
    k ∈ t.keysUnder root ↔ k.root = root ∧ k ∈ t.entries := by
  rw [keysUnder, Std.ExtTreeSet.mem_toList, h.byRoot]

/-- No entry that a query accepts is passed over. -/
theorem mem_candidates (h : t.Indexed) {q : Entry.Query} {k : Entry.Key} {v : Entry.Value}
    (hk : k ∈ t.entries) (ha : q.accepts k v) : k ∈ t.candidates q := by
  simp only [Entry.Query.accepts, Bool.and_eq_true, Option.all_eq_true, decide_eq_true_eq] at ha
  obtain ⟨⟨⟨⟨⟨⟨⟨⟨hkey, haclKey⟩, hprincipal⟩, -⟩, -⟩, hroot⟩, -⟩, -⟩, -⟩ := ha
  unfold candidates
  split
  · rename_i x hx
    rw [hkey x hx, if_pos hk]
    exact List.mem_cons_self
  · rename_i key _ hx
    exact (mem_keysOn h).mpr ⟨(haclKey key hx).symm, hk⟩
  · rename_i p _ _ hx
    exact (mem_keysOf h).mpr ⟨(hprincipal p hx).symm, hk⟩
  · rename_i root _ _ _ hx
    exact (mem_keysUnder h).mpr ⟨(hroot root hx).symm, hk⟩
  · exact Std.ExtTreeMap.mem_keys.mpr hk

/-- Whichever way a query takes, it meets the keys in order. -/
theorem pairwise_candidates (t : Permissions) (q : Entry.Query) :
    (t.candidates q).Pairwise fun a b => compare a b = .lt := by
  unfold candidates
  split
  · split
    · exact List.pairwise_singleton _ _
    · exact List.Pairwise.nil
  · rw [keysOn, List.pairwise_map]
    simpa only [Entry.Key.compare_same_aclKey] using Std.ExtTreeSet.ordered_toList
  · rw [keysOf, List.pairwise_map]
    simpa only [Entry.Key.compare_same_principal] using Std.ExtTreeSet.ordered_toList
  · exact Std.ExtTreeSet.ordered_toList
  · exact Std.ExtTreeMap.ordered_keys

/-! ### Queries -/

/-- The entries that a query accepts, found by looking at all of them. -/
def scan (t : Permissions) (q : Entry.Query) : List Entry :=
  (t.entries.toList.filter fun e => q.accepts e.1 e.2).map fun e => ⟨e.1, e.2⟩

theorem mem_scan {q : Entry.Query} {e : Entry} :
    e ∈ t.scan q ↔ t.find? e.key = some e.value ∧ q.accepts e.key e.value := by
  simp only [scan, List.mem_map, List.mem_filter, find?,
    ← Std.ExtTreeMap.mem_toList_iff_getElem?_eq_some]
  constructor
  · rintro ⟨x, hx, rfl⟩
    exact hx
  · exact fun h => ⟨(e.key, e.value), h, rfl⟩

theorem pairwise_scan (t : Permissions) (q : Entry.Query) :
    (t.scan q).Pairwise Entry.Before := by
  rw [scan, List.pairwise_map]
  exact Std.ExtTreeMap.ordered_keys_toList.filter _

theorem mem_query (h : t.Indexed) {q : Entry.Query} {e : Entry} :
    e ∈ t.query q ↔ t.find? e.key = some e.value ∧ q.accepts e.key e.value := by
  simp only [query, List.mem_filterMap, Option.bind_eq_some_iff, Option.ite_none_right_eq_some,
    Option.some.injEq]
  constructor
  · rintro ⟨k, -, v, hv, ha, rfl⟩
    exact ⟨hv, ha⟩
  · rintro ⟨hv, ha⟩
    exact ⟨e.key, mem_candidates h (mem_entries_of_find? hv) ha, e.value, hv, ha, rfl⟩

theorem pairwise_query (t : Permissions) (q : Entry.Query) :
    (t.query q).Pairwise Entry.Before := by
  rw [query, List.pairwise_filterMap]
  refine (pairwise_candidates t q).imp fun {k k'} hlt e he e' he' => ?_
  have key : ∀ {x : Entry.Key} {y : Entry},
      ((t.find? x).bind fun v => if q.accepts x v then some ⟨x, v⟩ else none) = some y →
        y.key = x := by
    intro x y hy
    obtain ⟨v, -, hv⟩ := Option.bind_eq_some_iff.mp hy
    split at hv
    · cases hv
      rfl
    · cases hv
  rw [Entry.Before, key he, key he']
  exact hlt

/-- A query answers as a scan of all entries does. -/
theorem query_eq_scan (h : t.Indexed) (q : Entry.Query) : t.query q = t.scan q :=
  Entry.eq_of_before (pairwise_query t q) (pairwise_scan t q)
    fun _ => (mem_query h).trans mem_scan.symm

theorem scan_split (t : Permissions) (i : Instant) :
    (t.scan { expiresBefore := some i } ++ t.scan { expiresFrom := some i }).Perm (t.scan {}) := by
  have hall : ∀ e : Entry.Key × Entry.Value, ({} : Entry.Query).accepts e.1 e.2 = true := by
    simp [Entry.Query.accepts]
  have hbefore : ∀ e : Entry.Key × Entry.Value,
      ({ expiresBefore := some i } : Entry.Query).accepts e.1 e.2 =
        decide (e.2.expiration < i) := by
    simp [Entry.Query.accepts]
  have hfrom : ∀ e : Entry.Key × Entry.Value,
      ({ expiresFrom := some i } : Entry.Query).accepts e.1 e.2 =
        !decide (e.2.expiration < i) := by
    simp [Entry.Query.accepts]
  simp only [scan, hall, hbefore, hfrom, ← List.map_append, List.filter_eq_self.mpr fun _ _ => rfl]
  exact (List.filter_append_perm _ _).map _

/-! ### Deletions -/

theorem find?_remove (t : Permissions) (k x : Entry.Key) :
    (t.remove k).2.find? x = if k = x then none else t.find? x := by
  unfold remove find?
  split
  · rw [Std.ExtTreeMap.getElem?_erase]
    simp only [Std.LawfulEqOrd.compare_eq_iff_eq]
  · rename_i hk
    split
    · rename_i he
      exact Std.ExtTreeMap.getElem?_eq_none (he ▸ hk)
    · rfl

theorem find?_removeList : ∀ (ks : List Entry.Key) (t : Permissions) (x : Entry.Key),
    (removeList ks t).2.find? x = if x ∈ ks then none else t.find? x
  | [], _, _ => by simp [removeList]
  | k :: ks, t, x => by
    have ih := find?_removeList ks (t.remove k).2 x
    rw [find?_remove] at ih
    simp only [removeList, List.mem_cons]
    rw [ih]
    by_cases hk : k = x
    · simp [hk]
    · simp [hk, Ne.symm hk]

/-- Distinct keys that are all stored are counted one by one. -/
theorem fst_removeList : ∀ (ks : List Entry.Key) (t : Permissions), ks.Nodup →
    (∀ k ∈ ks, k ∈ t.entries) → (removeList ks t).1 = ks.length
  | [], _, _, _ => rfl
  | k :: ks, t, hnd, hin => by
    obtain ⟨hk, hnd⟩ := List.nodup_cons.mp hnd
    have hfst : (t.remove k).1 = true := by
      simp [remove, hin k List.mem_cons_self]
    have hrest : ∀ x ∈ ks, x ∈ (t.remove k).2.entries := by
      intro x hx
      have hne : k ≠ x := fun he => hk (he ▸ hx)
      obtain ⟨v, hv⟩ := mem_entries_iff.mp (hin x (List.mem_cons_of_mem k hx))
      exact mem_entries_iff.mpr ⟨v, by rw [find?_remove, if_neg hne, hv]⟩
    have ih := fst_removeList ks (t.remove k).2 hnd hrest
    simp only [removeList, List.length_cons, ih, hfst, Bool.toNat_true]

theorem nodup_candidates (t : Permissions) (q : Entry.Query) : (t.candidates q).Nodup :=
  (pairwise_candidates t q).imp fun {a b} hab he => by
    subst he
    simp at hab

/-- If the keys to remove are the stored keys with a property, each of them once, what is
left are the entries without it, and the count is that of a scan. -/
theorem removeList_eq_filter {ks : List Entry.Key} (hnd : ks.Nodup) (P : Entry.Key → Prop)
    [DecidablePred P] (hks : ∀ k, k ∈ ks ↔ P k ∧ k ∈ t.entries) :
    (∀ k, (removeList ks t).2.find? k = if P k then none else t.find? k) ∧
      (removeList ks t).1 = t.entries.keys.countP fun k => P k := by
  constructor
  · intro k
    rw [find?_removeList]
    by_cases hP : P k
    · rw [if_pos hP]
      split
      · rfl
      · rename_i hk
        exact Std.ExtTreeMap.getElem?_eq_none fun hin => hk ((hks k).mpr ⟨hP, hin⟩)
    · rw [if_neg hP, if_neg fun hk => hP ((hks k).mp hk).1]
  · rw [fst_removeList ks t hnd fun k hk => ((hks k).mp hk).2, List.countP_eq_length_filter]
    refine ((List.perm_ext_iff_of_nodup hnd (Std.ExtTreeMap.nodup_keys.filter _)).mpr ?_).length_eq
    intro k
    rw [hks, List.mem_filter, Std.ExtTreeMap.mem_keys, decide_eq_true_eq, and_comm]

theorem deleteOn_eq_filter (h : t.Indexed) (key : AclKey) :
    (∀ k, (t.deleteOn key).2.find? k = if k.aclKey = key then none else t.find? k) ∧
      (t.deleteOn key).1 = t.entries.keys.countP fun k => k.aclKey = key :=
  removeList_eq_filter (nodup_candidates t _) _ fun _ => mem_keysOn h

theorem deleteOf_eq_filter (h : t.Indexed) (p : Principal) :
    (∀ k, (t.deleteOf p).2.find? k = if k.principal = p then none else t.find? k) ∧
      (t.deleteOf p).1 = t.entries.keys.countP fun k => k.principal = p :=
  removeList_eq_filter (nodup_candidates t _) _ fun _ => mem_keysOf h

/-- **Indexes are never seen.** In every table that changes lead to, the indexes file
exactly the stored keys; a query answers as a scan does, with each accepted entry once and
in strict order; the two deletions remove and count what a scan for their key would find;
and an instant divides the table into what expires before it and what does not. -/
theorem indexed_queries_scan (cs : List Change) :
    (after cs).Indexed ∧
    (∀ q, (after cs).query q = (after cs).scan q ∧
      (∀ e, e ∈ (after cs).query q ↔
        (after cs).find? e.key = some e.value ∧ q.accepts e.key e.value) ∧
      ((after cs).query q).Pairwise Entry.Before) ∧
    (∀ key, (∀ k, ((after cs).deleteOn key).2.find? k =
        if k.aclKey = key then none else (after cs).find? k) ∧
      ((after cs).deleteOn key).1 = (after cs).entries.keys.countP fun k => k.aclKey = key) ∧
    (∀ p, (∀ k, ((after cs).deleteOf p).2.find? k =
        if k.principal = p then none else (after cs).find? k) ∧
      ((after cs).deleteOf p).1 = (after cs).entries.keys.countP fun k => k.principal = p) ∧
    (∀ i, ((after cs).query { expiresBefore := some i } ++
        (after cs).query { expiresFrom := some i }).Perm ((after cs).scan {}) ∧
      ∀ e ∈ (after cs).query { expiresBefore := some i },
        e ∉ (after cs).query { expiresFrom := some i }) := by
  have h := indexed_after cs
  refine ⟨h, fun q => ⟨query_eq_scan h q, fun e => mem_query h, pairwise_query _ q⟩,
    deleteOn_eq_filter h, deleteOf_eq_filter h, fun i => ⟨?_, fun e he he' => ?_⟩⟩
  · rw [query_eq_scan h, query_eq_scan h]
    exact scan_split _ i
  · have hlt := ((mem_query h).mp he).2
    have hge := ((mem_query h).mp he').2
    simp only [Entry.Query.accepts, Option.all_none, Option.all_some, Bool.and_true,
      Bool.true_and, decide_eq_true_eq, Bool.not_eq_true', decide_eq_false_iff_not] at hlt hge
    exact hge hlt

end Permissions
end AccessRegistry
