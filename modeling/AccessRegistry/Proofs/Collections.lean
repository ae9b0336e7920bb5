/-
# Sets and maps, built step by step

The stores fill their answers by going over a list, and the graph is searched with sets
that grow. Here is what such a fold leaves in a map or a set, and how sizes compare.

Key theorems: `getElem?_foldl_elim`, `mem_foldl_union`, `countP_add_size`,
`size_le_size_of_subset`.
-/
import AccessRegistry.Order

namespace AccessRegistry

open Std (ExtTreeMap ExtTreeSet)

variable {α β γ : Type} [Ord α] [Std.TransOrd α] [Std.LawfulEqOrd α]

omit [Ord α] [Std.TransOrd α] [Std.LawfulEqOrd α] in
/-- Where nothing is found, taking away what is found changes nothing. -/
theorem eq_ite_none [DecidableEq α] {f : α → Option β} {k : α} (h : f k = none) (x : α) :
    f x = if k = x then none else f x := by
  split
  · rename_i he
    rw [← he, h]
  · rfl

/-- Whoever looks for the keys of a list, one after the other, finds under each of them
what there is, and leaves the rest as it was. -/
theorem getElem?_foldl_elim [DecidableEq α] (f : α → Option β) (k : α) :
    ∀ (keys : List α) (m : ExtTreeMap α β),
      (keys.foldl (fun found key => (f key).elim found (found.insert key)) m)[k]? =
        if k ∈ keys then (f k).or m[k]? else m[k]?
  | [], m => by simp
  | key :: keys, m => by
    rw [List.foldl_cons, getElem?_foldl_elim f k keys]
    by_cases hk : key = k
    · subst hk
      cases hf : f key <;> simp
    · have hget : ((f key).elim m (m.insert key))[k]? = m[k]? := by
        cases f key with
        | none => rfl
        | some b => simp [ExtTreeMap.getElem?_insert, hk]
      simp [hget, Ne.symm hk]

/-- Inserting every row of a map in another: the inserted rows count. -/
theorem getElem?_foldl_insert (t u : ExtTreeMap α β) (k : α) :
    (u.foldl (fun rows key b => rows.insert key b) t)[k]? = u[k]?.or t[k]? := by
  classical
  rw [ExtTreeMap.foldl_eq_foldl_toList, ← ExtTreeMap.insertMany_list_eq_foldl]
  cases hu : u[k]? with
  | some b =>
    exact ExtTreeMap.getElem?_insertMany_list_of_mem Std.ReflCmp.compare_self
      ExtTreeMap.distinct_keys_toList (ExtTreeMap.mem_toList_iff_getElem?_eq_some.mpr hu)
  | none =>
    refine ExtTreeMap.getElem?_insertMany_list_of_contains_eq_false ?_
    rw [ExtTreeMap.map_fst_toList_eq_keys, ← Bool.not_eq_true, List.contains_iff_mem,
      ExtTreeMap.mem_keys, ExtTreeMap.mem_iff_isSome_getElem?, hu]
    exact Bool.false_ne_true

omit [Std.LawfulEqOrd α] in
theorem mem_foldl_union (f : γ → ExtTreeSet α) (a : α) :
    ∀ (l : List γ) (t : ExtTreeSet α),
      a ∈ l.foldl (fun found c => found ∪ f c) t ↔ a ∈ t ∨ ∃ c ∈ l, a ∈ f c
  | [], t => by simp
  | c :: l, t => by
    rw [List.foldl_cons, mem_foldl_union f a l, ExtTreeSet.mem_union_iff]
    simp [or_assoc]

theorem mem_foldl_insert (a : α) :
    ∀ (l : List α) (t : ExtTreeSet α), a ∈ l.foldl .insert t ↔ a ∈ t ∨ a ∈ l
  | [], t => by simp
  | b :: l, t => by
    rw [List.foldl_cons, mem_foldl_insert a l, ExtTreeSet.mem_insert]
    simp only [Std.LawfulEqOrd.compare_eq_iff_eq, List.mem_cons]
    constructor
    · rintro ((rfl | h) | h)
      · exact Or.inr (Or.inl rfl)
      · exact Or.inl h
      · exact Or.inr (Or.inr h)
    · rintro (h | rfl | h)
      · exact Or.inl (Or.inr h)
      · exact Or.inl (Or.inl rfl)
      · exact Or.inr h

theorem mem_setOfList [DecidableEq α] {l : List α} {a : α} :
    a ∈ ExtTreeSet.ofList l ↔ a ∈ l := by
  rw [ExtTreeSet.mem_ofList, List.contains_iff_mem]

omit [Std.LawfulEqOrd α] in
theorem nodup_toList (t : ExtTreeSet α) : t.toList.Nodup :=
  ExtTreeSet.distinct_toList.imp fun {a b} hab he => by
    subst he
    exact hab Std.ReflCmp.compare_self

theorem nodup_rows (t : ExtTreeMap α β) : t.toList.Nodup :=
  ExtTreeMap.distinct_keys_toList.imp fun {a b} hab he => by
    subst he
    exact hab Std.ReflCmp.compare_self

/-- Where some rows of a map were removed and the others left, the others are its rows. -/
theorem perm_rows {t u : ExtTreeMap α β} (P : α → β → Prop) [∀ a b, Decidable (P a b)]
    (h : ∀ a, u[a]? = t[a]?.filter fun b => ¬ P a b) :
    u.toList.Perm (t.toList.filter fun e => ¬ P e.1 e.2) := by
  refine (List.perm_ext_iff_of_nodup (nodup_rows u) ((nodup_rows t).filter _)).mpr fun e => ?_
  rw [List.mem_filter, ExtTreeMap.mem_toList_iff_getElem?_eq_some,
    ExtTreeMap.mem_toList_iff_getElem?_eq_some, h, Option.filter_eq_some_iff]

/-- The number of rows that were removed is missing. -/
theorem countP_add_size {t u : ExtTreeMap α β} (P : α → β → Prop) [∀ a b, Decidable (P a b)]
    (h : ∀ a, u[a]? = t[a]?.filter fun b => ¬ P a b) :
    (t.toList.countP fun e => P e.1 e.2) + u.size = t.size := by
  have hsize := (perm_rows P h).length_eq
  rw [ExtTreeMap.length_toList, ← List.countP_eq_length_filter] at hsize
  have hsplit := List.length_eq_countP_add_countP (fun e => decide (P e.1 e.2)) (l := t.toList)
  rw [ExtTreeMap.length_toList] at hsplit
  simp only [decide_eq_true_eq] at hsplit hsize
  omega

theorem countP_keys {t u : ExtTreeMap α β} (P Q : α → Prop) [DecidablePred P] [DecidablePred Q]
    (h : ∀ a, u[a]? = if P a then none else t[a]?) :
    (u.keys.countP fun a => Q a) = t.keys.countP fun a => Q a ∧ ¬ P a := by
  have hrows := perm_rows (t := t) (u := u) (fun a _ => P a) fun a => by
    rw [h]
    cases t[a]? <;> by_cases hP : P a <;> simp [Option.filter_some, hP]
  rw [← ExtTreeMap.map_fst_toList_eq_keys, ← ExtTreeMap.map_fst_toList_eq_keys, List.countP_map,
    List.countP_map, hrows.countP_eq, List.countP_filter]
  simp [Function.comp_def]

theorem size_le_size_of_subset {t u : ExtTreeSet α} (h : ∀ a ∈ t, a ∈ u) : t.size ≤ u.size := by
  have hu : t ∪ u = u := by
    apply ExtTreeSet.ext_mem
    intro a
    rw [ExtTreeSet.mem_union_iff]
    exact ⟨fun ha => ha.elim (h a) id, Or.inr⟩
  calc t.size ≤ (t ∪ u).size := ExtTreeSet.size_left_le_size_union
    _ = u.size := by rw [hu]

end AccessRegistry
