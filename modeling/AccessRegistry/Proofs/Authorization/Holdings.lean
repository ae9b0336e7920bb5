/-
# Holdings

What is held on each key of a list is gathered entry by entry. Every key that was asked
for stays, and each entry that has not expired adds its permissions to those of its
object, so that in the end a permission is held on a key if some entry there gives it.

Key theorems: `PermissionSet.containsAll_iff`, `Authorization.Holdings.contains_add`,
`Authorization.Holdings.contains_foldl_add`.
-/
import AccessRegistry.Authorization
import AccessRegistry.Proofs.Collections

namespace AccessRegistry

namespace PermissionSet

theorem containsAll_iff {a b : PermissionSet} :
    a.containsAll b = true ↔ ∀ x, b.contains x = true → a.contains x = true := by
  have hand : a.containsAll b = true ↔ a.intersection b = b := by
    unfold containsAll intersection
    rw [beq_iff_eq, PermissionSet.ext_iff]
  rw [hand]
  constructor
  · intro h x hx
    rw [← h, contains_intersection, Bool.and_eq_true] at hx
    exact hx.1
  · intro h
    apply ext_contains
    intro x
    rw [contains_intersection]
    cases hb : b.contains x with
    | false => rw [Bool.and_false]
    | true => rw [h x hb, Bool.and_true]

theorem contains_ofList_singleton (x y : Permission) :
    (ofList [x]).contains y = true ↔ x = y := by
  simp [ofList]

end PermissionSet

/-- An entry gives its permissions until it expires. -/
theorem Entry.Value.contains_permissionsAt {v : Entry.Value} {now : Instant} {x : Permission} :
    (v.permissionsAt now).contains x = true ↔
      now < v.expiration ∧ v.permissions.contains x = true := by
  unfold permissionsAt activeAt
  by_cases hnow : now < v.expiration <;> simp [hnow]

namespace Authorization

open Std (ExtTreeMap)

/-! ### Entry by entry -/

namespace Holdings

variable {now : Instant} {key : AclKey}

theorem getElem?_blank (keys : List AclKey) :
    (blank keys)[key]? = if key ∈ keys then some .empty else none := by
  have hfold := getElem?_foldl_elim (fun _ : AclKey => some PermissionSet.empty) key keys ∅
  refine hfold.trans ?_
  simp

theorem mem_blank {keys : List AclKey} : key ∈ blank keys ↔ key ∈ keys := by
  rw [ExtTreeMap.mem_iff_isSome_getElem?, getElem?_blank]
  split <;> simp_all

theorem getD_blank (keys : List AclKey) : (blank keys).getD key .empty = .empty := by
  rw [ExtTreeMap.getD_eq_getD_getElem?, getElem?_blank]
  split <;> rfl

theorem mem_add {h : Holdings} {k : Entry.Key} {v : Entry.Value} :
    key ∈ add now h k v ↔ key ∈ h := by
  unfold add
  cases hk : h[k.aclKey]? with
  | none => rfl
  | some held =>
    rw [ExtTreeMap.mem_insert, Std.LawfulEqOrd.compare_eq_iff_eq]
    refine or_iff_right_of_imp ?_
    rintro rfl
    exact ExtTreeMap.mem_iff_isSome_getElem?.mpr (Option.isSome_of_eq_some hk)

/-- An entry adds what it gives to what is held on its object, if that was asked for. -/
theorem contains_add {h : Holdings} (hkey : key ∈ h) {k : Entry.Key} {v : Entry.Value}
    {x : Permission} :
    ((add now h k v).getD key .empty).contains x = true ↔
      (h.getD key .empty).contains x = true ∨
        (k.aclKey = key ∧ (v.permissionsAt now).contains x = true) := by
  unfold add
  by_cases hk : k.aclKey = key
  · subst hk
    obtain ⟨held, hheld⟩ :=
      Option.isSome_iff_exists.mp (ExtTreeMap.mem_iff_isSome_getElem?.mp hkey)
    rw [hheld]
    simp [ExtTreeMap.getD_eq_getD_getElem?, hheld]
  · cases h[k.aclKey]? with
    | none => simp [hk]
    | some held => simp [ExtTreeMap.getD_insert, hk]

theorem mem_foldl_add : ∀ (es : List (Entry.Key × Entry.Value)) (h : Holdings),
    key ∈ es.foldl (fun h e => add now h e.1 e.2) h ↔ key ∈ h
  | [], h => Iff.rfl
  | e :: es, h => by rw [List.foldl_cons, mem_foldl_add es, mem_add]

theorem contains_foldl_add {x : Permission} : ∀ (es : List (Entry.Key × Entry.Value))
    (h : Holdings), key ∈ h →
    (((es.foldl (fun h e => add now h e.1 e.2) h).getD key .empty).contains x = true ↔
      (h.getD key .empty).contains x = true ∨
        ∃ e ∈ es, e.1.aclKey = key ∧ (e.2.permissionsAt now).contains x = true)
  | [], h, _ => by simp
  | e :: es, h, hkey => by
    rw [List.foldl_cons, contains_foldl_add es _ (mem_add.mpr hkey), contains_add hkey]
    simp only [List.mem_cons, exists_eq_or_imp, or_assoc]

end Holdings

end Authorization
end AccessRegistry
