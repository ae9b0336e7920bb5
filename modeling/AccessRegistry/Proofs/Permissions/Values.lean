/-
# What a change leaves under a key

Granting, revoking and setting a kind work on the value under one key, whatever stands
under the others. What they make of it is a function of that value alone.

Key definitions: `Entry.Value.granted`, `Entry.Value.revoked`.
Key theorems: `Permissions.find?_mergeOne`, `Permissions.find?_subtractOne`,
`Permissions.find?_updateKind`.
-/
import AccessRegistry.Proofs.Collections
import AccessRegistry.Table.Permissions

namespace AccessRegistry

namespace Instant

variable {a b c : Instant}

theorem lt_later_iff {t a b : Instant} : t < a.later b ↔ t < a ∨ t < b := by
  unfold later
  split
  · rename_i h
    simp only [lt_def, le_def] at h ⊢
    omega
  · rename_i h
    simp only [lt_def, le_def] at h ⊢
    omega

theorem le_later (a b : Instant) : b ≤ a.later b := by
  unfold later
  split
  · exact .inr ⟨rfl, Nat.le_refl _⟩
  · rename_i h
    simp only [le_def] at h ⊢
    omega

theorem le_refl (a : Instant) : a ≤ a := .inr ⟨rfl, Nat.le_refl _⟩

theorem le_trans (hab : a ≤ b) (hbc : b ≤ c) : a ≤ c := by
  simp only [le_def] at *
  omega

theorem later_le_iff : a.later b ≤ c ↔ a ≤ c ∧ b ≤ c := by
  unfold later
  split
  · rename_i h
    exact ⟨fun hc => ⟨le_trans h hc, hc⟩, And.right⟩
  · rename_i h
    simp only [le_def] at *
    omega

/-- An instant is told by those that are not before it. -/
theorem ext_le (h : ∀ c, a ≤ c ↔ b ≤ c) : a = b := by
  have hab := (h b).mpr (le_refl b)
  have hba := (h a).mp (le_refl a)
  simp only [le_def] at hab hba
  exact Instant.ext (by omega) (by omega)

theorem later_comm (a b : Instant) : a.later b = b.later a :=
  ext_le fun _ => by simp only [later_le_iff, and_comm]

theorem later_right_comm (t a b : Instant) : (t.later a).later b = (t.later b).later a :=
  ext_le fun _ => by simp only [later_le_iff, and_right_comm]

theorem later_later (t a : Instant) : (t.later a).later a = t.later a :=
  ext_le fun _ => by simp only [later_le_iff, and_assoc, and_self]

theorem later_self (a : Instant) : a.later a = a :=
  ext_le fun _ => by simp only [later_le_iff, and_self]

theorem later_eq_or (a b : Instant) : a.later b = a ∨ a.later b = b := by
  unfold later
  split
  · exact .inr rfl
  · exact .inl rfl

end Instant

namespace Entry.Value

/-- What a grant makes of the value under its key, if there is one. -/
def granted (old : Option Entry.Value) (s : PermissionSet) (kind : ObjectKind)
    (expiration : Instant) : Entry.Value :=
  match old with
  | some v => { v with permissions := v.permissions.union s
                       expiration := v.expiration.later expiration }
  | none => { permissions := s, kind, expiration }

/-- What is left of a value when permissions are taken away. -/
def revoked (v : Entry.Value) (s : PermissionSet) : Option Entry.Value :=
  let left := v.permissions.difference s
  if left.isEmpty then none else some { v with permissions := left }

end Entry.Value

namespace PermissionSet

theorem eq_empty_of_isEmpty {s : PermissionSet} (h : s.isEmpty = true) : s = empty :=
  PermissionSet.ext (beq_iff_eq.mp h)

theorem contains_full (x : Permission) : full.contains x = true := by
  cases x <;> decide

theorem empty_union (s : PermissionSet) : empty.union s = s := by
  apply ext_contains
  intro p
  simp

theorem union_comm (a b : PermissionSet) : a.union b = b.union a :=
  ext_contains fun p => by simp only [contains_union, Bool.or_comm]

theorem union_right_comm (s a b : PermissionSet) : (s.union a).union b = (s.union b).union a :=
  ext_contains fun p => by simp only [contains_union, Bool.or_right_comm]

theorem union_union (s a : PermissionSet) : (s.union a).union a = s.union a :=
  ext_contains fun p => by simp only [contains_union, Bool.or_assoc, Bool.or_self]

theorem union_self (s : PermissionSet) : s.union s = s :=
  ext_contains fun p => by simp only [contains_union, Bool.or_self]

theorem difference_difference (s a : PermissionSet) :
    (s.difference a).difference a = s.difference a :=
  ext_contains fun p => by simp only [contains_difference, Bool.and_assoc, Bool.and_self]

theorem union_ne_empty {s a : PermissionSet} (h : s ≠ empty) : s.union a ≠ empty := by
  intro he
  refine h (ext_contains fun p => ?_)
  have hp := congrArg (·.contains p) he
  simp only [contains_union, contains_empty, Bool.or_eq_false_iff] at hp
  rw [hp.1, contains_empty]

end PermissionSet

/-! ### Values under keys -/

namespace Permissions

variable {t : Permissions} {k x : Entry.Key} {v : Entry.Value}

theorem find?_insert (t : Permissions) (k x : Entry.Key) (v : Entry.Value) :
    (t.insert k v).find? x = if k = x then some v else t.find? x := by
  unfold insert find?
  simp only [Std.ExtTreeMap.getElem?_insert, Std.LawfulEqOrd.compare_eq_iff_eq]

theorem find?_replace (t : Permissions) (k x : Entry.Key) (v : Entry.Value) :
    (t.replace k v).find? x = if k = x then some v else t.find? x := by
  unfold replace find?
  simp only [Std.ExtTreeMap.getElem?_insert, Std.LawfulEqOrd.compare_eq_iff_eq]

theorem find?_mergeOne (s : PermissionSet) (kind : ObjectKind) (expiration : Instant)
    (t : Permissions) (k x : Entry.Key) :
    (mergeOne s kind expiration t k).find? x =
      if k = x then some (.granted (t.find? k) s kind expiration) else t.find? x := by
  unfold mergeOne Entry.Value.granted
  cases hk : t.find? k with
  | some v => exact find?_replace t k x _
  | none => exact find?_insert t k x _

theorem find?_subtractOne (s : PermissionSet) (t : Permissions) (k x : Entry.Key) :
    (subtractOne s t k).find? x =
      if k = x then (t.find? k).bind (·.revoked s) else t.find? x := by
  unfold subtractOne Entry.Value.revoked
  cases hk : t.find? k with
  | none => exact eq_ite_none hk x
  | some v =>
    dsimp only [Option.bind_some]
    split
    · unfold remove find?
      rw [if_pos (Std.ExtTreeMap.mem_iff_isSome_getElem?.mpr (Option.isSome_of_eq_some hk))]
      simp only [Std.ExtTreeMap.getElem?_erase, Std.LawfulEqOrd.compare_eq_iff_eq]
    · exact find?_replace t k x _

theorem find?_updateKind (t : Permissions) (k x : Entry.Key) (kind : ObjectKind) :
    (t.updateKind k kind).2.find? x =
      if k = x then (t.find? k).map fun v => { v with kind } else t.find? x := by
  unfold updateKind
  cases hk : t.find? k with
  | none => exact eq_ite_none hk x
  | some v => exact find?_replace t k x _

end Permissions
end AccessRegistry
