/-
# The indexes follow the entries

The table of entries is changed in five ways only. Whatever they are and in whichever
order they come, the three indexes file the keys that are stored, all of them and no
others, and no index keeps an empty row (`indexed_after`).

Every change is made of inserting a key that is not there, replacing a value, and
removing a key, so that it is enough to look at these three.

Key definitions: `Permissions.Indexed`, `Permissions.Change`, `Permissions.after`.
Key theorems: `Permissions.indexed_apply`, `Permissions.indexed_after`.
-/
import AccessRegistry.Table.Permissions

namespace AccessRegistry
namespace Permissions

/-- The indexes file exactly the stored keys, and have no empty rows. -/
structure Indexed (t : Permissions) : Prop where
  byAclKey : ∀ key p, p ∈ Index.row t.byAclKey key ↔ (⟨key, p⟩ : Entry.Key) ∈ t.entries
  byPrincipal : ∀ key p, key ∈ Index.row t.byPrincipal p ↔ (⟨key, p⟩ : Entry.Key) ∈ t.entries
  byRoot : ∀ root k, k ∈ Index.row t.byRoot root ↔ k.root = root ∧ k ∈ t.entries
  tidyAclKey : t.byAclKey.Tidy
  tidyPrincipal : t.byPrincipal.Tidy
  tidyRoot : t.byRoot.Tidy

theorem indexed_empty : empty.Indexed where
  byAclKey key p := by simp [empty]
  byPrincipal key p := by simp [empty]
  byRoot root k := by simp [empty]
  tidyAclKey := Index.tidy_empty
  tidyPrincipal := Index.tidy_empty
  tidyRoot := Index.tidy_empty

variable {t : Permissions}

theorem indexed_insert (h : t.Indexed) (k : Entry.Key) (v : Entry.Value) :
    (t.insert k v).Indexed where
  byAclKey key p := by
    simp only [insert, Index.contains_row_add, h.byAclKey, Std.ExtTreeMap.mem_insert,
      Std.LawfulEqOrd.compare_eq_iff_eq, Entry.Key.ext_iff]
  byPrincipal key p := by
    simp only [insert, Index.contains_row_add, h.byPrincipal, Std.ExtTreeMap.mem_insert,
      Std.LawfulEqOrd.compare_eq_iff_eq, Entry.Key.ext_iff, and_comm]
  byRoot root x := by
    simp only [insert, Index.contains_row_add, h.byRoot, Std.ExtTreeMap.mem_insert,
      Std.LawfulEqOrd.compare_eq_iff_eq]
    constructor
    · rintro (⟨hr, rfl⟩ | ⟨hr, hx⟩)
      · exact ⟨hr, Or.inl rfl⟩
      · exact ⟨hr, Or.inr hx⟩
    · rintro ⟨hr, rfl | hx⟩
      · exact Or.inl ⟨hr, rfl⟩
      · exact Or.inr ⟨hr, hx⟩
  tidyAclKey := Index.tidy_add h.tidyAclKey _ _
  tidyPrincipal := Index.tidy_add h.tidyPrincipal _ _
  tidyRoot := Index.tidy_add h.tidyRoot _ _

theorem indexed_replace (h : t.Indexed) {k : Entry.Key} (hk : k ∈ t.entries) (v : Entry.Value) :
    (t.replace k v).Indexed := by
  have stored : ∀ x, x ∈ (t.replace k v).entries ↔ x ∈ t.entries := by
    intro x
    simp only [replace, Std.ExtTreeMap.mem_insert, Std.LawfulEqOrd.compare_eq_iff_eq]
    exact ⟨fun hx => hx.elim (fun he => he ▸ hk) id, Or.inr⟩
  exact
    { byAclKey := fun key p => (h.byAclKey key p).trans (stored _).symm
      byPrincipal := fun key p => (h.byPrincipal key p).trans (stored _).symm
      byRoot := fun root x => (h.byRoot root x).trans (and_congr_right fun _ => (stored x).symm)
      tidyAclKey := h.tidyAclKey
      tidyPrincipal := h.tidyPrincipal
      tidyRoot := h.tidyRoot }

theorem indexed_remove (h : t.Indexed) (k : Entry.Key) : (t.remove k).2.Indexed := by
  unfold remove
  split
  · exact
      { byAclKey := fun key p => by
          simp only [Index.contains_row_drop, h.byAclKey, Std.ExtTreeMap.mem_erase, ne_eq,
            Std.LawfulEqOrd.compare_eq_iff_eq, Entry.Key.ext_iff]
        byPrincipal := fun key p => by
          simp only [Index.contains_row_drop, h.byPrincipal, Std.ExtTreeMap.mem_erase, ne_eq,
            Std.LawfulEqOrd.compare_eq_iff_eq, Entry.Key.ext_iff, and_comm]
        byRoot := fun root x => by
          simp only [Index.contains_row_drop, h.byRoot, Std.ExtTreeMap.mem_erase, ne_eq,
            Std.LawfulEqOrd.compare_eq_iff_eq]
          constructor
          · rintro ⟨hne, hr, hx⟩
            exact ⟨hr, fun he => hne ⟨by rw [he, hr], he⟩, hx⟩
          · rintro ⟨hr, hne, hx⟩
            exact ⟨fun he => hne he.2, hr, hx⟩
        tidyAclKey := Index.tidy_drop h.tidyAclKey _ _
        tidyPrincipal := Index.tidy_drop h.tidyPrincipal _ _
        tidyRoot := Index.tidy_drop h.tidyRoot _ _ }
  · exact h

theorem indexed_removeList : ∀ (ks : List Entry.Key) {t : Permissions}, t.Indexed →
    (removeList ks t).2.Indexed
  | [], _, h => h
  | k :: ks, _, h => indexed_removeList ks (indexed_remove h k)

/-! ### The changes -/

theorem mem_entries_of_find? {k : Entry.Key} {v : Entry.Value} (h : t.find? k = some v) :
    k ∈ t.entries :=
  Std.ExtTreeMap.mem_iff_isSome_getElem?.mpr (Option.isSome_of_eq_some h)

theorem indexed_mergeOne (h : t.Indexed) (s : PermissionSet) (kind : ObjectKind)
    (expiration : Instant) (k : Entry.Key) : (mergeOne s kind expiration t k).Indexed := by
  unfold mergeOne
  split
  · rename_i v hv
    exact indexed_replace h (mem_entries_of_find? hv) _
  · exact indexed_insert h k _

theorem indexed_subtractOne (h : t.Indexed) (s : PermissionSet) (k : Entry.Key) :
    (subtractOne s t k).Indexed := by
  unfold subtractOne
  split
  · rename_i v hv
    dsimp only
    split
    · exact indexed_remove h k
    · exact indexed_replace h (mem_entries_of_find? hv) _
  · exact h

theorem indexed_updateKind (h : t.Indexed) (k : Entry.Key) (kind : ObjectKind) :
    (t.updateKind k kind).2.Indexed := by
  unfold updateKind
  split
  · rename_i v hv
    exact indexed_replace h (mem_entries_of_find? hv) _
  · exact h

theorem indexed_foldl {f : Permissions → Entry.Key → Permissions}
    (hf : ∀ {t}, t.Indexed → ∀ k, (f t k).Indexed) :
    ∀ (ks : List Entry.Key) {t : Permissions}, t.Indexed → (ks.foldl f t).Indexed
  | [], _, h => h
  | k :: ks, _, h => indexed_foldl hf ks (hf h k)

/-- The ways in which the table is changed. -/
inductive Change where
  | merge (ks : List Entry.Key) (s : PermissionSet) (kind : ObjectKind) (expiration : Instant)
  | subtract (ks : List Entry.Key) (s : PermissionSet)
  | updateKind (k : Entry.Key) (kind : ObjectKind)
  | deleteOn (key : AclKey)
  | deleteOf (p : Principal)

/-- The table after a change. -/
def Change.apply (t : Permissions) : Change → Permissions
  | merge ks s kind expiration => t.merge ks s kind expiration
  | subtract ks s => t.subtract ks s
  | updateKind k kind => (t.updateKind k kind).2
  | deleteOn key => (t.deleteOn key).2
  | deleteOf p => (t.deleteOf p).2

/-- The table after a sequence of changes, beginning without entries. -/
def after (changes : List Change) : Permissions := changes.foldl Change.apply empty

theorem indexed_apply (h : t.Indexed) : ∀ c : Change, (c.apply t).Indexed
  | .merge ks s kind expiration =>
    indexed_foldl (fun h => indexed_mergeOne h s kind expiration) ks h
  | .subtract ks s => indexed_foldl (fun h => indexed_subtractOne h s) ks h
  | .updateKind k kind => indexed_updateKind h k kind
  | .deleteOn _ => indexed_removeList _ h
  | .deleteOf _ => indexed_removeList _ h

theorem indexed_foldl_apply : ∀ (cs : List Change) {t : Permissions}, t.Indexed →
    (cs.foldl Change.apply t).Indexed
  | [], _, h => h
  | c :: cs, _, h => indexed_foldl_apply cs (indexed_apply h c)

/-- The indexes agree with the entries in every table that changes lead to. -/
theorem indexed_after (cs : List Change) : (after cs).Indexed :=
  indexed_foldl_apply cs indexed_empty

end Permissions
end AccessRegistry
