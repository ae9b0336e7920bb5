/-
# The two sides of the directory

The directory is kept by principal and by key. In every directory that its own operations
lead to the two sides are inverse to each other, so that it does not matter from which
side a registration is looked for (`findAt?_eq_some_iff`).

Key definitions: `Directory.Consistent`, `Directory.Knows`, `Directory.Change`,
`Directory.after`.
Key theorems: `Directory.consistent_after`, `Directory.findAt?_eq_some_iff`,
`Directory.find?_add`, `Directory.find?_retitle`, `Directory.find?_remove`,
`Directory.knows_of_apply`.
-/
import AccessRegistry.Proofs.Collections
import AccessRegistry.Table.Directory

namespace AccessRegistry
namespace Directory

/-- Both sides tell of the same registrations, each under its own principal and key. -/
structure Consistent (t : Directory) : Prop where
  byPrincipal : ∀ (p : Principal) (r : Registration), t.byPrincipal[p]? = some r →
    r.principal = p ∧ t.byAclKey[r.aclKey]? = some p
  byAclKey : ∀ (key : AclKey) (p : Principal), t.byAclKey[key]? = some p →
    ∃ r : Registration, t.byPrincipal[p]? = some r ∧ r.aclKey = key

variable {t : Directory}

/-- A registration is found at its key exactly if it is found under its principal. -/
theorem findAt?_eq_some_iff (h : t.Consistent) {key : AclKey} {r : Registration} :
    t.findAt? key = some r ↔ t.find? r.principal = some r ∧ r.aclKey = key := by
  simp only [findAt?, find?, Option.bind_eq_some_iff]
  constructor
  · rintro ⟨p, hp, hr⟩
    obtain ⟨r', hr', hkey⟩ := h.byAclKey key p hp
    obtain rfl : r = r' := Option.some.inj (hr.symm.trans hr')
    obtain ⟨rfl, -⟩ := h.byPrincipal p r hr
    exact ⟨hr, hkey⟩
  · rintro ⟨hr, rfl⟩
    exact ⟨r.principal, (h.byPrincipal _ r hr).2, hr⟩

theorem principal_of_find? (h : t.Consistent) {p : Principal} {r : Registration}
    (hr : t.find? p = some r) : r.principal = p :=
  (h.byPrincipal p r hr).1

/-- Looking for many keys finds at each of them what looking for it alone finds. -/
theorem getElem?_findMany (t : Directory) (keys : List AclKey) (key : AclKey) :
    (t.findMany keys)[key]? = if key ∈ keys then t.findAt? key else none := by
  rw [findMany, getElem?_foldl_elim]
  simp

theorem getElem?_findMany_of_mem (t : Directory) {keys : List AclKey} {key : AclKey}
    (h : key ∈ keys) : (t.findMany keys)[key]? = t.findAt? key := by
  rw [getElem?_findMany, if_pos h]

theorem consistent_empty : empty.Consistent where
  byPrincipal p r hr := by simp [empty] at hr
  byAclKey key p hp := by simp [empty] at hp

theorem consistent_add (h : t.Consistent) (r : Registration) : (t.add r).2.Consistent := by
  unfold add
  split
  · exact h
  · rename_i hfree
    rw [not_or] at hfree
    obtain ⟨hp, hkey⟩ := hfree
    constructor
    · intro p r' hr'
      rw [Std.ExtTreeMap.getElem?_insert] at hr' ⊢
      simp only [Std.LawfulEqOrd.compare_eq_iff_eq] at hr' ⊢
      split at hr'
      · rename_i he
        cases hr'
        exact ⟨he, by rw [if_pos rfl, he]⟩
      · obtain ⟨he, hk⟩ := h.byPrincipal p r' hr'
        refine ⟨he, ?_⟩
        rw [if_neg, hk]
        intro hsame
        rw [← hsame] at hk
        exact hkey (Std.ExtTreeMap.mem_iff_isSome_getElem?.mpr (Option.isSome_of_eq_some hk))
    · intro key p hk
      rw [Std.ExtTreeMap.getElem?_insert] at hk
      simp only [Std.LawfulEqOrd.compare_eq_iff_eq] at hk
      split at hk
      · rename_i he
        cases hk
        exact ⟨r, by simp, he⟩
      · obtain ⟨r', hr', hkey'⟩ := h.byAclKey key p hk
        refine ⟨r', ?_, hkey'⟩
        rw [Std.ExtTreeMap.getElem?_insert, if_neg, hr']
        simp only [Std.LawfulEqOrd.compare_eq_iff_eq]
        intro hsame
        rw [← hsame] at hr'
        exact hp (Std.ExtTreeMap.mem_iff_isSome_getElem?.mpr (Option.isSome_of_eq_some hr'))

theorem consistent_retitle (h : t.Consistent) (key : AclKey) (title : String) :
    (t.retitle key title).2.Consistent := by
  unfold retitle
  split
  · exact h
  · rename_i p hp
    split
    · exact h
    · rename_i r hr
      obtain ⟨rfl, hkey⟩ := h.byPrincipal p r hr
      constructor
      · intro q r' hr'
        rw [Std.ExtTreeMap.getElem?_insert] at hr'
        simp only [Std.LawfulEqOrd.compare_eq_iff_eq] at hr'
        split at hr'
        · rename_i he
          cases hr'
          exact ⟨he, he ▸ hkey⟩
        · exact h.byPrincipal q r' hr'
      · intro key' q hq
        obtain ⟨r', hr', hk⟩ := h.byAclKey key' q hq
        rw [Std.ExtTreeMap.getElem?_insert]
        simp only [Std.LawfulEqOrd.compare_eq_iff_eq]
        split
        · rename_i he
          subst he
          obtain rfl : r = r' := Option.some.inj (hr.symm.trans hr')
          exact ⟨_, rfl, hk⟩
        · exact ⟨r', hr', hk⟩

theorem consistent_remove (h : t.Consistent) (p : Principal) : (t.remove p).2.Consistent := by
  unfold remove
  split
  · rename_i r hr
    obtain ⟨rfl, hkey⟩ := h.byPrincipal p r hr
    constructor
    · intro q r' hr'
      rw [Std.ExtTreeMap.getElem?_erase] at hr' ⊢
      simp only [Std.LawfulEqOrd.compare_eq_iff_eq] at hr' ⊢
      split at hr'
      · cases hr'
      · rename_i hne
        obtain ⟨he, hk⟩ := h.byPrincipal q r' hr'
        refine ⟨he, ?_⟩
        rw [if_neg, hk]
        intro hsame
        rw [← hsame, hkey] at hk
        exact hne (Option.some.inj hk)
    · intro key q hq
      rw [Std.ExtTreeMap.getElem?_erase] at hq
      simp only [Std.LawfulEqOrd.compare_eq_iff_eq] at hq
      split at hq
      · cases hq
      · rename_i hne
        obtain ⟨r', hr', hk⟩ := h.byAclKey key q hq
        refine ⟨r', ?_, hk⟩
        rw [Std.ExtTreeMap.getElem?_erase, if_neg, hr']
        simp only [Std.LawfulEqOrd.compare_eq_iff_eq]
        intro hsame
        rw [← hsame] at hr'
        obtain rfl : r = r' := Option.some.inj (hr.symm.trans hr')
        exact hne hk
  · exact h

/-! ### What the operations leave -/

theorem fst_add {r : Registration} :
    (t.add r).1 = true ↔ t.find? r.principal = none ∧ t.byAclKey[r.aclKey]? = none := by
  unfold add
  simp only [Std.ExtTreeMap.mem_iff_isSome_getElem?, ← Option.not_isSome_iff_eq_none, ← not_or]
  split <;> simp_all [find?]

theorem add_of_fst_eq_false {r : Registration} (h : (t.add r).1 = false) : (t.add r).2 = t := by
  unfold add at h ⊢
  split
  · rfl
  · rename_i hfree
    rw [if_neg hfree] at h
    cases h

theorem find?_add {r : Registration} (h : (t.add r).1 = true) (p : Principal) :
    (t.add r).2.find? p = if r.principal = p then some r else t.find? p := by
  unfold add at h ⊢
  split at h
  · cases h
  · rename_i hfree
    rw [if_neg hfree]
    unfold find?
    simp only [Std.ExtTreeMap.getElem?_insert, Std.LawfulEqOrd.compare_eq_iff_eq]

/-- At its key the new registration is found, and at any other what was found there. -/
theorem findAt?_add (h : t.Consistent) {r : Registration} (hnew : (t.add r).1 = true)
    (key : AclKey) :
    (t.add r).2.findAt? key = if r.aclKey = key then some r else t.findAt? key := by
  have hfind := fun p => find?_add hnew p
  have hkeys : (t.add r).2.byAclKey[key]? =
      if r.aclKey = key then some r.principal else t.byAclKey[key]? := by
    unfold add at hnew ⊢
    split at hnew
    · cases hnew
    · rename_i hfree
      rw [if_neg hfree]
      simp only [Std.ExtTreeMap.getElem?_insert, Std.LawfulEqOrd.compare_eq_iff_eq]
  unfold findAt?
  rw [hkeys]
  split
  · exact (hfind r.principal).trans (if_pos rfl)
  · cases hkey : t.byAclKey[key]? with
    | none => rfl
    | some p =>
      obtain ⟨r', hr', -⟩ := h.byAclKey key p hkey
      refine (hfind p).trans (if_neg ?_)
      rintro rfl
      exact Option.some_ne_none r' (hr'.symm.trans (fst_add.mp hnew).1)

/-- A new title changes the registration at its key, and that only in its title. -/
theorem find?_retitle (h : t.Consistent) (key : AclKey) (title : String) (p : Principal) :
    (t.retitle key title).2.find? p =
      (t.find? p).map fun r => if r.aclKey = key then { r with title } else r := by
  have hother : ∀ q, t.byAclKey[key]? ≠ some q → (t.find? q).map
      (fun r => if r.aclKey = key then { r with title } else r) = t.find? q := by
    intro q hq
    cases hr : t.find? q with
    | none => rfl
    | some r =>
      have hkey : r.aclKey ≠ key := by
        rintro rfl
        exact hq (h.byPrincipal q r hr).2
      simp [hkey]
  unfold retitle
  cases hq : t.byAclKey[key]? with
  | none => exact (hother p (by simp [hq])).symm
  | some q =>
    obtain ⟨r, hr, hkey⟩ := h.byAclKey key q hq
    have hfind : t.find? q = some r := hr
    simp only [hfind]
    show (t.byPrincipal.insert q { r with title })[p]? = _
    rw [Std.ExtTreeMap.getElem?_insert]
    simp only [Std.LawfulEqOrd.compare_eq_iff_eq]
    split
    · rename_i he
      rw [← he, hfind]
      simp [hkey]
    · rename_i hne
      exact (hother p fun he => hne (Option.some.inj (hq.symm.trans he))).symm

theorem find?_remove (t : Directory) (p q : Principal) :
    (t.remove p).2.find? q = if p = q then none else t.find? q := by
  unfold remove
  split
  · unfold find?
    simp only [Std.ExtTreeMap.getElem?_erase, Std.LawfulEqOrd.compare_eq_iff_eq]
  · rename_i h
    exact eq_ite_none h q

/-- Some principal is registered at a key. -/
def Knows (t : Directory) (key : AclKey) : Prop :=
  ∃ (p : Principal) (r : Registration), t.find? p = some r ∧ r.aclKey = key

theorem knows_iff (h : t.Consistent) {key : AclKey} :
    t.Knows key ↔ ∃ r, t.findAt? key = some r := by
  constructor
  · rintro ⟨p, r, hr, rfl⟩
    obtain rfl := principal_of_find? h hr
    exact ⟨r, (findAt?_eq_some_iff h).mpr ⟨hr, rfl⟩⟩
  · rintro ⟨r, hr⟩
    exact ⟨r.principal, r, (findAt?_eq_some_iff h).mp hr⟩

theorem knows_add {key : AclKey} (r : Registration) (hkey : t.Knows key) :
    (t.add r).2.Knows key := by
  cases h : (t.add r).1 with
  | false => exact (add_of_fst_eq_false h).symm ▸ hkey
  | true =>
    obtain ⟨p, r', hr', he⟩ := hkey
    have hne : r.principal ≠ p := by
      rintro rfl
      rw [(fst_add.mp h).1] at hr'
      cases hr'
    exact ⟨p, r', by rw [find?_add h, if_neg hne, hr'], he⟩

theorem knows_retitle (h : t.Consistent) {key : AclKey} (other : AclKey) (title : String)
    (hkey : t.Knows key) : (t.retitle other title).2.Knows key := by
  obtain ⟨p, r, hr, he⟩ := hkey
  refine ⟨p, if r.aclKey = other then { r with title } else r, ?_, ?_⟩
  · rw [find?_retitle h, hr]
    rfl
  · split <;> exact he

theorem knows_remove {key : AclKey} {p : Principal} {r : Registration} (hp : t.find? p = some r)
    (hkey : t.Knows key) (hne : key ≠ r.aclKey) : (t.remove p).2.Knows key := by
  obtain ⟨q, r', hr', he⟩ := hkey
  have hq : p ≠ q := by
    rintro rfl
    rw [hp] at hr'
    cases hr'
    exact hne he.symm
  exact ⟨q, r', by rw [find?_remove, if_neg hq, hr'], he⟩

theorem not_knows_remove (h : t.Consistent) {p : Principal} {r : Registration}
    (hp : t.find? p = some r) : ¬ (t.remove p).2.Knows r.aclKey := by
  rintro ⟨q, r', hr', hkey⟩
  rw [find?_remove] at hr'
  split at hr'
  · cases hr'
  · rename_i hne
    have hthere := (h.byPrincipal p r hp).2
    have hthere' := (h.byPrincipal q r' hr').2
    rw [hkey, hthere] at hthere'
    exact hne (Option.some.inj hthere')

/-! ### Every directory -/

/-- The ways in which the directory is changed. -/
inductive Change where
  | add (r : Registration)
  | retitle (key : AclKey) (title : String)
  | remove (p : Principal)

/-- The directory after a change. -/
def Change.apply (t : Directory) : Change → Directory
  | add r => (t.add r).2
  | retitle key title => (t.retitle key title).2
  | remove p => (t.remove p).2

/-- The directory after a sequence of changes, beginning without principals. -/
def after (changes : List Change) : Directory := changes.foldl Change.apply empty

theorem consistent_apply (h : t.Consistent) : ∀ c : Change, (c.apply t).Consistent
  | .add r => consistent_add h r
  | .retitle key title => consistent_retitle h key title
  | .remove p => consistent_remove h p

/-- Whoever's key is known after a change was known before, or is who the change adds. -/
theorem knows_of_apply {c : Change} {key : AclKey} (h : (c.apply t).Knows key) :
    t.Knows key ∨ ∃ r, c = .add r ∧ r.aclKey = key := by
  obtain ⟨p, r, hr, rfl⟩ := h
  cases c with
  | add new =>
    change (t.add new).2.find? p = some r at hr
    cases hnew : (t.add new).1 with
    | false =>
      rw [add_of_fst_eq_false hnew] at hr
      exact .inl ⟨p, r, hr, rfl⟩
    | true =>
      rw [find?_add hnew] at hr
      split at hr
      · obtain rfl := Option.some.inj hr
        exact .inr ⟨new, rfl, rfl⟩
      · exact .inl ⟨p, r, hr, rfl⟩
  | retitle key title =>
    change (t.retitle key title).2.find? p = some r at hr
    unfold retitle at hr
    split at hr
    · exact .inl ⟨p, r, hr, rfl⟩
    · rename_i q _
      split at hr
      · exact .inl ⟨p, r, hr, rfl⟩
      · rename_i old hold
        change (t.byPrincipal.insert q { old with title })[p]? = some r at hr
        rw [Std.ExtTreeMap.getElem?_insert] at hr
        split at hr
        · obtain rfl := Option.some.inj hr
          exact .inl ⟨q, old, hold, rfl⟩
        · exact .inl ⟨p, r, hr, rfl⟩
  | remove q =>
    change (t.remove q).2.find? p = some r at hr
    rw [find?_remove] at hr
    split at hr
    · cases hr
    · exact .inl ⟨p, r, hr, rfl⟩

theorem consistent_foldl_apply : ∀ (cs : List Change) {t : Directory}, t.Consistent →
    (cs.foldl Change.apply t).Consistent
  | [], _, h => h
  | c :: cs, _, h => consistent_foldl_apply cs (consistent_apply h c)

/-- The two sides of every directory that changes lead to agree. -/
theorem consistent_after (cs : List Change) : (after cs).Consistent :=
  consistent_foldl_apply cs consistent_empty

end Directory
end AccessRegistry
