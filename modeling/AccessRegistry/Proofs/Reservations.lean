/-
# Names and identifiers are bound one to one

The table of reservations is kept by name and by identifier, and its changes go to one
side after the other. In every table that changes lead to, a name is bound to an
identifier exactly if the record of the identifier has that name (`idOf?_eq_some_iff`),
so that what a change does to one side tells what it does to the other.

Key definitions: `Reservations.OneToOne`, `Reservations.Renamed`, `Reservations.Change`.
Key theorems: `Reservations.idOf?_eq_some_iff`, `Reservations.oneToOne_apply`,
`Reservations.renamed_rename`, `Reservations.find?_deleteIds`,
`Reservations.find?_deleteNames`, `Reservations.fst_deleteIds`,
`Reservations.fst_deleteNames`, `Reservations.reserved_of_apply`.
-/
import AccessRegistry.Proofs.Collections
import AccessRegistry.Table.Reservations

namespace AccessRegistry
namespace Reservations

/-- Both sides tell of the same bindings, each under its own name and identifier. -/
structure OneToOne (t : Reservations) : Prop where
  byName : ∀ (name : String) (id : Identifier), t.idOf? name = some id →
    ∃ r : Reservation, t.find? id = some r ∧ r.name = name
  byId : ∀ (id : Identifier) (r : Reservation), t.find? id = some r →
    r.id = id ∧ t.idOf? r.name = some id

variable {t t' : Reservations} {id : Identifier} {name : String} {r : Reservation}

/-- A name is bound to an identifier exactly if the identifier's record has it. -/
theorem idOf?_eq_some_iff (h : t.OneToOne) :
    t.idOf? name = some id ↔ ∃ r, t.find? id = some r ∧ r.name = name ∧ r.id = id := by
  constructor
  · intro hid
    obtain ⟨r, hr, hname⟩ := h.byName name id hid
    exact ⟨r, hr, hname, (h.byId id r hr).1⟩
  · rintro ⟨r, hr, rfl, -⟩
    exact (h.byId id r hr).2

/-- The names of a record are those that are bound to its identifier. -/
theorem name_eq_iff (h : t.OneToOne) (hr : t.find? id = some r) :
    r.name = name ↔ t.idOf? name = some id := by
  constructor
  · rintro rfl
    exact (h.byId id r hr).2
  · intro hid
    obtain ⟨r', hr', hname⟩ := h.byName name id hid
    rw [hr] at hr'
    exact Option.some.inj hr' ▸ hname

theorem mem_byName_iff : name ∈ t.byName ↔ (t.idOf? name).isSome :=
  Std.ExtTreeMap.mem_iff_isSome_getElem?

theorem find?_mk_insert (byName : Std.ExtTreeMap String Identifier) (x : Identifier) :
    find? ⟨byName, t.byId.insert id r⟩ x = if id = x then some r else t.find? x := by
  unfold find?
  rw [Std.ExtTreeMap.getElem?_insert]
  simp only [Std.LawfulEqOrd.compare_eq_iff_eq]

theorem find?_mk_erase (byName : Std.ExtTreeMap String Identifier) (x : Identifier) :
    find? ⟨byName, t.byId.erase id⟩ x = if id = x then none else t.find? x := by
  unfold find?
  rw [Std.ExtTreeMap.getElem?_erase]
  simp only [Std.LawfulEqOrd.compare_eq_iff_eq]

theorem idOf?_mk_insert (byId : Std.ExtTreeMap Identifier Reservation) (n : String) :
    idOf? ⟨t.byName.insert name id, byId⟩ n = if name = n then some id else t.idOf? n := by
  unfold idOf?
  rw [Std.ExtTreeMap.getElem?_insert]
  simp only [Std.LawfulEqOrd.compare_eq_iff_eq]

theorem idOf?_mk_erase (byId : Std.ExtTreeMap Identifier Reservation) (n : String) :
    idOf? ⟨t.byName.erase name, byId⟩ n = if name = n then none else t.idOf? n := by
  unfold idOf?
  rw [Std.ExtTreeMap.getElem?_erase]
  simp only [Std.LawfulEqOrd.compare_eq_iff_eq]

/-! ### Inserting -/

theorem isFree_iff : t.isFree r = true ↔ t.idOf? r.name = none ∧ t.find? r.id = none := by
  unfold isFree
  rw [Bool.and_eq_true, Option.isNone_iff_eq_none, Option.isNone_iff_eq_none]

theorem insert?_eq_some (h : t.insert? r = some t') :
    (t.idOf? r.name = none ∧ t.find? r.id = none) ∧
      t' = ⟨t.byName.insert r.name r.id, t.byId.insert r.id r⟩ := by
  unfold insert? at h
  split at h
  · rename_i hfree
    exact ⟨isFree_iff.mp hfree, (Option.some.inj h).symm⟩
  · cases h

theorem isSome_insert? :
    (t.insert? r).isSome ↔ t.idOf? r.name = none ∧ t.find? r.id = none := by
  rw [← isFree_iff]
  unfold insert?
  split <;> simp_all

theorem find?_insert (h : t.insert? r = some t') (x : Identifier) :
    t'.find? x = if r.id = x then some r else t.find? x := by
  rw [(insert?_eq_some h).2]
  exact find?_mk_insert _ x

theorem idOf?_insert (h : t.insert? r = some t') (n : String) :
    t'.idOf? n = if r.name = n then some r.id else t.idOf? n := by
  rw [(insert?_eq_some h).2]
  exact idOf?_mk_insert _ n

theorem oneToOne_insert (h : t.OneToOne) (hr : t.insert? r = some t') : t'.OneToOne := by
  obtain ⟨⟨hname, hid⟩, -⟩ := insert?_eq_some hr
  constructor
  · intro n x hx
    rw [idOf?_insert hr] at hx
    rw [find?_insert hr]
    split at hx
    · rename_i hn
      rw [if_pos (Option.some.inj hx)]
      exact ⟨r, rfl, hn⟩
    · obtain ⟨r', hr', hn⟩ := h.byName n x hx
      have hne : r.id ≠ x := by
        rintro rfl
        rw [hid] at hr'
        cases hr'
      rw [if_neg hne]
      exact ⟨r', hr', hn⟩
  · intro x r' hr'
    rw [find?_insert hr] at hr'
    rw [idOf?_insert hr]
    split at hr'
    · rename_i hx
      cases hr'
      exact ⟨hx, by rw [if_pos rfl, hx]⟩
    · obtain ⟨hx, hn⟩ := h.byId x r' hr'
      have hne : r.name ≠ r'.name := by
        intro he
        rw [← he, hname] at hn
        cases hn
      rw [if_neg hne]
      exact ⟨hx, hn⟩

/-! ### Renaming -/

/-- One table is another one in which an identifier has a new name and its record keeps
all else. -/
structure Renamed (t t' : Reservations) (id : Identifier) (name : String) : Prop where
  find? : ∀ x, t'.find? x =
    if id = x then (t.find? id).map fun r => { r with name } else t.find? x
  idOf? : ∀ n, t'.idOf? n =
    if name = n then some id else if t.idOf? n = some id then none else t.idOf? n

theorem rename_missing (h : t.find? id = none) : t.rename id name = .ok (false, t) := by
  unfold rename
  rw [h]

theorem rename_same (h : t.find? id = some r) (hname : r.name = name) :
    t.rename id name = .ok (true, t) := by
  unfold rename
  simp only [h, if_pos hname]

theorem rename_bound (h : t.find? id = some r) (name : String) :
    (∃ t', t.rename id name = .ok (true, t')) ∨ ∃ e, t.rename id name = .error e := by
  unfold rename
  simp only [h]
  split
  · exact Or.inl ⟨t, rfl⟩
  · split
    · exact Or.inr ⟨_, rfl⟩
    · exact Or.inl ⟨_, rfl⟩

theorem rename_taken (ht : t.OneToOne) (h : t.find? id = some r) {other : Identifier}
    (hother : t.idOf? name = some other) (hne : other ≠ id) :
    t.rename id name = .error (.nameTaken name) := by
  have hname : r.name ≠ name := by
    rw [Ne, name_eq_iff ht h, hother]
    exact fun he => hne (Option.some.inj he)
  have hmem : name ∈ t.byName := mem_byName_iff.mpr (Option.isSome_of_eq_some hother)
  unfold rename
  simp only [h, if_neg hname, if_pos hmem]

/-- A name that nobody has is given, and the old one is free. -/
theorem renamed_rename (ht : t.OneToOne) (h : t.find? id = some r) (hfree : t.idOf? name = none) :
    ∃ t', t.rename id name = .ok (true, t') ∧ t.Renamed t' id name := by
  have hname : r.name ≠ name := by
    rw [Ne, name_eq_iff ht h, hfree]
    exact (Option.some_ne_none id).symm
  have hmem : name ∉ t.byName := by
    rw [mem_byName_iff, hfree]
    exact Bool.false_ne_true
  refine ⟨⟨(t.byName.erase r.name).insert name id, t.byId.insert id { r with name }⟩, ?_, ?_, ?_⟩
  · unfold rename
    simp only [h, if_neg hname, if_neg hmem]
  · intro x
    rw [find?_mk_insert, h]
    rfl
  · intro n
    show idOf? ⟨(Reservations.mk (t.byName.erase r.name) t.byId).byName.insert name id, _⟩ n = _
    rw [idOf?_mk_insert, idOf?_mk_erase]
    simp only [name_eq_iff ht h]

theorem Renamed.oneToOne (ht : t.OneToOne) (h : t.find? id = some r) (hfree : t.idOf? name = none)
    (hr : t.Renamed t' id name) : t'.OneToOne := by
  constructor
  · intro n x hx
    rw [hr.idOf?] at hx
    rw [hr.find?]
    split at hx
    · rename_i hn
      rw [if_pos (Option.some.inj hx), h]
      exact ⟨_, rfl, hn⟩
    · split at hx
      · cases hx
      · rename_i hne
        have hx' : id ≠ x := fun he => hne (he ▸ hx)
        rw [if_neg hx']
        exact ht.byName n x hx
  · intro x r' hr'
    rw [hr.find?] at hr'
    rw [hr.idOf?]
    split at hr'
    · rename_i hx
      rw [h] at hr'
      cases hr'
      exact ⟨((ht.byId id r h).1).trans hx, by rw [if_pos rfl, hx]⟩
    · rename_i hx
      obtain ⟨hid, hn⟩ := ht.byId x r' hr'
      have hne : name ≠ r'.name := by
        rintro rfl
        rw [hn] at hfree
        cases hfree
      have hne' : t.idOf? r'.name ≠ some id := by
        rw [hn]
        exact fun he => hx (Option.some.inj he).symm
      rw [if_neg hne, if_neg hne']
      exact ⟨hid, hn⟩

/-- What a renaming can come to. -/
theorem rename_cases (ht : t.OneToOne) (id : Identifier) (name : String) :
    (∃ found, t.rename id name = .ok (found, t)) ∨
      t.rename id name = .error (.nameTaken name) ∨
      ∃ r t', t.find? id = some r ∧ t.idOf? name = none ∧ t.rename id name = .ok (true, t') ∧
        t.Renamed t' id name := by
  cases hr : t.find? id with
  | none => exact Or.inl ⟨false, rename_missing hr⟩
  | some r =>
    cases hn : t.idOf? name with
    | none =>
      obtain ⟨t', ht', hrenamed⟩ := renamed_rename ht hr hn
      exact Or.inr (Or.inr ⟨r, t', rfl, rfl, ht', hrenamed⟩)
    | some other =>
      by_cases hother : other = id
      · subst hother
        exact Or.inl ⟨true, rename_same hr ((name_eq_iff ht hr).mpr hn)⟩
      · exact Or.inr (Or.inl (rename_taken ht hr hn hother))

theorem renameByName_bound (h : t.idOf? name = some id) (new : String) :
    t.renameByName name new = t.rename id new := by
  unfold renameByName
  rw [h]

theorem renameByName_unbound (h : t.idOf? name = none) (new : String) :
    t.renameByName name new = .ok (false, t) := by
  unfold renameByName
  rw [h]

/-- Who renames a name a second time finds nothing more to do. -/
theorem renameByName_twice (ht : t.OneToOne) {old new : String} {found : Bool}
    (h : t.renameByName old new = .ok (found, t')) :
    ∃ found', t'.renameByName old new = .ok (found', t') := by
  cases hid : t.idOf? old with
  | none =>
    rw [renameByName_unbound hid] at h
    cases h
    exact ⟨_, renameByName_unbound hid new⟩
  | some id =>
    rw [renameByName_bound hid] at h
    rcases rename_cases ht id new with ⟨found', h'⟩ | h' | ⟨r, t₁, -, hfree, h', hrenamed⟩
    · rw [h'] at h
      cases h
      exact ⟨_, (renameByName_bound hid new).trans h'⟩
    · rw [h'] at h
      cases h
    · rw [h'] at h
      cases h
      have hne : new ≠ old := by
        rintro rfl
        rw [hid] at hfree
        cases hfree
      refine ⟨false, renameByName_unbound ?_ new⟩
      rw [hrenamed.idOf?, if_neg hne, if_pos hid]

theorem oneToOne_rename (ht : t.OneToOne) {found : Bool} (h : t.rename id name = .ok (found, t')) :
    t'.OneToOne := by
  rcases rename_cases ht id name with ⟨found', h'⟩ | h' | ⟨r, t₁, hr, hfree, h', hrenamed⟩
  · rw [h'] at h
    cases h
    exact ht
  · rw [h'] at h
    cases h
  · rw [h'] at h
    cases h
    exact hrenamed.oneToOne ht hr hfree

/-! ### Deleting -/

theorem find?_delete (t : Reservations) (id x : Identifier) :
    (t.delete id).2.find? x = if id = x then none else t.find? x := by
  unfold delete
  split
  · exact find?_mk_erase _ x
  · rename_i h
    exact eq_ite_none h x

theorem idOf?_delete (ht : t.OneToOne) (id : Identifier) (n : String) :
    (t.delete id).2.idOf? n = if t.idOf? n = some id then none else t.idOf? n := by
  unfold delete
  split
  · rename_i r hr
    rw [idOf?_mk_erase]
    simp only [name_eq_iff ht hr]
  · rename_i hr
    rw [if_neg]
    intro hn
    obtain ⟨r', hr', -⟩ := ht.byName n id hn
    rw [hr] at hr'
    cases hr'

theorem oneToOne_delete (ht : t.OneToOne) (id : Identifier) : (t.delete id).2.OneToOne := by
  constructor
  · intro n x hx
    rw [idOf?_delete ht] at hx
    split at hx
    · cases hx
    · rename_i hne
      have hx' : id ≠ x := fun he => hne (he ▸ hx)
      rw [find?_delete, if_neg hx']
      exact ht.byName n x hx
  · intro x r hr
    rw [find?_delete] at hr
    split at hr
    · cases hr
    · rename_i hne
      obtain ⟨hid, hn⟩ := ht.byId x r hr
      rw [idOf?_delete ht, hn, if_neg fun he => hne (Option.some.inj he).symm]
      exact ⟨hid, rfl⟩

theorem fst_delete_add_size (t : Reservations) (id : Identifier) :
    (t.delete id).1.toNat + (t.delete id).2.byId.size = t.byId.size := by
  unfold delete
  cases hr : t.find? id with
  | none => simp
  | some r =>
    have hin : t.byId.contains id = true := by
      rw [Std.ExtTreeMap.contains_eq_isSome_getElem?]
      exact Option.isSome_of_eq_some hr
    have hpos : t.byId.size ≠ 0 := by
      intro h0
      rw [Std.ExtTreeMap.eq_empty_iff_size_eq_zero.mpr h0] at hin
      simp at hin
    have hsize := Std.ExtTreeMap.size_erase (t := t.byId) (k := id)
    rw [if_pos hin] at hsize
    simp only [Bool.toNat_true, hsize]
    omega

theorem find?_deleteIds : ∀ (ids : List Identifier) (t : Reservations) (x : Identifier),
    (deleteIds ids t).2.find? x = if x ∈ ids then none else t.find? x
  | [], _, _ => by simp [deleteIds]
  | id :: ids, t, x => by
    have ih := find?_deleteIds ids (t.delete id).2 x
    rw [find?_delete] at ih
    simp only [deleteIds, List.mem_cons]
    rw [ih]
    by_cases hx : id = x
    · simp [hx]
    · simp [hx, Ne.symm hx]

theorem oneToOne_deleteIds : ∀ (ids : List Identifier) {t : Reservations}, t.OneToOne →
    (deleteIds ids t).2.OneToOne
  | [], _, ht => ht
  | id :: ids, _, ht => oneToOne_deleteIds ids (oneToOne_delete ht id)

theorem idOf?_deleteIds : ∀ (ids : List Identifier) {t : Reservations}, t.OneToOne →
    ∀ n, (deleteIds ids t).2.idOf? n = (t.idOf? n).filter (· ∉ ids)
  | [], t, _, n => by
    show t.idOf? n = _
    cases t.idOf? n <;> simp [Option.filter_some]
  | id :: ids, t, ht, n => by
    have ih := idOf?_deleteIds ids (oneToOne_delete ht id) n
    rw [idOf?_delete ht] at ih
    refine ih.trans ?_
    cases t.idOf? n with
    | none => simp
    | some x =>
      by_cases hx : x = id
      · simp [Option.filter_some, hx]
      · simp [Option.filter_some, hx]

theorem fst_deleteIds_add_size : ∀ (ids : List Identifier) (t : Reservations),
    (deleteIds ids t).1 + (deleteIds ids t).2.byId.size = t.byId.size
  | [], _ => Nat.zero_add _
  | id :: ids, t => by
    have hone := fst_delete_add_size t id
    have ih := fst_deleteIds_add_size ids (t.delete id).2
    simp only [deleteIds]
    omega

/-- What is counted is what goes: the records of the identifiers, each of them once. -/
theorem fst_deleteIds (ids : List Identifier) (t : Reservations) :
    (deleteIds ids t).1 = t.byId.toList.countP fun e => e.1 ∈ ids := by
  have hleft : ∀ x, (deleteIds ids t).2.byId[x]? = t.byId[x]?.filter fun _ => x ∉ ids := by
    intro x
    refine (find?_deleteIds ids t x).trans ?_
    show _ = (t.find? x).filter _
    by_cases hx : x ∈ ids
    · cases t.find? x <;> simp [Option.filter_some, hx]
    · cases t.find? x <;> simp [Option.filter_some, hx]
  have hcount := countP_add_size (fun x _ => x ∈ ids) hleft
  have hsize := fst_deleteIds_add_size ids t
  omega

theorem deleteName_bound (h : t.idOf? name = some id) : t.deleteName name = t.delete id := by
  unfold deleteName
  rw [h]

theorem deleteName_unbound (h : t.idOf? name = none) : t.deleteName name = (false, t) := by
  unfold deleteName
  rw [h]

theorem idOf?_deleteName (ht : t.OneToOne) (name n : String) :
    (t.deleteName name).2.idOf? n = if name = n then none else t.idOf? n := by
  cases hid : t.idOf? name with
  | none =>
    rw [deleteName_unbound hid]
    exact eq_ite_none hid n
  | some id =>
    obtain ⟨r, hr, rfl⟩ := ht.byName name id hid
    rw [deleteName_bound hid, idOf?_delete ht]
    simp only [name_eq_iff ht hr]

theorem find?_deleteName (ht : t.OneToOne) (name : String) (x : Identifier) :
    (t.deleteName name).2.find? x = (t.find? x).filter fun r => r.name ≠ name := by
  cases hid : t.idOf? name with
  | none =>
    rw [deleteName_unbound hid]
    cases hr : t.find? x with
    | none => rfl
    | some r =>
      have hne : r.name ≠ name := by
        rw [Ne, name_eq_iff ht hr, hid]
        exact (Option.some_ne_none x).symm
      simp [Option.filter_some, hne]
  | some id =>
    obtain ⟨r, hr, hname⟩ := ht.byName name id hid
    rw [deleteName_bound hid, find?_delete]
    split
    · rename_i hx
      rw [← hx, hr]
      simp [Option.filter_some, hname]
    · rename_i hx
      cases hr' : t.find? x with
      | none => rfl
      | some r' =>
        have hne : r'.name ≠ name := by
          rw [Ne, name_eq_iff ht hr', hid]
          exact fun he => hx (Option.some.inj he)
        simp [Option.filter_some, hne]

theorem oneToOne_deleteName (ht : t.OneToOne) (name : String) :
    (t.deleteName name).2.OneToOne := by
  cases hid : t.idOf? name with
  | none => exact deleteName_unbound hid ▸ ht
  | some id => exact deleteName_bound hid ▸ oneToOne_delete ht id

theorem fst_deleteName_add_size (t : Reservations) (name : String) :
    (t.deleteName name).1.toNat + (t.deleteName name).2.byId.size = t.byId.size := by
  cases hid : t.idOf? name with
  | none => simp [deleteName_unbound hid]
  | some id => rw [deleteName_bound hid, fst_delete_add_size]

theorem idOf?_deleteNames : ∀ (names : List String) {t : Reservations}, t.OneToOne →
    ∀ n, (deleteNames names t).2.idOf? n = if n ∈ names then none else t.idOf? n
  | [], _, _, _ => by simp [deleteNames]
  | name :: names, t, ht, n => by
    have ih := idOf?_deleteNames names (oneToOne_deleteName ht name) n
    rw [idOf?_deleteName ht] at ih
    simp only [deleteNames, List.mem_cons]
    rw [ih]
    by_cases hn : name = n
    · simp [hn]
    · simp [hn, Ne.symm hn]

/-- The records that go are those of the names that go. -/
theorem find?_deleteNames : ∀ (names : List String) {t : Reservations}, t.OneToOne →
    ∀ x, (deleteNames names t).2.find? x = (t.find? x).filter fun r => r.name ∉ names
  | [], t, _, x => by
    show t.find? x = _
    cases t.find? x <;> simp [Option.filter_some]
  | name :: names, t, ht, x => by
    have ih := find?_deleteNames names (oneToOne_deleteName ht name) x
    rw [find?_deleteName ht] at ih
    refine ih.trans ?_
    cases t.find? x with
    | none => rfl
    | some r =>
      by_cases hn : r.name = name
      · simp [Option.filter_some, hn]
      · simp [Option.filter_some, hn]

theorem oneToOne_deleteNames : ∀ (names : List String) {t : Reservations}, t.OneToOne →
    (deleteNames names t).2.OneToOne
  | [], _, ht => ht
  | name :: names, _, ht => oneToOne_deleteNames names (oneToOne_deleteName ht name)

theorem fst_deleteNames_add_size : ∀ (names : List String) (t : Reservations),
    (deleteNames names t).1 + (deleteNames names t).2.byId.size = t.byId.size
  | [], _ => Nat.zero_add _
  | name :: names, t => by
    have hone := fst_deleteName_add_size t name
    have ih := fst_deleteNames_add_size names (t.deleteName name).2
    simp only [deleteNames]
    omega

theorem fst_deleteNames (names : List String) (ht : t.OneToOne) :
    (deleteNames names t).1 = t.byId.toList.countP fun e => e.2.name ∈ names := by
  have hcount := countP_add_size (fun _ (r : Reservation) => r.name ∈ names)
    (find?_deleteNames names ht)
  have hsize := fst_deleteNames_add_size names t
  omega

/-! ### Every change -/

/-- The ways in which the reservations are changed. -/
inductive Change where
  | reserve (r : Reservation)
  | renameByName (old new : String)
  | renameById (id : Identifier) (new : String)
  | deleteNames (names : List String)
  | deleteIds (ids : List Identifier)

/-- The table after an answer to a renaming; one that is refused changes nothing. -/
def answered (t : Reservations) : Except StoreError (Bool × Reservations) → Reservations
  | .ok (_, t') => t'
  | .error _ => t

/-- The table after a change. -/
def Change.apply (t : Reservations) : Change → Reservations
  | reserve r => (t.insert? r).getD t
  | renameByName old new => t.answered (t.renameByName old new)
  | renameById id new => t.answered (t.rename id new)
  | deleteNames names => (Reservations.deleteNames names t).2
  | deleteIds ids => (Reservations.deleteIds ids t).2

theorem oneToOne_empty : empty.OneToOne where
  byName name id h := by simp [empty, idOf?] at h
  byId id r h := by simp [empty, find?] at h

theorem oneToOne_answered (ht : t.OneToOne) (id : Identifier) (name : String) :
    (t.answered (t.rename id name)).OneToOne := by
  cases h : t.rename id name with
  | error e => exact ht
  | ok found => exact oneToOne_rename ht h

/-- Every change keeps names and identifiers bound one to one. -/
theorem oneToOne_apply (ht : t.OneToOne) (c : Change) : (c.apply t).OneToOne := by
  cases c with
  | reserve r =>
    show ((t.insert? r).getD t).OneToOne
    cases h : t.insert? r with
    | none => exact ht
    | some t' => exact oneToOne_insert ht h
  | renameByName old new =>
    show (t.answered (t.renameByName old new)).OneToOne
    cases hid : t.idOf? old with
    | none => exact renameByName_unbound hid new ▸ ht
    | some id => exact renameByName_bound hid new ▸ oneToOne_answered ht id new
  | renameById id new => exact oneToOne_answered ht id new
  | deleteNames names => exact oneToOne_deleteNames names ht
  | deleteIds ids => exact oneToOne_deleteIds ids ht

theorem find?_of_deleteNames : ∀ (names : List String) {t : Reservations} {v : Reservation},
    (deleteNames names t).2.find? id = some v → t.find? id = some v
  | [], _, _, h => h
  | name :: names, t, v, h => by
    have hone : (t.deleteName name).2.find? id = some v := find?_of_deleteNames names h
    cases hid : t.idOf? name with
    | none => rwa [deleteName_unbound hid] at hone
    | some other =>
      rw [deleteName_bound hid, find?_delete] at hone
      split at hone
      · cases hone
      · exact hone

theorem find?_of_answered {v : Reservation} {other : Identifier} {name : String}
    (h : (t.answered (t.rename other name)).find? id = some v) :
    ∃ v', t.find? id = some v' ∧ v'.aclKey = v.aclKey := by
  unfold rename at h
  split at h
  · exact ⟨v, h, rfl⟩
  · rename_i r hr
    split at h
    · exact ⟨v, h, rfl⟩
    · split at h
      · exact ⟨v, h, rfl⟩
      · change find? ⟨_, t.byId.insert other { r with name }⟩ id = some v at h
        rw [find?_mk_insert] at h
        split at h
        · rename_i he
          obtain rfl := Option.some.inj h
          exact ⟨r, he ▸ hr, rfl⟩
        · exact ⟨v, h, rfl⟩

/-- Whatever is reserved after a change was reserved for the same key before, or it is what
the change reserves. -/
theorem reserved_of_apply {c : Change} {v : Reservation} (h : (c.apply t).find? id = some v) :
    (∃ v', t.find? id = some v' ∧ v'.aclKey = v.aclKey) ∨ c = .reserve v ∧ v.id = id := by
  cases c with
  | reserve r =>
    change ((t.insert? r).getD t).find? id = some v at h
    cases hins : t.insert? r with
    | none =>
      rw [hins] at h
      exact .inl ⟨v, h, rfl⟩
    | some t' =>
      rw [hins, Option.getD_some, find?_insert hins] at h
      split at h
      · rename_i he
        obtain rfl := Option.some.inj h
        exact .inr ⟨rfl, he⟩
      · exact .inl ⟨v, h, rfl⟩
  | renameByName old new =>
    change (t.answered (t.renameByName old new)).find? id = some v at h
    cases hold : t.idOf? old with
    | none =>
      rw [renameByName_unbound hold] at h
      exact .inl ⟨v, h, rfl⟩
    | some other =>
      rw [renameByName_bound hold] at h
      exact .inl (find?_of_answered h)
  | renameById other new => exact .inl (find?_of_answered h)
  | deleteNames names => exact .inl ⟨v, find?_of_deleteNames names h, rfl⟩
  | deleteIds ids =>
    rw [Change.apply, find?_deleteIds] at h
    split at h
    · cases h
    · exact .inl ⟨v, h, rfl⟩

/-- A reservation that was made and released again leaves nothing behind. -/
theorem deleteIds_insert (h : t.insert? r = some t') : (deleteIds [r.id] t').2 = t := by
  obtain ⟨⟨hname, hid⟩, rfl⟩ := insert?_eq_some h
  have hfind : find? ⟨t.byName.insert r.name r.id, t.byId.insert r.id r⟩ r.id = some r := by
    rw [find?_mk_insert, if_pos rfl]
  show (delete ⟨t.byName.insert r.name r.id, t.byId.insert r.id r⟩ r.id).2 = t
  unfold delete
  rw [hfind]
  ext1
  · apply Std.ExtTreeMap.ext_getElem?
    intro n
    simp only [Std.ExtTreeMap.getElem?_erase, Std.ExtTreeMap.getElem?_insert,
      Std.LawfulEqOrd.compare_eq_iff_eq]
    split
    · rename_i he
      exact he ▸ hname.symm
    · rfl
  · apply Std.ExtTreeMap.ext_getElem?
    intro x
    simp only [Std.ExtTreeMap.getElem?_erase, Std.ExtTreeMap.getElem?_insert,
      Std.LawfulEqOrd.compare_eq_iff_eq]
    split
    · rename_i he
      exact he ▸ hid.symm
    · rfl

end Reservations
end AccessRegistry
