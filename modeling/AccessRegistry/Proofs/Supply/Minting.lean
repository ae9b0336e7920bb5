/-
# Minting is always fresh

An identifier is behind the cursors if its counter is smaller than the next one of its
partition. Scrolling gives only identifiers that were not behind the cursors, each of them
once, and leaves them behind; nothing that was behind comes before the cursors again.

Key definitions: `Cursors.Filed`, `Cursors.Behind`, `Cursors.Mints`.
Key theorems: `Cursors.mints_scroll`, `Cursors.filed_iff_saves`.
-/
import Mathlib.Data.List.Nodup
import AccessRegistry.Proofs.Collections
import AccessRegistry.Proofs.Identifier
import AccessRegistry.Table.Cursors

namespace AccessRegistry.Cursors

open Std (ExtTreeMap)

variable {t : Cursors} {p q : Partition} {c : Cursor}

/-- Every cursor is filed under its own partition. -/
def Filed (t : Cursors) : Prop := ∀ (p : Partition) (c : Cursor), t[p]? = some c → c.partition = p

theorem filed_empty : Filed ∅ := by
  intro p c h
  simp at h

theorem filed_insert (h : t.Filed) (hc : c.partition = p) : Filed (t.insert p c) := by
  intro q c' hc'
  rw [ExtTreeMap.getElem?_insert] at hc'
  simp only [Std.LawfulEqOrd.compare_eq_iff_eq] at hc'
  split at hc'
  · rename_i hpq
    obtain rfl := Option.some.inj hc'
    rw [hc, hpq]
  · exact h q c' hc'

theorem filed_save (h : t.Filed) (c : Cursor) : (t.save c).Filed := filed_insert h rfl

theorem current_insert : current (t.insert p c) q = if p = q then c else t.current q := by
  unfold current
  rw [ExtTreeMap.getD_insert]
  simp only [Std.LawfulEqOrd.compare_eq_iff_eq]

theorem partition_current (h : t.Filed) (p : Partition) : (t.current p).partition = p := by
  unfold current
  rw [ExtTreeMap.getD_eq_getD_getElem?]
  cases hp : t[p]? with
  | none => exact Cursor.partition_start p
  | some c => exact h p c hp

/-- Cursors that were saved one after the other are those that are filed under their own
partitions. -/
theorem filed_iff_saves : t.Filed ↔ ∃ saved : List Cursor, saved.foldl save ∅ = t := by
  constructor
  · intro h
    refine ⟨t.toList.map Prod.snd, ?_⟩
    have hsave : (t.toList.map Prod.snd).foldl save ∅ =
        t.foldl (fun found p c => found.insert p c) ∅ := by
      rw [List.foldl_map, ExtTreeMap.foldl_eq_foldl_toList]
      refine List.foldl_ext _ _ _ fun found row hrow => ?_
      obtain ⟨p, c⟩ := row
      rw [save, h p c (ExtTreeMap.mem_toList_iff_getElem?_eq_some.mp hrow)]
    rw [hsave]
    apply ExtTreeMap.ext_getElem?
    intro p
    rw [getElem?_foldl_insert]
    simp
  · rintro ⟨saved, rfl⟩
    have hfold : ∀ (saved : List Cursor) (t : Cursors), t.Filed → (saved.foldl save t).Filed := by
      intro saved
      induction saved with
      | nil => exact fun _ h => h
      | cons c saved ih => exact fun t h => ih _ (filed_save h c)
    exact hfold saved ∅ filed_empty

theorem current_ensureOne : (t.ensureOne p).current q = t.current q := by
  unfold ensureOne current
  rw [ExtTreeMap.getD_insertIfNew]
  split
  · rename_i h
    obtain ⟨hpq, hp⟩ := h
    rw [Std.LawfulEqOrd.compare_eq_iff_eq] at hpq
    subst hpq
    rw [ExtTreeMap.getD_eq_fallback hp]
  · rfl

theorem filed_ensureOne (h : t.Filed) (p : Partition) : (t.ensureOne p).Filed := by
  intro q c hc
  unfold ensureOne at hc
  rw [ExtTreeMap.getElem?_insertIfNew] at hc
  split at hc
  · rename_i hpq
    rw [Std.LawfulEqOrd.compare_eq_iff_eq] at hpq
    obtain rfl := Option.some.inj hc
    rw [Cursor.partition_start, hpq.1]
  · exact h q c hc

theorem filed_ensure (h : t.Filed) (count : Nat) : (t.ensure count).Filed := by
  have hfold : ∀ (ps : List Partition) {t : Cursors}, t.Filed → (ps.foldl ensureOne t).Filed := by
    intro ps
    induction ps with
    | nil => exact fun h => h
    | cons p ps ih => exact fun h => ih (filed_ensureOne h p)
  exact hfold _ h

/-- Partitions that get their first cursors stay where they are. -/
theorem current_ensure (t : Cursors) (count : Nat) (q : Partition) :
    (t.ensure count).current q = t.current q := by
  have hfold : ∀ (ps : List Partition) (t : Cursors),
      (ps.foldl ensureOne t).current q = t.current q := by
    intro ps
    induction ps with
    | nil => exact fun t => rfl
    | cons p ps ih => exact fun t => (ih _).trans current_ensureOne
  exact hfold _ t

/-! ### Behind the cursors -/

/-- An identifier whose partition has come past it. -/
def Behind (t : Cursors) (id : Identifier) : Prop :=
  id.counter < (t.current id.partition).next.counter

/-- What a scroll does to the cursors: it gives fresh identifiers, each once, and leaves
them behind. -/
structure Mints (t t' : Cursors) (ids : List Identifier) : Prop where
  filed : t'.Filed
  nodup : ids.Nodup
  fresh : ∀ id ∈ ids, ¬ t.Behind id
  behind : ∀ id ∈ ids, t'.Behind id
  kept : ∀ id, t.Behind id → t'.Behind id

/-- One scroll after the other gives nothing twice. -/
theorem Mints.append {t t₁ t₂ : Cursors} {ids ids' : List Identifier} (h : Mints t t₁ ids)
    (h' : Mints t₁ t₂ ids') : Mints t t₂ (ids ++ ids') where
  filed := h'.filed
  nodup := List.nodup_append'.mpr
    ⟨h.nodup, h'.nodup, fun id hid hid' => h'.fresh id hid' (h.behind id hid)⟩
  fresh id hid := by
    rcases List.mem_append.mp hid with hid | hid
    · exact h.fresh id hid
    · exact fun hb => h'.fresh id hid (h.kept id hb)
  behind id hid := by
    rcases List.mem_append.mp hid with hid | hid
    · exact h'.kept id (h.behind id hid)
    · exact h'.behind id hid
  kept id hb := h'.kept id (h.kept id hb)

theorem mints_current (h : t.Filed) (p : Partition) : Mints t (t.insert p (t.current p)) [] where
  filed := filed_insert h (partition_current h p)
  nodup := List.nodup_nil
  fresh id hid := absurd hid List.not_mem_nil
  behind id hid := absurd hid List.not_mem_nil
  kept id hb := by
    unfold Behind
    rw [current_insert]
    by_cases hp : p = id.partition
    · rw [if_pos hp, hp]
      exact hb
    · rw [if_neg hp]
      exact hb

/-- One partition gives the identifiers from its cursor on. -/
theorem mints_advance (h : t.Filed) {count : Nat} {ids : List Identifier}
    (ha : (t.current p).advance? count = some (ids, c)) : Mints t (t.insert p c) ids := by
  obtain ⟨hlt, rfl, hcp, hc⟩ := Cursor.advance?_eq_some ha
  rw [partition_current h] at hcp ⊢
  have hcounter : ∀ i < count,
      (Identifier.ofParts p ((t.current p).next.counter + i)).counter =
        (t.current p).next.counter + i := by
    intro i hi
    rw [Identifier.counter_ofParts]
    exact Nat.mod_eq_of_lt (by omega)
  constructor
  · exact filed_insert h hcp
  · refine List.Nodup.map_on ?_ List.nodup_range
    intro i hi j hj hij
    have hsame := congrArg Identifier.counter hij
    rw [hcounter i (List.mem_range.mp hi), hcounter j (List.mem_range.mp hj)] at hsame
    omega
  · intro id hid
    obtain ⟨i, hi, rfl⟩ := List.mem_map.mp hid
    unfold Behind
    rw [Identifier.partition_ofParts, hcounter i (List.mem_range.mp hi)]
    omega
  · intro id hid
    obtain ⟨i, hi, rfl⟩ := List.mem_map.mp hid
    have hi := List.mem_range.mp hi
    unfold Behind
    rw [Identifier.partition_ofParts, current_insert, if_pos rfl, hcounter i hi, hc]
    omega
  · intro id hb
    unfold Behind at hb ⊢
    rw [current_insert]
    by_cases hp : p = id.partition
    · rw [if_pos hp, hc]
      rw [← hp] at hb
      omega
    · rw [if_neg hp]
      exact hb

/-- Scrolling is always fresh, whatever the partitions and their cursors are. -/
theorem mints_scroll (count : Nat) : ∀ (ps : List Partition) {t : Cursors}, t.Filed →
    Mints t (scroll count ps t).2 (scroll count ps t).1.ids
  | [], t, h => ⟨h, List.nodup_nil, fun _ hid => absurd hid List.not_mem_nil,
      fun _ hid => absurd hid List.not_mem_nil, fun _ hb => hb⟩
  | p :: ps, t, h => by
    unfold scroll
    cases ha : (t.current p).advance? count with
    | none =>
      have hone := mints_current h p
      exact hone.append (mints_scroll count ps hone.filed)
    | some found =>
      have hone := mints_advance h ha
      exact hone.append (mints_scroll count ps hone.filed)

end AccessRegistry.Cursors
