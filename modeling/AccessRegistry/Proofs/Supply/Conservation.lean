/-
# No identifier is made twice

Each event but minting moves identifiers from one place of a site to another, or loses
them; it never makes a copy. Minting makes identifiers that were not behind the cursors,
and all that is at the site is behind them (`Supply.Site.Sound`). So there is never more
than one copy of an identifier, in whichever order things happen.

Key definitions: `Supply.tally`, `Supply.Site.copies`, `Supply.Site.Sound`.
Key theorems: `Supply.Site.Step.moves`, `Supply.Site.sound_mint`, `Supply.Site.Step.sound`,
`Supply.Site.sound_run`.
-/
import AccessRegistry.Proofs.Supply.Minting
import AccessRegistry.Proofs.Supply.Site

namespace AccessRegistry

open Std (ExtTreeSet)

theorem count_head (id x : Identifier) (ids : List Identifier) :
    (id :: ids).count x = [id].count x + ids.count x := by
  rw [← List.singleton_append, List.count_append]

namespace Allocator

variable {a a' : Allocator} {id x : Identifier}

theorem count_take? (h : a.take? = some (id, a')) :
    a'.buffer.count x + [id].count x = a.buffer.count x := by
  rw [(take?_eq_some h).1, count_head id x a'.buffer]
  exact Nat.add_comm _ _

theorem count_giveBackOne (a : Allocator) (id x : Identifier) :
    (a.giveBackOne id).1.buffer.count x ≤ a.buffer.count x + [id].count x := by
  unfold giveBackOne
  split
  · exact Nat.le_add_right _ _
  · split
    · exact Nat.le_add_right _ _
    · exact Nat.le_of_eq List.count_append

/-- What is given back to a desk is in its buffer then, or nowhere. -/
theorem count_giveBack (x : Identifier) : ∀ (ids : List Identifier) (a : Allocator),
    (a.giveBack ids).1.buffer.count x ≤ a.buffer.count x + ids.count x
  | [], a => Nat.le_add_right _ _
  | id :: ids, a => by
    have hone := count_giveBackOne a id x
    have hrest := count_giveBack x ids (a.giveBackOne id).1
    have hcons := count_head id x ids
    calc (a.giveBack (id :: ids)).1.buffer.count x
        = ((a.giveBackOne id).1.giveBack ids).1.buffer.count x := rfl
      _ ≤ a.buffer.count x + (id :: ids).count x := by omega

end Allocator

namespace Queue

variable {q q' : Queue} {id x : Identifier}

theorem count_pop? (h : q.pop? = some (id, q')) :
    q'.items.count x + [id].count x = q.items.count x := by
  rw [pop?_eq_some h, count_head id x q'.items]
  exact Nat.add_comm _ _

theorem count_push? {batch : List Identifier} (h : q.push? batch = some q') :
    q'.items.count x = q.items.count x + batch.count x := by
  unfold push? at h
  split at h
  · rename_i hempty
    obtain rfl := Option.some.inj h
    rw [List.isEmpty_iff.mp hempty, List.count_nil, Nat.add_zero]
  · split at h
    · obtain rfl := Option.some.inj h
      rw [List.count_append]
    · cases h

end Queue

namespace Supply

theorem Visit.count_add (v : Visit) (id x : Identifier) :
    (v.add id).ids.count x ≤ v.ids.count x + [id].count x := by
  have hle : (v.add id).ids.count x ≤ 1 := List.nodup_iff_count_le_one.mp (nodup_toList _) x
  by_cases hx : x ∈ (v.add id).ids
  · have hmem : x = id ∨ x ∈ v.taken := by
      have hx := ExtTreeSet.mem_toList.mp hx
      rw [add, ExtTreeSet.mem_insert, Std.LawfulEqOrd.compare_eq_iff_eq] at hx
      exact hx.imp Eq.symm fun h => h
    rcases hmem with rfl | hx
    · rw [List.count_singleton_self]
      omega
    · have hpos : 0 < v.ids.count x := List.count_pos_iff.mpr (ExtTreeSet.mem_toList.mpr hx)
      omega
  · rw [List.count_eq_zero_of_not_mem hx]
    exact Nat.zero_le _

section Tally

variable {α : Type} {f : α → List Identifier} {x : Identifier}

/-- How often an identifier is in what the members of a list have. -/
def tally (f : α → List Identifier) (l : List α) (x : Identifier) : Nat := (l.flatMap f).count x

theorem tally_cons (a : α) (l : List α) : tally f (a :: l) x = (f a).count x + tally f l x := by
  unfold tally
  rw [List.flatMap_cons, List.count_append]

theorem tally_append_singleton (a : α) (l : List α) :
    tally f (l ++ [a]) x = tally f l x + (f a).count x := by
  unfold tally
  rw [List.flatMap_append, List.count_append, List.flatMap_singleton]

theorem tally_set (b : α) : ∀ {l : List α} {i : Nat} {a : α}, l[i]? = some a →
    tally f (l.set i b) x + (f a).count x = tally f l x + (f b).count x
  | c :: l, 0, a, h => by
    obtain rfl := Option.some.inj h
    rw [List.set_cons_zero, tally_cons, tally_cons]
    omega
  | c :: l, i + 1, a, h => by
    have ih := tally_set b (l := l) (i := i) h
    rw [List.set_cons_succ, tally_cons, tally_cons]
    omega

theorem tally_eraseIdx : ∀ {l : List α} {i : Nat} {a : α}, l[i]? = some a →
    tally f (l.eraseIdx i) x + (f a).count x = tally f l x
  | c :: l, 0, a, h => by
    obtain rfl := Option.some.inj h
    rw [List.eraseIdx_cons_zero, tally_cons]
    omega
  | c :: l, i + 1, a, h => by
    have ih := tally_eraseIdx (l := l) (i := i) h
    rw [List.eraseIdx_cons_succ, tally_cons, tally_cons]
    omega

theorem tally_eraseIdx_le (l : List α) (i : Nat) : tally f (l.eraseIdx i) x ≤ tally f l x := by
  cases h : l[i]? with
  | none => exact Nat.le_of_eq (by rw [List.eraseIdx_of_length_le (List.getElem?_eq_none_iff.mp h)])
  | some a => exact Nat.le_of_add_right_le (Nat.le_of_eq (tally_eraseIdx h))

end Tally

/-! ### Copies -/

namespace Site

variable {s s' : Site} {id : Identifier}

/-- How many copies of an identifier are at a site. -/
def copies (s : Site) (id : Identifier) : Nat := s.places.count id

theorem copies_eq (s : Site) (id : Identifier) : s.copies id =
    s.queue.items.count id + tally Allocator.buffer s.desks id +
      tally (fun ids => ids) s.batches id + tally Visit.ids s.visits id +
      tally (fun ids => ids) s.hands id := by
  unfold copies places tally
  rw [List.count_append, List.count_append, List.count_append, List.count_append,
    List.flatMap_id', List.flatMap_id']

/-- What an event other than minting keeps: the cursors stand where they stood, and no
identifier has more copies. -/
structure Moves (s s' : Site) : Prop where
  filed : s.cursors.Filed → s'.cursors.Filed
  current : ∀ p, s'.cursors.current p = s.cursors.current p
  copies_le : ∀ id, s'.copies id ≤ s.copies id

/-- What is given back was in the hand, each piece of it once. -/
theorem count_filter_add_count_le {ids hand : List Identifier} (hnd : ids.Nodup)
    (hids : ∀ id ∈ ids, id ∈ hand) (x : Identifier) :
    (hand.filter (· ∉ ids)).count x + ids.count x ≤ hand.count x := by
  by_cases hx : x ∈ ids
  · have hnone : (hand.filter (· ∉ ids)).count x = 0 :=
      List.count_eq_zero_of_not_mem fun h => by simp [hx] at h
    have hone : ids.count x ≤ 1 := List.nodup_iff_count_le_one.mp hnd x
    have hpos : 0 < hand.count x := List.count_pos_iff.mpr (hids x hx)
    omega
  · rw [List.count_eq_zero_of_not_mem hx, List.count_filter (by simpa using hx)]
    exact Nat.le_refl _

/-- Events that leave the cursors alone move identifiers if they make no copies. -/
theorem moves_of_copies_le (hc : s'.cursors = s.cursors) (h : ∀ id, s'.copies id ≤ s.copies id) :
    Moves s s' where
  filed hf := hc ▸ hf
  current _ := by rw [hc]
  copies_le := h

/-- Only minting makes identifiers: everything else moves them or loses them. -/
theorem Step.moves {e : Event} (h : Step s e s') (he : ∀ ps count, e ≠ .scroll ps count) :
    Moves s s' := by
  cases h with
  | ensure count =>
    exact ⟨fun hf => Cursors.filed_ensure hf count, Cursors.current_ensure s.cursors count,
      fun _ => Nat.le_refl _⟩
  | scroll ps count => exact absurd rfl (he ps count)
  | push hbatch hpush =>
    refine moves_of_copies_le rfl fun id => ?_
    have hqueue := Queue.count_push? (x := id) hpush
    have hbatches := tally_eraseIdx (f := fun ids => ids) (x := id) hbatch
    simp only [copies_eq]
    omega
  | lose i =>
    refine moves_of_copies_le rfl fun id => ?_
    have hbatches := tally_eraseIdx_le (f := fun ids => ids) (x := id) s.batches i
    simp only [copies_eq]
    omega
  | call desk caller count =>
    refine moves_of_copies_le rfl fun id => ?_
    have hvisits :=
      tally_append_singleton (f := Visit.ids) (x := id) ⟨desk, caller, count, ∅⟩ s.visits
    have hnone : Visit.ids ⟨desk, caller, count, ∅⟩ = [] := ExtTreeSet.toList_eq_nil_iff.mpr rfl
    rw [hnone, List.count_nil] at hvisits
    simp only [copies_eq]
    omega
  | @take i v a a' taken hvisit hdesk htake hwants =>
    refine moves_of_copies_le rfl fun id => ?_
    have hbuffer := Allocator.count_take? (x := id) htake
    have hdesks := tally_set (f := Allocator.buffer) (x := id) a' hdesk
    have hvisits := tally_set (f := Visit.ids) (x := id) (v.add taken) hvisit
    have hadd := Visit.count_add v taken id
    simp only [copies_eq]
    omega
  | skip hvisit hpop hwants hreserved =>
    refine moves_of_copies_le rfl fun id => ?_
    have hqueue := Queue.count_pop? (x := id) hpop
    simp only [copies_eq]
    omega
  | @pop i v queue taken hvisit hpop hwants hfree =>
    refine moves_of_copies_le rfl fun id => ?_
    have hqueue := Queue.count_pop? (x := id) hpop
    have hvisits := tally_set (f := Visit.ids) (x := id) (v.add taken) hvisit
    have hadd := Visit.count_add v taken id
    simp only [copies_eq]
    omega
  | @serve i v hand hvisit hhand hdone =>
    refine moves_of_copies_le rfl fun id => ?_
    have hvisits := tally_eraseIdx (f := Visit.ids) (x := id) hvisit
    have hhands := tally_set (f := fun ids => ids) (x := id) (hand ++ v.ids) hhand
    have happend : (hand ++ v.ids).count id = hand.count id + v.ids.count id := List.count_append
    simp only [copies_eq]
    omega
  | @fail i v a ids hvisit hdesk hperm =>
    refine moves_of_copies_le rfl fun id => ?_
    have hvisits := tally_eraseIdx (f := Visit.ids) (x := id) hvisit
    have hdesks := tally_set (f := Allocator.buffer) (x := id) (a.giveBack ids).1 hdesk
    have hback := Allocator.count_giveBack id ids a
    have hsame := hperm.count_eq id
    simp only [copies_eq]
    omega
  | abandon i =>
    refine moves_of_copies_le rfl fun id => ?_
    have hvisits := tally_eraseIdx_le (f := Visit.ids) (x := id) s.visits i
    simp only [copies_eq]
    omega
  | @giveBack desk caller a hand ids hhand hdesk hnd hids =>
    refine moves_of_copies_le rfl fun id => ?_
    have hhands := tally_set (f := fun ids => ids) (x := id) (hand.filter (· ∉ ids)) hhand
    have hdesks := tally_set (f := Allocator.buffer) (x := id) (a.giveBack ids).1 hdesk
    have hback := Allocator.count_giveBack id ids a
    have hleft := count_filter_add_count_le hnd hids id
    simp only [copies_eq]
    omega

/-! ### The invariant -/

/-- There is one copy of an identifier at most, and what is at the site is behind the
cursors, each of which is filed under its own partition. -/
structure Sound (s : Site) : Prop where
  filed : s.cursors.Filed
  once : ∀ id, s.copies id ≤ 1
  behind : ∀ id, 0 < s.copies id → s.cursors.Behind id

theorem Moves.sound (h : Moves s s') (hs : s.Sound) : s'.Sound where
  filed := h.filed hs.filed
  once id := Nat.le_trans (h.copies_le id) (hs.once id)
  behind id hid := by
    have hb := hs.behind id (Nat.lt_of_lt_of_le hid (h.copies_le id))
    unfold Cursors.Behind at hb ⊢
    rwa [h.current]

/-- What is minted was not at the site: it was not behind the cursors. -/
theorem sound_mint (hs : s.Sound) {cursors : Cursors} {minted batch : List Identifier}
    (hmints : s.cursors.Mints cursors minted) (hsub : batch.Sublist minted) :
    Sound { s with cursors, batches := s.batches ++ [batch] } := by
  have hbatch : ∀ id ∈ batch, id ∈ minted := fun id hid => hsub.subset hid
  have hcopies : ∀ id, copies { s with cursors, batches := s.batches ++ [batch] } id =
      s.copies id + batch.count id := by
    intro id
    have hb := tally_append_singleton (f := fun ids => ids) (x := id) batch s.batches
    simp only [copies_eq]
    omega
  have hone : ∀ id, batch.count id ≤ 1 :=
    List.nodup_iff_count_le_one.mp (hsub.nodup hmints.nodup)
  refine ⟨hmints.filed, fun id => ?_, fun id hid => ?_⟩
  · rw [hcopies]
    by_cases hid : id ∈ batch
    · have hfresh : s.copies id = 0 := Nat.eq_zero_of_not_pos fun hpos =>
        hmints.fresh id (hbatch id hid) (hs.behind id hpos)
      have := hone id
      omega
    · rw [List.count_eq_zero_of_not_mem hid]
      exact hs.once id
  · rw [hcopies] at hid
    by_cases hin : id ∈ batch
    · exact hmints.behind id (hbatch id hin)
    · rw [List.count_eq_zero_of_not_mem hin] at hid
      exact hmints.kept id (hs.behind id hid)

theorem Step.sound {e : Event} (h : Step s e s') (hs : s.Sound) : s'.Sound := by
  by_cases he : ∀ ps count, e ≠ .scroll ps count
  · exact (h.moves he).sound hs
  · cases h with
    | scroll ps count =>
      exact sound_mint hs (Cursors.mints_scroll count ps hs.filed) List.filter_sublist
    | _ => exact absurd (fun _ _ h => by cases h) he

theorem sound_after (hs : s.Sound) (e : Event) : (s.after e).Sound := by
  unfold after
  cases h : s.after? e with
  | none => exact hs
  | some s' => exact (step_of_after? h).sound hs

/-- The invariant holds after all events, in whichever order they come. -/
theorem sound_run : ∀ (events : List Event) {s : Site}, s.Sound → (s.run events).Sound
  | [], _, hs => hs
  | e :: events, _, hs => sound_run events (sound_after hs e)

theorem sound_start (saved : List Cursor) (capacity : Nat) (desks : List IdSettings)
    (callers : Nat) : (start saved capacity desks callers).Sound := by
  have hnone : ∀ id, (start saved capacity desks callers).copies id = 0 := by
    intro id
    have hplaces : (start saved capacity desks callers).places = [] := by
      simp [places, start, Queue.empty, Allocator.ofSettings]
    rw [copies, hplaces, List.count_nil]
  refine ⟨Cursors.filed_iff_saves.mpr ⟨saved, rfl⟩, fun id => ?_, fun id hid => ?_⟩
  · rw [hnone]
    exact Nat.zero_le 1
  · rw [hnone] at hid
    exact absurd hid (Nat.lt_irrefl 0)

end Site

end Supply
end AccessRegistry
