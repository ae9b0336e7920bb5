/-
# How much there is to take

Each identifier that a desk hands out leaves one fewer to take, in the desk's buffer or in
the queue. So whoever asks for several identifiers and gets them gets as many, before the
bound on how many are taken is reached.

Key definitions: `State.stock`, `Desk.Spends`.
Key theorems: `Desk.stock_next`, `Desk.size_nextMany`.
-/
import AccessRegistry.Proofs.Supply.Desks

namespace AccessRegistry

open Std (ExtTreeSet)
open Supply (Visit)
open AccessRegistry.Action
open State (Unmoved)

variable {own : Bool} {s s' : State} {d : Desk}

namespace State

/-- How many identifiers can be taken at a desk. -/
def stock (s : State) (d : Desk) : Nat := (s.allocator d).buffer.length + s.queue.length

theorem stock_setAllocator (s : State) (d : Desk) (a : Allocator) :
    (s.setAllocator d a).stock d = a.buffer.length + s.queue.length := by
  unfold stock setAllocator allocator
  cases d with
  | registry => rfl
  | front => cases hs : s.front with
    | none => simp only [Option.getD_none]
    | some b => rfl

theorem stock_withQueue (h : Unmoved s s') {queue : Queue} {id : Identifier}
    (hpop : s.queue.pop? = some (id, queue)) (d : Desk) :
    ({ s' with queue } : State).stock d < s.stock d := by
  have hlength : s.queue.length = queue.length + 1 :=
    congrArg List.length (Queue.pop?_eq_some hpop)
  have hallocator : ({ s' with queue } : State).allocator d = s.allocator d := by
    unfold allocator
    rw [h.registry, h.front]
  unfold stock
  rw [hallocator]
  show _ + queue.length < _
  omega

end State

namespace Desk

/-- Whoever gets an identifier leaves fewer to take. -/
def Spends (d : Desk) (x : Action Identifier) : Prop :=
  ∀ s id s', x.perform s = (.ok id, s') → s'.stock d < s.stock d

theorem spends_timedOut (timeout : Nat) : Spends d (timedOut timeout) := by
  intro s id s' h
  cases h

theorem spends_popOr {again : Action Identifier} (hagain : Spends d again)
    (timeout deadline : Nat) : Spends d (popOr again timeout deadline) := by
  intro s id s' h
  unfold popOr at h
  rw [perform_bind, perform_get] at h
  dsimp only at h
  rw [perform_bind] at h
  obtain ⟨s₁, hquiet, ⟨e, hpop⟩ | ⟨id', queue, hqueue, hpop⟩ | hpop⟩ :=
    Store.perform_pop s (deadline - s.clock)
  · rw [hpop] at h
    cases h
  · have hless := State.stock_withQueue hquiet hqueue d
    rw [hpop] at h
    dsimp only at h
    split at h
    · rw [perform_bind] at h
      exact Nat.lt_trans (hagain _ id s' h) hless
    · cases h
      exact hless
  · rw [hpop] at h
    cases h

theorem spends_popUnreserved (timeout deadline : Nat) :
    ∀ waiting, Spends d (popUnreserved timeout deadline waiting)
  | [] => spends_popOr (spends_timedOut timeout) timeout deadline
  | _ :: waiting => spends_popOr (spends_popUnreserved timeout deadline waiting) timeout deadline

theorem stock_next {id : Identifier} (hs : Partitioned own s.registry s.front)
    (h : (next d).perform s = (.ok id, s')) : s'.stock d < s.stock d := by
  unfold next at h
  rw [perform_bind, perform_get] at h
  dsimp only at h
  cases htake : (s.allocator d).take? with
  | some taken =>
    rcases taken with ⟨id', a⟩
    have hbuffer := (Allocator.take?_eq_some htake).1
    rw [htake] at h
    cases h
    rw [State.stock_setAllocator, State.stock, hbuffer, List.length_cons]
    omega
  | none =>
    rw [htake, hs.source_allocator d] at h
    exact spends_popUnreserved _ _ _ s id s' h

theorem partitioned_next (hs : Partitioned own s.registry s.front) :
    Partitioned own ((next d).perform s).2.registry ((next d).perform s).2.front := by
  let v : Visit := ⟨d.place own, 0, 1, ∅⟩
  have hwants : v.wants := decide_eq_true Nat.zero_lt_one
  exact (follows_next (w := ⟨[], [], []⟩) (v := v) rfl hwants s hs).1

theorem size_collect {count : Nat} {ids : ExtTreeSet Identifier} :
    ∀ {more : Nat} {taken : ExtTreeSet Identifier} {s : State},
      Partitioned own s.registry s.front → s.stock d < more → taken.size ≤ count →
      (collect d count more taken).perform s = (.ok ids, s') → ids.size = count
  | 0, _, _, _, hmore, _, _ => absurd hmore (Nat.not_lt_zero _)
  | more + 1, taken, s, hs, hmore, htaken, h => by
    unfold collect at h
    split at h
    · rename_i hcount
      cases h
      exact Nat.le_antisymm htaken hcount
    · rename_i hcount
      have hnext := partitioned_next (d := d) hs
      rw [perform_bind, perform_attempt] at h
      rcases hperform : (next d).perform s with ⟨e | id, s₁⟩
      · rw [hperform] at h
        obtain ⟨s₂, -, hback⟩ := perform_giveBack d taken.toList s₁
        dsimp only at h
        rw [perform_bind, hback] at h
        cases h
      · rw [hperform] at h hnext
        have hless : s₁.stock d < s.stock d := stock_next hs hperform
        have hsize : (taken.insert id).size ≤ taken.size + 1 := ExtTreeSet.size_insert_le
        have hmore' : s₁.stock d < more := by omega
        exact size_collect hnext hmore' (by omega) h

/-- Who asks for several identifiers gets as many. The bound on how many are taken is
never reached. -/
theorem size_nextMany {count : Nat} {ids : ExtTreeSet Identifier}
    (hs : Partitioned own s.registry s.front)
    (h : (nextMany d count).perform s = (.ok ids, s')) : ids.size = count := by
  have hmore : s.stock d < count + (s.allocator d).buffer.length + s.queue.length + 1 := by
    unfold State.stock
    omega
  exact size_collect hs hmore (Nat.zero_le _) h

end Desk
end AccessRegistry
