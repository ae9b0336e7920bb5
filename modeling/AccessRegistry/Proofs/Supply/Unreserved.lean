/-
# Reserved identifiers are never handed out

A random identifier bears its version where a reserved one has zeros, and from the queue
reserved identifiers are thrown away. So a desk has none to hand out unless one was given back
to it; and reserved ones are not taken back. What the services do besides does not touch the
desks. So whoever asks for an identifier gets one that is not reserved, however far a procedure
has come, if nothing reserved was at the desks in the beginning.

Key definitions: `State.Clear`, `Action.Clears`.
Key theorems: `Identifier.not_isReserved_ofRandomBits`, `Desk.clears_next`, `Desk.clears_nextMany`,
`Procedure.clear_run`.
-/
import AccessRegistry.Proofs.Procedures
import AccessRegistry.Proofs.Supply.Desks

namespace AccessRegistry

open State (Unmoved)

/-- The version stands in the counter, far above the reserved ones. -/
theorem Identifier.not_isReserved_ofRandomBits (bits : Nat) : ¬ (ofRandomBits bits).IsReserved := by
  rintro ⟨-, hcounter⟩
  unfold counter ofRandomBits counterLimit reservedCount UInt64.size at hcounter
  dsimp only at hcounter
  omega

namespace Allocator

variable {a : Allocator}

theorem not_isReserved_giveBackOne (h : ∀ id ∈ a.buffer, ¬ id.IsReserved) (new : Identifier) :
    ∀ id ∈ (a.giveBackOne new).1.buffer, ¬ id.IsReserved := by
  unfold giveBackOne
  split
  · exact h
  · rename_i hrefused
    split
    · exact h
    · intro id hid
      rcases List.mem_append.mp hid with hold | hnew
      · exact h id hold
      · obtain rfl := List.mem_singleton.mp hnew
        exact fun hreserved => hrefused (by simp [refuses, hreserved])

theorem not_isReserved_giveBack : ∀ (ids : List Identifier) {a : Allocator},
    (∀ id ∈ a.buffer, ¬ id.IsReserved) → ∀ id ∈ (a.giveBack ids).1.buffer, ¬ id.IsReserved
  | [], _, h => h
  | new :: ids, _, h => not_isReserved_giveBack ids (not_isReserved_giveBackOne h new)

end Allocator

namespace State

variable {s s' : State}

/-- Nothing that waits at a desk after it was given back is reserved. -/
def Clear (s : State) : Prop := ∀ d, ∀ id ∈ (s.allocator d).buffer, ¬ id.IsReserved

theorem clear_start (ids : IdSettings) (today : Instant) : (start ids today).Clear := by
  intro d id hid
  cases d <;> cases hid

theorem allocator_setAllocator (s : State) (d d' : Desk) (a : Allocator) :
    (s.setAllocator d a).allocator d' = a ∨
      (s.setAllocator d a).allocator d' = s.allocator d' := by
  unfold setAllocator allocator
  cases d <;> cases d' <;> cases s.front <;> simp

theorem Clear.setAllocator (h : s.Clear) (d : Desk) {a : Allocator}
    (ha : ∀ id ∈ a.buffer, ¬ id.IsReserved) : (s.setAllocator d a).Clear := by
  intro d'
  rcases allocator_setAllocator s d d' a with hnew | hold
  · rwa [hnew]
  · rw [hold]
    exact h d'

theorem Clear.congr (h : s.Clear) (hregistry : s'.registry = s.registry)
    (hfront : s'.front = s.front) : s'.Clear := by
  intro d
  have hallocator : s'.allocator d = s.allocator d := by
    unfold allocator
    rw [hregistry, hfront]
  exact hallocator ▸ h d

theorem Clear.of_unmoved (h : s.Clear) (hmove : Unmoved s s') : s'.Clear :=
  h.congr hmove.registry hmove.front

end State

namespace Action

variable {α β : Type}

/-- An action leaves the desks clear, and something holds of what it gives. -/
def Clears (x : Action α) (Q : α → Prop) : Prop :=
  ∀ s : State, s.Clear → (x.perform s).2.Clear ∧ ∀ a, (x.perform s).1 = .ok a → Q a

variable {x : Action α} {f : α → Action β} {P : α → Prop} {Q : β → Prop}

theorem clears_pure {b : β} (h : Q b) : Clears (pure b) Q :=
  fun _ hs => ⟨hs, fun _ hb => Except.ok.inj hb ▸ h⟩

theorem clears_throw (e : ServiceError) : Clears (throw e) Q :=
  fun _ hs => ⟨hs, fun _ hb => nomatch hb⟩

theorem clears_bind (hx : Clears x P) (hf : ∀ a, P a → Clears (f a) Q) : Clears (x >>= f) Q := by
  intro s hs
  obtain ⟨hs', hP⟩ := hx s hs
  rw [perform_bind]
  rcases h : x.perform s with ⟨e | a, s'⟩
  · rw [h] at hs'
    exact ⟨hs', fun _ hb => nomatch hb⟩
  · rw [h] at hs' hP
    exact hf a (hP a rfl) s' hs'

theorem Clears.preserves (h : Clears x P) : Preserves State.Clear x := fun s hs => (h s hs).1

theorem Quiet.clears (h : Quiet x) : Clears x fun _ => True :=
  fun s hs => ⟨hs.of_unmoved (h s), fun _ _ => trivial⟩

theorem Quiet.preserves_clear (h : Quiet x) : Preserves State.Clear x := h.clears.preserves

theorem Quiet.clears_bind (hx : Quiet x) (hf : ∀ a, Clears (f a) Q) : Clears (x >>= f) Q :=
  Action.clears_bind hx.clears fun a _ => hf a

theorem clears_get_bind {f : State → Action β}
    (hf : ∀ s : State, s.Clear → ((f s).perform s).2.Clear ∧
      ∀ b, ((f s).perform s).1 = .ok b → Q b) :
    Clears (get >>= f) Q := hf

theorem clears_attempt (hx : Clears x P) : Clears (attempt x) fun r => ∀ a, r = .ok a → P a :=
  fun s hs => ⟨(hx s hs).1, fun _ hr => Except.ok.inj hr ▸ (hx s hs).2⟩

end Action

/-! ### Handing out -/

namespace Desk

open AccessRegistry.Action

/-- What is handed out is free for others than the system. -/
abbrev Free (id : Identifier) : Prop := ¬ id.IsReserved

theorem clears_pop (patience : Nat) : Clears (Store.pop? patience) fun _ => True := by
  intro s hs
  refine ⟨?_, fun _ _ => trivial⟩
  obtain ⟨s', hmove, ⟨e, h⟩ | ⟨id, queue, -, h⟩ | h⟩ := Store.perform_pop s patience
  · rw [h]
    exact hs.of_unmoved hmove
  · rw [h]
    exact hs.congr hmove.registry hmove.front
  · rw [h]
    exact hs.of_unmoved hmove

theorem clears_timedOut (timeout : Nat) : Clears (timedOut timeout) Free :=
  (quiet_say _ _ _ _).clears_bind fun _ => clears_throw _

theorem clears_popOr {again : Action Identifier} (h : Clears again Free) (timeout deadline : Nat) :
    Clears (popOr again timeout deadline) Free := by
  refine quiet_get.clears_bind fun s => ?_
  refine clears_bind (clears_pop _) fun found _ => ?_
  cases found with
  | none => exact clears_timedOut timeout
  | some id =>
    dsimp only
    split
    · exact (quiet_say _ _ _ _).clears_bind fun _ => h
    · rename_i hfree
      exact clears_pure hfree

theorem clears_popUnreserved (timeout deadline : Nat) :
    ∀ waiting, Clears (popUnreserved timeout deadline waiting) Free
  | [] => clears_popOr (clears_timedOut timeout) timeout deadline
  | _ :: waiting => clears_popOr (clears_popUnreserved timeout deadline waiting) timeout deadline

theorem clears_draw : Clears draw Free :=
  fun s hs => ⟨hs, fun _ hid => Except.ok.inj hid ▸ Identifier.not_isReserved_ofRandomBits s.draws⟩

/-- No desk hands out what is reserved, if it is clear, and it stays so. -/
theorem clears_next (d : Desk) : Clears (next d) Free := by
  refine clears_get_bind fun s hs => ?_
  dsimp only
  cases htake : (s.allocator d).take? with
  | some taken =>
    rcases taken with ⟨id, a⟩
    have hbuffer : (s.allocator d).buffer = id :: a.buffer := (Allocator.take?_eq_some htake).1
    have hfree := hs d
    rw [hbuffer, List.forall_mem_cons] at hfree
    exact ⟨hs.setAllocator d hfree.2, fun _ h => Except.ok.inj h ▸ hfree.1⟩
  | none =>
    dsimp only
    split
    · exact clears_draw s hs
    · exact clears_popUnreserved _ _ _ s hs

theorem clears_giveBack (d : Desk) (ids : List Identifier) :
    Clears (giveBack d ids) fun _ => True := by
  intro s hs
  obtain ⟨s', hmove, h⟩ := perform_giveBack d ids s
  rw [h]
  have hset := hs.setAllocator d (Allocator.not_isReserved_giveBack ids (hs d))
  exact ⟨hset.of_unmoved hmove, fun _ _ => trivial⟩

theorem clears_collect (d : Desk) (count : Nat) :
    ∀ more taken, Clears (collect d count more taken) fun _ => True
  | 0, _ => clears_pure trivial
  | more + 1, taken => by
    unfold collect
    split
    · exact clears_pure trivial
    · refine clears_bind (clears_attempt (clears_next d)) fun r _ => ?_
      cases r with
      | ok id => exact clears_collect d count more _
      | error e => exact clears_bind (clears_giveBack d _) fun _ _ => clears_throw e

theorem clears_nextMany (d : Desk) (count : Nat) : Clears (nextMany d count) fun _ => True :=
  quiet_get.clears_bind fun _ => clears_collect d count _ ∅

end Desk

theorem Action.quiet_change {α : Type} (c : Call) {f : Tables → α × Tables}
    (hf : ∀ t, (f t).2.cursors = t.cursors) : Quiet (do callRecords c; change f) :=
  quiet_bind (quiet_callRecords c) fun _ s => ⟨hf s.tables, rfl, rfl, rfl⟩

namespace Step

open AccessRegistry.Action

/-- Who does not ask for an identifier does not come to a desk. -/
theorem quiet_perform : ∀ {β : Type} (c : Step β), (∀ r, c.asked r = []) → Quiet c.perform
  | _, insertReservation r, _ => by
    refine quiet_change .insertReservation fun t => ?_
    cases t.reservations.insert? r <;> rfl
  | _, deleteIds _, _ => quiet_change .deleteByIds fun _ => rfl
  | _, freshId, h => nomatch h (.ok default)
  | _, lookup _, _ => quiet_bind (quiet_callRecords .lookup) fun _ => Unmoved.refl
  | _, createPrincipal _, _ => quiet_change .createPrincipal fun _ => rfl
  | _, deletePrincipal _, _ => quiet_change .deletePrincipal fun _ => rfl
  | _, merge _ _ _ _, _ => quiet_change .merge fun _ => rfl
  | _, record _, _ => quiet_modify fun _ => ⟨rfl, rfl, rfl, rfl⟩
  | _, log _, _ => quiet_modify fun _ => ⟨rfl, rfl, rfl, rfl⟩
  | _, pause ms, _ => quiet_wait ms

theorem clear_perform {s : State} (hs : s.Clear) {β : Type} (c : Step β) :
    (c.perform.perform s).2.Clear ∧
      ∀ id, .ok id ∈ c.asked (c.perform.perform s).1 → ¬ id.IsReserved := by
  by_cases hasks : ∀ r, c.asked r = []
  · refine ⟨hs.of_unmoved (c.quiet_perform hasks s), fun id hid => ?_⟩
    rw [hasks] at hid
    cases hid
  · cases c with
    | freshId =>
      obtain ⟨hs', hfree⟩ := Desk.clears_next .registry s hs
      refine ⟨hs', fun id hid => hfree id ?_⟩
      exact (List.mem_singleton.mp hid).symm
    | _ => exact absurd (fun _ => rfl) hasks

end Step

/-- However far a procedure has come, it was given nothing that is reserved. -/
theorem Procedure.clear_run {α : Type} (p : Procedure α) {s : State} (hs : s.Clear) :
    (p.run.perform s).2.Clear ∧ ∀ id, .ok id ∈ p.answers s → ¬ id.IsReserved := by
  induction p generalizing s with
  | done a => exact ⟨hs, fun _ hid => nomatch hid⟩
  | fail e => exact ⟨hs, fun _ hid => nomatch hid⟩
  | step c next ih =>
    obtain ⟨hs', hfirst⟩ := c.clear_perform hs
    obtain ⟨hs'', hrest⟩ := ih (c.perform.perform s).1 hs'
    rw [perform_run_step]
    refine ⟨hs'', fun id hid => ?_⟩
    rcases List.mem_append.mp hid with hnow | hlater
    · exact hfirst id hnow
    · exact hrest id hlater

theorem Procedure.preserves_clear {α : Type} (p : Procedure α) : Preserves State.Clear p.run :=
  fun _ hs => (p.clear_run hs).1

end AccessRegistry
