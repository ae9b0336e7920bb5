/-
# Replenishers follow the site

Whatever a replenisher waits for, and whichever of its calls fail, what it does at the site
is to mint batches and to bring each of them into the queue or to lose it.

Key definitions: `Supply.OnTheWay.carrying`.
Key theorems: `Action.Quiet.follows_losing`, `Replenisher.follows_mint`,
`Replenisher.follows_deliver`, `Replenisher.follows_round`, `Replenisher.follows_run`.
-/
import AccessRegistry.Proofs.Supply.Follows
import AccessRegistry.Supply.Replenisher

namespace AccessRegistry

open Supply (Site OnTheWay)
open AccessRegistry.Action
open State (Unmoved)

/-- One more batch is on the way. -/
def Supply.OnTheWay.carrying (w : OnTheWay) (batch : List Identifier) : OnTheWay :=
  { w with batches := w.batches ++ [batch] }

variable {P : Allocator → Option Allocator → Prop} {w : OnTheWay}

namespace Store

theorem quiet_acquireLock (name : String) (ttl : Nat) : Quiet (acquireLock name ttl) :=
  quiet_bind (quiet_call _) fun _ => quiet_get_bind fun _ => ⟨rfl, rfl, rfl, rfl⟩

theorem quiet_releaseLock (name : String) (token : LockToken) : Quiet (releaseLock name token) :=
  quiet_bind (quiet_call _) fun _ => quiet_get_bind fun _ => ⟨rfl, rfl, rfl, rfl⟩

theorem follows_ensureCursors (count : Nat) : Follows P (ensureCursors count) w fun _ => w := by
  refine (quiet_callRecords _).follows_bind (fun _ => ?_) fun _ => rfl
  exact follows_event fun s hs => ⟨hs, .ensure count, rfl⟩

/-- A scroll that works mints a batch; what is reserved is not in it. -/
theorem follows_scroll (ps : List Partition) (count : Nat) : Follows P (scroll ps count) w fun
    | .ok scrolled => w.carrying (scrolled.ids.filter fun id => ¬ id.IsReserved)
    | .error _ => w := by
  refine (quiet_callRecords _).follows_bind (fun _ => ?_) fun _ => rfl
  exact follows_event fun s hs => ⟨hs, .scroll ps count, rfl⟩

theorem after_lose (s : State) (w : OnTheWay) (batch : List Identifier) :
    (s.site (w.carrying batch)).after (.lose w.batches.length) = s.site w := by
  have herase : (w.batches ++ [batch]).eraseIdx w.batches.length = w.batches := eraseIdx_last _ _
  unfold Site.after Site.after? State.site OnTheWay.carrying
  simp only [Option.getD_some, herase]

theorem after_push (s : State) (w : OnTheWay) {batch : List Identifier} {queue : Queue}
    (h : s.queue.push? batch = some queue) :
    (s.site (w.carrying batch)).after (.push w.batches.length) = { s with queue }.site w := by
  have herase : (w.batches ++ [batch]).eraseIdx w.batches.length = w.batches := eraseIdx_last _ _
  have hlast : (w.batches ++ [batch])[w.batches.length]? = some batch :=
    List.getElem?_concat_length
  unfold Site.after Site.after? State.site OnTheWay.carrying
  simp only [Option.bind_eq_bind, Option.pure_def, hlast, h, Option.bind_some, Option.getD_some,
    herase]

theorem perform_push (s : State) (batch : List Identifier) (patience : Nat) :
    ∃ s', Unmoved s s' ∧
      ((∃ e, (push batch patience).perform s = (.error e, s')) ∨
        (∃ queue, s.queue.push? batch = some queue ∧
          (push batch patience).perform s = (.ok true, { s' with queue })) ∨
        (push batch patience).perform s = (.ok false, s')) := by
  obtain ⟨s', hquiet, ⟨e, h⟩ | h⟩ := perform_call_get (x := push batch patience) rfl s
  · exact ⟨s', hquiet, Or.inl ⟨e, h⟩⟩
  · rw [hquiet.queue] at h
    cases hpush : s.queue.push? batch with
    | some queue =>
      rw [hpush] at h
      exact ⟨s', hquiet, Or.inr (Or.inl ⟨queue, rfl, h⟩)⟩
    | none =>
      rw [hpush] at h
      exact ⟨_, hquiet.trans (quiet_wait patience s'), Or.inr (Or.inr h)⟩

/-- A batch is taken by the queue, or it is lost because the call fails. One that finds no
room is on the way still. -/
theorem follows_push (batch : List Identifier) (patience : Nat) :
    Follows P (push batch patience) (w.carrying batch) fun
      | .ok false => w.carrying batch
      | _ => w := by
  intro s hs
  obtain ⟨s', hquiet, ⟨e, h⟩ | ⟨queue, hpush, h⟩ | h⟩ := perform_push s batch patience
  · rw [h]
    refine ⟨hquiet.keeps hs, [.lose w.batches.length], ?_⟩
    exact (after_lose s w batch).trans (hquiet.site_eq w).symm
  · rw [h]
    refine ⟨hquiet.keeps hs, [.push w.batches.length], ?_⟩
    exact (after_push s w hpush).trans ((hquiet.withQueue queue).site_eq w).symm
  · rw [h]
    exact ⟨hquiet.keeps hs, [], (hquiet.site_eq _).symm⟩

end Store

namespace Action

variable {α β : Type} {batch : List Identifier}

/-- A batch can be lost at any time. -/
theorem Quiet.follows_losing {x : Action α} {w' : Except ServiceError α → OnTheWay} (hx : Quiet x)
    (h : ∀ r, w' r = w.carrying batch ∨ w' r = w) : Follows P x (w.carrying batch) w' := by
  intro s hs
  have hquiet := hx s
  refine ⟨hquiet.keeps hs, ?_⟩
  rcases h (x.perform s).1 with hkept | hlost
  · rw [hkept]
    exact ⟨[], (hquiet.site_eq _).symm⟩
  · rw [hlost]
    exact ⟨[.lose w.batches.length], (Store.after_lose s w batch).trans (hquiet.site_eq w).symm⟩

/-- A quiet action may come before, and the batch is lost if it fails. -/
theorem Quiet.follows_bind_losing {x : Action α} {f : α → Action β}
    {w' : Except ServiceError β → OnTheWay} (hx : Quiet x)
    (hf : ∀ a, Follows P (f a) (w.carrying batch) w') (he : ∀ e, w' (.error e) = w) :
    Follows P (x >>= f) (w.carrying batch) w' := by
  intro s hs
  have hquiet := hx s
  rw [perform_bind]
  rcases h : x.perform s with ⟨e | a, s'⟩
  · rw [h] at hquiet
    refine ⟨hquiet.keeps hs, [.lose w.batches.length], ?_⟩
    dsimp only
    rw [he]
    exact (Store.after_lose s w batch).trans (hquiet.site_eq w).symm
  · rw [h] at hquiet
    obtain ⟨hs', events, hrun⟩ := hf a s' (hquiet.keeps hs)
    refine ⟨hs', events, ?_⟩
    rw [← hquiet.site_eq]
    exact hrun

end Action

theorem Patience.quiet_rest (p : Patience) (ms : Nat) : Quiet (p.rest ms) := by
  refine quiet_get_bind fun s => ?_
  rcases p.wakeUp s.clock (s.clock + ms) with ⟨stop, wake⟩
  dsimp only
  split
  · exact ⟨rfl, rfl, rfl, rfl⟩
  · exact ⟨rfl, rfl, rfl, rfl⟩

namespace Replenisher

/-! ### Minting -/

theorem quiet_tryLock {again : Action Acquisition} (hagain : Quiet again) (r : Replenisher)
    (p : Patience) (deadline : Nat) : Quiet (tryLock again r p deadline) := by
  refine quiet_bind (Store.quiet_acquireLock _ _) fun token => ?_
  cases token with
  | some token => exact quiet_pure _
  | none =>
    refine quiet_bind quiet_get fun s => ?_
    split
    · exact quiet_bind (quiet_say _ _ _ _) fun _ => quiet_pure _
    · refine quiet_bind (p.quiet_rest _) fun wake => ?_
      cases wake with
      | rested => exact hagain
      | calledOff => exact quiet_pure _
      | cut => exact quiet_pure _

theorem quiet_pollLock (r : Replenisher) (p : Patience) (deadline : Nat) :
    ∀ more, Quiet (pollLock r p deadline more)
  | 0 => quiet_tryLock (quiet_pure _) r p deadline
  | more + 1 => quiet_tryLock (quiet_pollLock r p deadline more) r p deadline

theorem quiet_waitForLock (r : Replenisher) (p : Patience) : Quiet (waitForLock r p) :=
  quiet_bind quiet_get fun _ => quiet_pollLock r p _ _

theorem quiet_unlock (token : LockToken) : Quiet (unlock token) := by
  refine quiet_bind (quiet_attempt (Store.quiet_releaseLock _ _)) fun released => ?_
  rcases released with e | _ | _
  · exact quiet_say _ _ _ _
  · exact quiet_say _ _ _ _
  · exact quiet_pure _

theorem follows_mint (r : Replenisher) (p : Patience) : Follows P (mint r p) w fun
    | .ok (_, .batch ids) => w.carrying ids
    | _ => w := by
  unfold mint
  dsimp only
  split
  · exact (quiet_pure _).follows
  · refine (quiet_waitForLock r p).follows_bind (fun lock => ?_) fun _ => rfl
    cases lock with
    | busy => exact (quiet_pure _).follows
    | cut => exact (quiet_pure _).follows
    | acquired token =>
      refine follows_bind (follows_attempt (Store.follows_scroll _ _)) (fun scrolled => ?_)
        fun _ => rfl
      cases scrolled with
      | error e =>
        exact (quiet_unlock token).follows_bind (fun _ => (quiet_throw e).follows) fun _ => rfl
      | ok scroll =>
        refine (quiet_unlock token).follows_bind_losing (fun _ => ?_) fun _ => rfl
        refine (quiet_logAll _).follows_bind_losing (fun _ => ?_) fun _ => rfl
        exact (quiet_pure _).follows

theorem follows_tryPush {again : Action Delivery} {ids : List Identifier}
    (hagain : Follows P again (w.carrying ids) fun _ => w) (p : Patience) :
    Follows P (tryPush again ids p) (w.carrying ids) fun _ => w := by
  refine follows_get_bind fun s => ?_
  refine follows_bind (Store.follows_push ids _) (fun taken => ?_) fun _ => rfl
  cases taken with
  | true =>
    exact (quiet_bind (quiet_say _ _ _ _) fun _ => quiet_pure _).follows
  | false =>
    have hlost : Except ServiceError Delivery → w = w.carrying ids ∨ w = w :=
      fun _ => Or.inr rfl
    dsimp only
    split
    · contradiction
    split
    · exact (quiet_pure _).follows_losing hlost
    · refine follows_get_bind fun s' => ?_
      split
      · exact (quiet_bind (quiet_say _ _ _ _) fun _ => quiet_pure _).follows_losing hlost
      · exact hagain

theorem follows_pushUntilTaken (ids : List Identifier) (p : Patience) :
    ∀ more, Follows P (pushUntilTaken ids p more) (w.carrying ids) fun _ => w
  | 0 => follows_tryPush ((quiet_pure _).follows_losing fun _ => Or.inr rfl) p
  | more + 1 => follows_tryPush (follows_pushUntilTaken ids p more) p

theorem follows_deliver (ids : List Identifier) (p : Patience) :
    Follows P (deliver ids p) (w.carrying ids) fun _ => w := by
  unfold deliver
  split
  · exact (quiet_pure _).follows_losing fun _ => Or.inr rfl
  · exact follows_get_bind fun s => follows_pushUntilTaken ids p _

/-! ### Rounds -/

/-- A round mints a batch and delivers it or loses it. -/
theorem follows_round (r : Replenisher) (p : Patience) : Follows P (round r p) w fun _ => w := by
  refine follows_bind (follows_attempt (follows_mint r p)) (fun minted => ?_) fun _ => rfl
  rcases minted with e | ⟨r, ids | _ | _⟩
  · exact (quiet_pure _).follows
  · refine follows_bind (follows_attempt (follows_deliver ids p)) (fun _ => ?_) fun _ => rfl
    exact (quiet_pure _).follows
  · exact (quiet_pure _).follows
  · exact (quiet_pure _).follows

theorem follows_prepare (r : Replenisher) (p : Patience) :
    ∀ more failures, Follows P (prepare r p failures more) w fun _ => w
  | 0, _ => (quiet_pure _).follows
  | more + 1, failures => by
    refine follows_get_bind fun s => ?_
    split
    · exact (quiet_pure _).follows
    · refine follows_bind (follows_attempt (Store.follows_ensureCursors _)) (fun ensured => ?_)
        fun _ => rfl
      cases ensured with
      | ok _ => exact (quiet_pure _).follows
      | error e =>
        refine (quiet_say _ _ _ _).follows_bind (fun _ => ?_) fun _ => rfl
        refine (p.quiet_rest _).follows_bind (fun wake => ?_) fun _ => rfl
        cases wake with
        | rested => exact follows_prepare r p more (failures + 1)
        | calledOff => exact (quiet_pure _).follows
        | cut => exact (quiet_pure _).follows

theorem follows_runRounds (p : Patience) :
    ∀ more failures (r : Replenisher), Follows P (runRounds r p failures more) w fun _ => w
  | 0, _, _ => (quiet_pure _).follows
  | more + 1, failures, r => by
    refine follows_get_bind fun s => ?_
    split
    · exact (quiet_pure _).follows
    · refine follows_bind (follows_round r p) (fun done => ?_) fun _ => rfl
      rcases done with ⟨r, e | _⟩
      · refine (quiet_say _ _ _ _).follows_bind (fun _ => ?_) fun _ => rfl
        refine (p.quiet_rest _).follows_bind (fun wake => ?_) fun _ => rfl
        cases wake with
        | rested => exact follows_runRounds p more (failures + 1) r
        | calledOff => exact (quiet_pure _).follows
        | cut => exact (quiet_pure _).follows
      · dsimp only
        split
        · exact (quiet_say _ _ _ _).follows
        · exact follows_runRounds p more 0 r

/-- Whatever a replenisher does in all its time is a run of the site. -/
theorem follows_run (r : Replenisher) (ms : Nat) : Follows P (run r ms) w fun _ => w := by
  refine follows_get_bind fun s => ?_
  refine (quiet_say _ _ _ _).follows_bind (fun _ => ?_) fun _ => rfl
  refine follows_bind (follows_prepare r _ _ _) (fun ready => ?_) fun _ => rfl
  split
  · exact follows_bind (follows_runRounds _ _ _ r) (fun _ => (quiet_say _ _ _ _).follows)
      fun _ => rfl
  · exact (quiet_pure _).follows

end Replenisher
end AccessRegistry
