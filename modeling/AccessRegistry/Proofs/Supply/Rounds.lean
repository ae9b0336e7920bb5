/-
# The first round

On a fresh supply whose lock is free a round takes the lock at once and finds every partition
at its beginning, which is so far from its end that all the partitions give what they are asked
for. What is left is the queue, which is empty: it takes the batch if it takes anything at all.
A configuration is accepted whatever the capacity of the queue is, and a queue of capacity zero
takes nothing, ever; then the round has to be ended from outside, and nobody gets an identifier.

Key definitions: `Replenisher.GivenBack`, `Replenisher.Undelivered`, `State.fresh`,
`State.Unstocked`.
Key theorems: `Cursors.roomy_scroll`, `Replenisher.perform_round`, `Replenisher.first_round`,
`Replenisher.first_round_hangs_on_capacity`.
-/
import AccessRegistry.Proofs.Supply.Gapless
import AccessRegistry.Proofs.Supply.HandingOut
import AccessRegistry.Proofs.Supply.Locks
import AccessRegistry.Supply.Replenisher

namespace AccessRegistry

open AccessRegistry.Action

namespace Cursors

variable {t : Cursors} {count : Nat}

/-- Where no partition can come to its end, all give what they are asked for. -/
theorem roomy_scroll : ∀ (ps : List Partition) {t : Cursors},
    (∀ p, t.place p + ps.count p * count < counterLimit) →
      (scroll count ps t).1.exhausted = [] ∧ (scroll count ps t).1.ids.length = ps.length * count
  | [], t, _ => ⟨rfl, (Nat.zero_mul count).symm⟩
  | p :: ps, t, hroom => by
    have hp := hroom p
    rw [List.count_cons_self, Nat.succ_mul, place_eq] at hp
    unfold scroll
    cases ha : (t.current p).advance? count with
    | none =>
      have hfull := Cursor.advance?_eq_none ha
      omega
    | some found =>
      obtain ⟨ids, c⟩ := found
      obtain ⟨-, hids, -, hcounter⟩ := Cursor.advance?_eq_some ha
      have hrest : ∀ q, place (t.insert p c) q + ps.count q * count < counterLimit := by
        intro q
        have hq := hroom q
        rw [place_insert]
        by_cases hpq : p = q
        · subst hpq
          rw [if_pos rfl, hcounter]
          omega
        · rw [List.count_cons_of_ne hpq] at hq
          rw [if_neg hpq]
          exact hq
      obtain ⟨hexhausted, hlength⟩ := roomy_scroll ps hrest
      refine ⟨hexhausted, ?_⟩
      rw [List.length_append, hlength, hids, List.length_map, List.length_range, List.length_cons,
        Nat.succ_mul, Nat.add_comm]

end Cursors

namespace Store

variable {s : State}

theorem perform_acquireLock (hs : s.InMemory) (name : String) (ttl : Nat) :
    (acquireLock name ttl).perform s =
      (.ok (s.locks.acquire name ttl s.clock).1,
        { s with locks := (s.locks.acquire name ttl s.clock).2 }) := by
  unfold acquireLock
  rw [perform_bind, perform_call hs]
  rfl

theorem perform_releaseLock (hs : s.InMemory) (name : String) (token : LockToken) :
    (releaseLock name token).perform s =
      (.ok (s.locks.release name token s.clock).1,
        { s with locks := (s.locks.release name token s.clock).2 }) := by
  unfold releaseLock
  rw [perform_bind, perform_call hs]
  rfl

end Store

/-! ### Minting and delivering -/

namespace Replenisher

variable {s : State} {r : Replenisher}

theorem perform_unlock (hs : s.InMemory) (token : LockToken) :
    ∃ log, (unlock token).perform s =
      (.ok (), { s with locks := (s.locks.release lockName token s.clock).2, log }) := by
  unfold unlock
  rw [perform_bind, perform_attempt, Store.perform_releaseLock hs]
  dsimp only
  cases (s.locks.release lockName token s.clock).1 with
  | true => exact ⟨_, rfl⟩
  | false => exact ⟨_, rfl⟩

theorem perform_waitForLock (hs : s.InMemory) (hfree : s.locks.isHeld lockName s.clock = false)
    (r : Replenisher) (p : Patience) :
    (waitForLock r p).perform s = (.ok (.acquired (.issued s.locks.issued)),
      { s with locks := (s.locks.acquire lockName r.settings.lockTtl s.clock).2 }) := by
  have hacquire : ∃ locks, s.locks.acquire lockName r.settings.lockTtl s.clock =
      (some (.issued s.locks.issued), locks) := ⟨_, if_neg (by simp [hfree])⟩
  obtain ⟨locks, hacquire⟩ := hacquire
  unfold waitForLock
  rw [perform_bind, perform_get]
  show (tryLock _ r p _).perform s = _
  unfold tryLock
  rw [perform_bind, Store.perform_acquireLock hs, hacquire]
  rfl

/-- The lock is free for others again, and no other lock was touched. -/
structure GivenBack (s : State) (locks : Locks) : Prop where
  free : locks.isHeld lockName s.clock = false
  others : ∀ name, name ≠ lockName → locks.leases[name]? = s.locks.leases[name]?

/-- What is minted under a free lock is what the active partitions give, but for what is
reserved. -/
theorem perform_mint (hs : s.InMemory) (hfree : s.locks.isHeld lockName s.clock = false)
    (hactive : r.active ≠ []) (p : Patience) {scrolled : Scroll} {cursors : Cursors}
    (hscroll : Cursors.scroll r.settings.scrollSize r.active s.tables.cursors =
      (scrolled, cursors)) :
    ∃ locks log, GivenBack s locks ∧ (mint r p).perform s =
      (.ok (r.retire scrolled.exhausted, .batch (scrolled.ids.filter fun id => ¬ id.IsReserved)),
        { s.withCursors cursors with locks, log }) := by
  have hlock := perform_waitForLock hs hfree r p
  obtain ⟨hgone, hothers⟩ := Locks.release_acquire hfree r.settings.lockTtl
  generalize (s.locks.acquire lockName r.settings.lockTtl s.clock).2 = held
    at hlock hgone hothers
  have hheld : ({ s with locks := held } : State).InMemory := ⟨hs.storage, hs.outages⟩
  have hminted : (({ s with locks := held } : State).withCursors cursors).InMemory :=
    ⟨hs.storage, hs.outages⟩
  obtain ⟨log, hunlock⟩ := perform_unlock hminted (.issued s.locks.issued)
  have hperform := State.perform_scroll hheld r.active r.settings.scrollSize
  simp only [hscroll] at hperform
  refine ⟨_, log ++ r.retirementLog scrolled.exhausted, ⟨hgone, hothers⟩, ?_⟩
  unfold mint
  dsimp only
  rw [if_neg (by simpa using hactive), perform_bind, hlock]
  dsimp only
  rw [perform_bind, perform_attempt, hperform]
  dsimp only
  rw [perform_bind, hunlock]
  rfl

theorem perform_deliver (hs : s.InMemory) {ids : List Identifier} {queue : Queue}
    (hpush : s.queue.push? ids = some queue) (p : Patience) :
    ∃ log, (deliver ids p).perform s = (.ok (.delivered ids.length), { s with queue, log }) := by
  unfold deliver
  split
  · rename_i hempty
    rw [Queue.push?, if_pos hempty] at hpush
    obtain rfl := Option.some.inj hpush
    rw [List.isEmpty_iff.mp hempty]
    exact ⟨s.log, rfl⟩
  · rw [perform_bind, perform_get]
    show ∃ log, (tryPush _ ids p).perform s = _
    unfold tryPush
    rw [perform_bind, perform_get]
    dsimp only
    rw [perform_bind, Store.perform_push_some hs.outages hpush]
    exact ⟨_, rfl⟩

/-- Nothing is delivered: the round is called off or cut off, and nothing but time went by. -/
def Undelivered (x : Action Delivery) (s : State) : Prop :=
  ∃ d clock log, x.perform s = (.ok d, { s with clock, log }) ∧ (d = .delivered 0 ∨ d = .cut)

theorem undelivered_cut (s : State) : Undelivered (pure .cut) s :=
  ⟨.cut, s.clock, s.log, rfl, .inr rfl⟩

/-- A queue without room lets a batch wait until the round is ended from outside. -/
theorem undelivered_tryPush {again : Action Delivery} {ids : List Identifier}
    (hs : s.InMemory) (hpush : s.queue.push? ids = none)
    (hagain : ∀ clock, Undelivered again { s with clock }) (p : Patience) :
    Undelivered (tryPush again ids p) s := by
  unfold Undelivered tryPush
  rw [perform_bind, perform_get]
  dsimp only
  rw [perform_bind, Store.perform_push_none hs.outages hpush]
  dsimp only
  rw [if_neg Bool.false_ne_true]
  split
  · exact undelivered_cut { s with clock := _ }
  · rw [perform_bind, perform_get]
    dsimp only
    split
    · exact ⟨.delivered 0, _, _, rfl, .inl rfl⟩
    · exact hagain _

theorem undelivered_pushUntilTaken {ids : List Identifier} (p : Patience) :
    ∀ (more : Nat) {s : State}, s.InMemory → s.queue.push? ids = none →
      Undelivered (pushUntilTaken ids p more) s
  | 0, _, hs, hpush => undelivered_tryPush hs hpush (fun _ => undelivered_cut _) p
  | more + 1, _, hs, hpush => undelivered_tryPush hs hpush
      (fun _ => undelivered_pushUntilTaken p more ⟨hs.storage, hs.outages⟩ hpush) p

theorem undelivered_deliver (hs : s.InMemory) {ids : List Identifier}
    (hpush : s.queue.push? ids = none) (p : Patience) : Undelivered (deliver ids p) s := by
  unfold deliver
  split
  · rename_i hempty
    rw [Queue.push?, if_pos hempty] at hpush
    cases hpush
  · exact undelivered_pushUntilTaken p _ hs hpush

theorem perform_round (hs : s.InMemory) (hfree : s.locks.isHeld lockName s.clock = false)
    (hactive : r.active ≠ []) (p : Patience) {scrolled : Scroll} {cursors : Cursors}
    (hscroll : Cursors.scroll r.settings.scrollSize r.active s.tables.cursors =
      (scrolled, cursors)) :
    ∃ locks log, GivenBack s locks ∧ let s' : State := { s.withCursors cursors with locks, log }
      let delivered := (deliver (scrolled.ids.filter fun id => ¬ id.IsReserved) p).perform s'
      (round r p).perform s = (.ok (r.retire scrolled.exhausted, delivered.1), delivered.2) := by
  obtain ⟨locks, log, hback, hmint⟩ := perform_mint hs hfree hactive p hscroll
  refine ⟨locks, log, hback, ?_⟩
  unfold round
  rw [perform_bind, perform_attempt, hmint]
  rfl

end Replenisher

/-! ### Fresh supplies -/

/-- The state of a registry at its start, but that time went by and locks were given. -/
def State.fresh (ids : IdSettings) (today : Instant) (clock : Nat) (locks : Locks) : State :=
  { State.start ids today with clock, locks }

/-- Nothing came to the queue or to a desk yet. -/
structure State.Unstocked (ids : IdSettings) (s : State) : Prop where
  inMemory : s.InMemory
  queue : s.queue = .empty ids.queueCapacity
  registry : s.registry = .ofSettings ids
  front : s.front = none

theorem State.Unstocked.allocator {ids : IdSettings} {s : State} (h : s.Unstocked ids) (d : Desk) :
    s.allocator d = .ofSettings ids := by
  cases d with
  | registry => exact h.registry
  | front => rw [State.allocator, h.front, Option.getD_none, h.registry]

namespace Replenisher

variable {ids : IdSettings}

theorem active_ofSettings (h : ids.partitions ≤ partitionCount) :
    (ofSettings ids).active = (List.range ids.partitions).map UInt16.ofNat := by
  have hmin : min ids.partitions partitionCount = ids.partitions := Nat.min_eq_left h
  unfold active ofSettings
  rw [hmin, List.filter_eq_self]
  exact fun p _ => decide_eq_true Std.ExtTreeSet.not_mem_empty

/-- The first scroll gives the whole batch: so much from each partition, and nothing that is
reserved. -/
theorem first_scroll (hpartitions : ids.partitions ≤ partitionCount)
    (hsize : ids.scrollSize < UInt64.size) :
    ∃ batch cursors, Cursors.scroll ids.scrollSize (ofSettings ids).active ∅ =
        ({ ids := batch, exhausted := [] }, cursors) ∧
      batch.length = ids.partitions * ids.scrollSize ∧ ∀ id ∈ batch, ¬ id.IsReserved := by
  have hlength : (ofSettings ids).active.length = ids.partitions := by
    rw [active_ofSettings hpartitions, List.length_map, List.length_range]
  have hroom : ∀ p, Cursors.place ∅ p + (ofSettings ids).active.count p * ids.scrollSize <
      counterLimit := by
    intro p
    have hplace : Cursors.place ∅ p ≤ reservedCount := by
      rw [Cursors.place, Std.ExtTreeMap.getElem?_empty]
      dsimp only
      split <;> decide
    have hcount : (ofSettings ids).active.count p * ids.scrollSize ≤
        partitionCount * UInt64.size :=
      Nat.mul_le_mul (Nat.le_trans List.count_le_length (hlength ▸ hpartitions))
        (Nat.le_of_lt hsize)
    unfold reservedCount at hplace
    unfold partitionCount UInt64.size at hcount
    unfold counterLimit
    omega
  obtain ⟨hexhausted, hids⟩ := Cursors.roomy_scroll _ hroom
  have hgapless := Cursors.gapless_scroll ids.scrollSize (ofSettings ids).active
    Cursors.filed_empty
  rw [hlength] at hids
  generalize Cursors.scroll ids.scrollSize (ofSettings ids).active ∅ = out
    at hexhausted hids hgapless ⊢
  obtain ⟨⟨batch, exhausted⟩, cursors⟩ := out
  obtain rfl : exhausted = [] := hexhausted
  exact ⟨batch, cursors, rfl, hids, hgapless.not_isReserved⟩

/-- The first round ends as the delivery of its whole batch does. -/
theorem first_round (hpositive : 0 < ids.partitions) (hpartitions : ids.partitions ≤ partitionCount)
    (hsize : ids.scrollSize < UInt64.size) (today : Instant) {clock : Nat} {locks : Locks}
    (hfree : locks.isHeld lockName clock = false) (p : Patience) :
    ∃ (batch : List Identifier) (s : State), s.Unstocked ids ∧
      batch.length = ids.partitions * ids.scrollSize ∧ (∀ id ∈ batch, ¬ id.IsReserved) ∧
      (round (ofSettings ids) p).perform (State.fresh ids today clock locks) =
        (.ok (ofSettings ids, ((deliver batch p).perform s).1),
          ((deliver batch p).perform s).2) := by
  have hs : (State.fresh ids today clock locks).InMemory := ⟨rfl, rfl⟩
  have hactive : (ofSettings ids).active ≠ [] := by
    rw [active_ofSettings hpartitions]
    simpa using Nat.ne_of_gt hpositive
  obtain ⟨batch, cursors, hscroll, hlength, hunreserved⟩ := first_scroll hpartitions hsize
  obtain ⟨locks', log, -, hround⟩ := perform_round hs hfree hactive p hscroll
  have hbatch : (batch.filter fun id => ¬ id.IsReserved) = batch :=
    List.filter_eq_self.mpr fun id hid => decide_eq_true (hunreserved id hid)
  dsimp only at hround
  rw [hbatch] at hround
  exact ⟨batch, _, ⟨⟨rfl, rfl⟩, rfl, rfl, rfl⟩, hlength, hunreserved, hround⟩

/-- A queue that takes anything takes the first batch, and a desk hands it out. -/
theorem first_round_fills (hmode : ids.mode = .partitioned) (hpositive : 0 < ids.partitions)
    (hpartitions : ids.partitions ≤ partitionCount) (hsizePositive : 0 < ids.scrollSize)
    (hsize : ids.scrollSize < UInt64.size) (today : Instant) {clock : Nat} {locks : Locks}
    (hfree : locks.isHeld lockName clock = false) (hroom : 0 < ids.queueCapacity) (p : Patience)
    (d : Desk) :
    ∃ s' id s'',
      (round (ofSettings ids) p).perform (State.fresh ids today clock locks) =
        (.ok (ofSettings ids, .ok (.delivered (ids.partitions * ids.scrollSize))), s') ∧
      s'.queue.length = ids.partitions * ids.scrollSize ∧
      (Desk.next d).perform s' = (.ok id, s'') ∧ ¬ id.IsReserved := by
  obtain ⟨batch, s, hs, hlength, hunreserved, hround⟩ :=
    first_round hpositive hpartitions hsize today hfree p
  obtain ⟨id, rest, rfl⟩ : ∃ id rest, batch = id :: rest := by
    refine List.exists_cons_of_ne_nil ?_
    rintro rfl
    exact absurd hlength (Nat.ne_of_lt (Nat.mul_pos hpositive hsizePositive))
  -- the queue is empty, so that only its capacity is asked for
  have hpush : s.queue.push? (id :: rest) = some ⟨ids.queueCapacity, id :: rest⟩ := by
    rw [hs.queue]
    exact if_pos (decide_eq_true hroom)
  obtain ⟨log, hdeliver⟩ := perform_deliver hs.inMemory hpush p
  rw [hdeliver, hlength] at hround
  have hid : ¬ id.IsReserved := hunreserved id List.mem_cons_self
  have hallocator := hs.allocator d
  obtain ⟨log', hnext⟩ := Desk.perform_next_queued (d := d)
    (s := { s with queue := ⟨ids.queueCapacity, id :: rest⟩, log }) hs.inMemory.outages
    ((congrArg Allocator.source hallocator).trans hmode) (congrArg Allocator.buffer hallocator)
    (show id :: rest = [] ++ id :: rest from rfl) nofun hid
  exact ⟨_, id, _, hround, hlength, hnext, hid⟩

/-- A queue that takes nothing does not take the first batch, and no desk has an identifier. -/
theorem first_round_starves (hmode : ids.mode = .partitioned) (hpositive : 0 < ids.partitions)
    (hpartitions : ids.partitions ≤ partitionCount) (hsizePositive : 0 < ids.scrollSize)
    (hsize : ids.scrollSize < UInt64.size) (today : Instant) {clock : Nat} {locks : Locks}
    (hfree : locks.isHeld lockName clock = false) (hroom : ids.queueCapacity = 0) (p : Patience)
    (d : Desk) :
    ∃ delivery s' message s'',
      (round (ofSettings ids) p).perform (State.fresh ids today clock locks) =
        (.ok (ofSettings ids, .ok delivery), s') ∧
      (delivery = .delivered 0 ∨ delivery = .cut) ∧
      (Desk.next d).perform s' = (.error (.idUnavailable message), s'') := by
  obtain ⟨batch, s, hs, hlength, -, hround⟩ :=
    first_round hpositive hpartitions hsize today hfree p
  have hbatch : batch.isEmpty = false := by
    rw [List.isEmpty_eq_false_iff_exists_mem, ← List.length_pos_iff_exists_mem, hlength]
    exact Nat.mul_pos hpositive hsizePositive
  have hpush : s.queue.push? batch = none := by
    rw [hs.queue, hroom, Queue.push?, hbatch]
    rfl
  obtain ⟨delivery, clock, log, hdeliver, hnothing⟩ := undelivered_deliver hs.inMemory hpush p
  rw [hdeliver] at hround
  have hallocator := hs.allocator d
  have hnone : ∀ x ∈ s.queue.items, x.IsReserved := by
    rw [hs.queue]
    exact nofun
  obtain ⟨clock', log', hnext⟩ :=
    Desk.perform_next_none (d := d) (s := { s with clock, log }) hs.inMemory.outages
      ((congrArg Allocator.source hallocator).trans hmode) (congrArg Allocator.buffer hallocator)
      hnone
  exact ⟨delivery, _, _, _, hround, hnothing, hnext⟩

end Replenisher

/-! ### Configurations -/

/-- A configuration that is accepted mints something from partitions that exist. -/
theorem Config.minting_of_valid {c : Config} (h : c.validate = .ok ()) :
    0 < c.ids.partitions ∧ c.ids.partitions ≤ partitionCount ∧ 0 < c.ids.scrollSize := by
  unfold validate at h
  split at h
  · cases h
  split at h
  · cases h
  rename_i hpartitions
  split at h
  · cases h
  rename_i hsize
  unfold partitionCount
  omega

namespace Replenisher

/-- **Whether a configuration that was accepted can allocate hangs on the capacity of its queue.**
Where that is positive, a round on a fresh supply whose lock is free brings the whole batch into
the queue, so many identifiers from each partition, and the next one that a desk hands out is not
reserved. Where it is zero, no patience is enough for a round to deliver anything, and a desk has
no identifier to hand out. -/
theorem first_round_hangs_on_capacity {c : Config} (hvalid : c.validate = .ok ())
    (hmode : c.ids.mode = .partitioned) (hsize : c.ids.scrollSize < UInt64.size) (today : Instant)
    {clock : Nat} {locks : Locks} (hfree : locks.isHeld lockName clock = false) (p : Patience)
    (d : Desk) :
    ∃ delivery s' answer s'',
      (round (ofSettings c.ids) p).perform (State.fresh c.ids today clock locks) =
        (.ok (ofSettings c.ids, .ok delivery), s') ∧
      (Desk.next d).perform s' = (answer, s'') ∧
      (0 < c.ids.queueCapacity →
        delivery = .delivered (c.ids.partitions * c.ids.scrollSize) ∧
        s'.queue.length = c.ids.partitions * c.ids.scrollSize ∧
        ∃ id, answer = .ok id ∧ ¬ id.IsReserved) ∧
      (c.ids.queueCapacity = 0 →
        (delivery = .delivered 0 ∨ delivery = .cut) ∧
        ∃ message, answer = .error (.idUnavailable message)) := by
  obtain ⟨hpositive, hpartitions, hsizePositive⟩ := Config.minting_of_valid hvalid
  rcases Nat.eq_zero_or_pos c.ids.queueCapacity with hzero | hroom
  · obtain ⟨delivery, s', message, s'', hround, hnothing, hnext⟩ := first_round_starves hmode
      hpositive hpartitions hsizePositive hsize today hfree hzero p d
    exact ⟨delivery, s', _, s'', hround, hnext, fun hroom => absurd hzero (Nat.ne_of_gt hroom),
      fun _ => ⟨hnothing, message, rfl⟩⟩
  · obtain ⟨s', id, s'', hround, hqueue, hnext, hid⟩ := first_round_fills hmode hpositive
      hpartitions hsizePositive hsize today hfree hroom p d
    exact ⟨_, s', _, s'', hround, hnext, fun _ => ⟨rfl, hqueue, id, rfl, hid⟩,
      fun hzero => absurd hzero (Nat.ne_of_gt hroom)⟩

/-- The configuration for a single process brings five identifiers of each of its partitions into
the queue. -/
theorem inMemory_delivers :
    Config.inMemory.validate = .ok () ∧
      ∃ s' id s'',
        (round (ofSettings Config.inMemory.ids) .endless).perform
            (State.fresh Config.inMemory.ids ⟨0, 0⟩ 0 .empty) =
          (.ok (ofSettings Config.inMemory.ids, .ok (.delivered 5120)), s') ∧
        (Desk.next .front).perform s' = (.ok id, s'') ∧ ¬ id.IsReserved := by
  have hvalid : Config.inMemory.validate = .ok () := by decide
  have hfree : Locks.empty.isHeld lockName 0 = false := rfl
  obtain ⟨delivery, s', answer, s'', hround, hnext, hfills, -⟩ :=
    first_round_hangs_on_capacity hvalid rfl (by decide) ⟨0, 0⟩ hfree .endless .front
  obtain ⟨rfl, -, id, rfl, hid⟩ := hfills (by decide)
  exact ⟨hvalid, s', id, s'', hround, hnext, hid⟩

/-- A capacity of zero is accepted, and then no patience is enough. -/
theorem accepted_without_room :
    let c : Config := { Config.inMemory with ids := { queueCapacity := 0 } }
    c.validate = .ok () ∧ c.ids.mode = .partitioned ∧
      ∀ p, ¬ ∃ r s', (round (ofSettings c.ids) p).perform (State.fresh c.ids ⟨0, 0⟩ 0 .empty) =
        (.ok (r, .ok (.delivered (c.ids.partitions * c.ids.scrollSize))), s') := by
  intro c
  refine ⟨by decide, rfl, ?_⟩
  rintro p ⟨r, s', hdelivered⟩
  have hmode : c.ids.mode = .partitioned := rfl
  have hfree : Locks.empty.isHeld lockName 0 = false := rfl
  obtain ⟨delivery, s, message, s'', hround, hnothing, -⟩ := first_round_starves hmode (by decide)
    (by decide) (by decide) (by decide) ⟨0, 0⟩ hfree rfl p .front
  have hsame := Except.ok.inj (congrArg Prod.fst (hround.symm.trans hdelivered))
  obtain rfl : delivery = .delivered 5120 := Except.ok.inj (congrArg Prod.snd hsame)
  rcases hnothing with hzero | hcut
  · cases hzero
  · cases hcut

end Replenisher

end AccessRegistry
