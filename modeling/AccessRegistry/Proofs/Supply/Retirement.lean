/-
# Partitions are retired for good

A replenisher goes from one round to the next, and in between others do what they like: they
take from the queue, hold the lock, mint from the same cursors. Whatever they do, a partition is
retired in a round that gets at the cursors and finds too few identifiers left in it, and in no
other way; and no later round asks it again. Each round that finds the lock free and room in the
queue moves every partition that is not retired then by a scroll. As nobody puts cursors back, no
partition can be moved for ever, so that after so many rounds none is left that is active. The
task ends then by itself.

Key definitions: `Replenisher.Scrolls`, `Replenisher.afterRound`, `Replenisher.Course`,
`Replenisher.Course.before`, `Replenisher.Course.Ready`, `Replenisher.runAmong`.
Key theorems: `Replenisher.round_cases`, `Replenisher.Course.mem_retired`,
`Replenisher.Course.le_place`, `Replenisher.Course.active_eq_nil`, `Replenisher.runAmong_alone`,
`Replenisher.Course.runAmong_ends`, `Replenisher.Course.retirement_is_final`.
-/
import AccessRegistry.Proofs.Books
import AccessRegistry.Proofs.Supply.Batches

namespace AccessRegistry

open AccessRegistry.Action
open State (Unmoved)

/-- A scroll fails and does nothing, or it does what the cursors tell. -/
theorem Store.perform_scroll_cases (ps : List Partition) (count : Nat) (s : State) :
    (∃ e s', (scroll ps count).perform s = (.error e, s') ∧ Unmoved s s') ∨
      ∃ s', (scroll ps count).perform s = (.ok (Cursors.scroll count ps s.tables.cursors).1,
        s'.withCursors (Cursors.scroll count ps s.tables.cursors).2) ∧ Unmoved s s' := by
  have hquiet := quiet_callRecords .scroll s
  unfold scroll
  rw [perform_bind]
  rcases hcall : (callRecords .scroll).perform s with ⟨e | _, s'⟩
  · rw [hcall] at hquiet
    exact .inl ⟨e, s', rfl, hquiet⟩
  · rw [hcall] at hquiet
    refine .inr ⟨s', ?_, hquiet⟩
    rw [← hquiet.cursors]
    rfl

theorem State.Unmoved.withCursors {s s' : State} (h : Unmoved s s') (cursors : Cursors) :
    Unmoved (s.withCursors cursors) (s'.withCursors cursors) :=
  ⟨rfl, h.queue, h.registry, h.front⟩

theorem Queue.items_of_push? {q q' : Queue} {batch : List Identifier}
    (h : q.push? batch = some q') : q'.items = q.items ++ batch := by
  cases happens_of_push? h with
  | taken _ => rfl

namespace Replenisher

variable {r r' : Replenisher} {p : Patience} {s s' s'' : State} {q : Partition}
  {batch : List Identifier}

theorem idle_rest (p : Patience) (ms : Nat) : Idle (p.rest ms) := by
  refine idle_get_bind_same fun s hs => ?_
  rcases p.wakeUp s.clock (s.clock + ms) with ⟨stop, wake⟩
  dsimp only
  split
  · exact ⟨⟨hs.storage, hs.outages⟩, rfl⟩
  · exact ⟨⟨hs.storage, hs.outages⟩, rfl⟩

theorem idle_acquireLock (name : String) (ttl : Nat) : Idle (Store.acquireLock name ttl) :=
  idle_bind (idle_call _) fun _ =>
    idle_get_bind_same fun _ hs => ⟨⟨hs.storage, hs.outages⟩, rfl⟩

theorem idle_tryLock {again : Action Acquisition} (hagain : Idle again) (r : Replenisher)
    (p : Patience) (deadline : Nat) : Idle (tryLock again r p deadline) := by
  refine idle_bind (idle_acquireLock _ _) fun token => ?_
  cases token with
  | some token => exact idle_pure _
  | none =>
    refine idle_get_bind fun s => ?_
    split
    · exact idle_bind (idle_say _ _ _ _) fun _ => idle_pure _
    · refine idle_bind (idle_rest p _) fun wake => ?_
      cases wake with
      | rested => exact hagain
      | calledOff => exact idle_pure _
      | cut => exact idle_pure _

theorem idle_pollLock (r : Replenisher) (p : Patience) (deadline : Nat) :
    ∀ more, Idle (pollLock r p deadline more)
  | 0 => idle_tryLock (idle_pure _) r p deadline
  | more + 1 => idle_tryLock (idle_pollLock r p deadline more) r p deadline

theorem idle_waitForLock (r : Replenisher) (p : Patience) : Idle (waitForLock r p) :=
  idle_get_bind fun _ => idle_pollLock r p _ _

/-- A batch came to the end of the queue, or it was lost; no cursor was touched. -/
structure Brought (batch : List Identifier) (s s' : State) : Prop where
  cursors : s'.tables.cursors = s.tables.cursors
  queue : s'.queue.items = s.queue.items ∨ s'.queue.items = s.queue.items ++ batch

theorem Brought.of_unmoved (h : Unmoved s s') : Brought batch s s' :=
  ⟨h.cursors, .inl (congrArg Queue.items h.queue)⟩

theorem Brought.after (h : Brought batch s' s'') (h' : Unmoved s s') : Brought batch s s'' :=
  ⟨h.cursors.trans h'.cursors, h'.queue ▸ h.queue⟩

theorem brought_tryPush {again : Action Delivery}
    (hagain : ∀ s, Brought batch s (again.perform s).2) (p : Patience) (s : State) :
    Brought batch s ((tryPush again batch p).perform s).2 := by
  unfold tryPush
  rw [perform_bind, perform_get]
  dsimp only
  rw [perform_bind]
  obtain ⟨s', hquiet, ⟨e, h⟩ | ⟨queue, hpush, h⟩ | h⟩ := Store.perform_push s batch
    (min pushWait (p.limit.getD (s.clock + pushWait) - s.clock))
  · rw [h]
    exact .of_unmoved hquiet
  · rw [h]
    exact ⟨hquiet.cursors, .inr (Queue.items_of_push? hpush)⟩
  · rw [h]
    dsimp only
    rw [if_neg Bool.false_ne_true]
    split
    · exact .of_unmoved hquiet
    · rw [perform_bind, perform_get]
      dsimp only
      split
      · exact .of_unmoved (hquiet.trans ⟨rfl, rfl, rfl, rfl⟩)
      · exact (hagain s').after hquiet

theorem brought_pushUntilTaken (batch : List Identifier) (p : Patience) :
    ∀ (more : Nat) (s : State), Brought batch s ((pushUntilTaken batch p more).perform s).2
  | 0 => brought_tryPush (fun s => .of_unmoved (quiet_pure Delivery.cut s)) p
  | more + 1 => brought_tryPush (brought_pushUntilTaken batch p more) p

theorem brought_deliver (batch : List Identifier) (p : Patience) (s : State) :
    Brought batch s ((deliver batch p).perform s).2 := by
  unfold deliver
  split
  · exact .of_unmoved (.refl s)
  · rw [perform_bind, perform_get]
    exact brought_pushUntilTaken batch p _ s

/-! ### What a round can come to -/

/-- A round gets the lock, for some partitions. -/
def Obtains (r : Replenisher) (p : Patience) (s : State) : Prop :=
  r.active ≠ [] ∧ ∃ token s', (waitForLock r p).perform s = (.ok (.acquired token), s')

/-- A round gets the lock, for some partitions, and then their cursors. -/
def Scrolls (r : Replenisher) (p : Patience) (s : State) : Prop :=
  r.active ≠ [] ∧ ∃ token s', (waitForLock r p).perform s = (.ok (.acquired token), s') ∧
    ∃ scrolled s'', (Store.scroll r.active r.settings.scrollSize).perform s' = (.ok scrolled, s'')

/-- In memory whoever has the lock gets at the cursors. -/
theorem scrolls_iff_obtains (hs : s.InMemory) : Scrolls r p s ↔ Obtains r p s := by
  refine ⟨fun ⟨hactive, token, s', hwait, _⟩ => ⟨hactive, token, s', hwait⟩, ?_⟩
  rintro ⟨hactive, token, s', hwait⟩
  have hidle := (idle_waitForLock r p _ s hs rfl).1
  have hs' : s'.InMemory := by
    have houtcome : outcome (waitForLock r p) s = _ := hwait
    rwa [houtcome] at hidle
  exact ⟨hactive, token, s', hwait, _, _, State.perform_scroll hs' _ _⟩

theorem perform_unlock_cases (token : LockToken) (s : State) :
    ∃ s', (unlock token).perform s = (.ok (), s') ∧ Unmoved s s' := by
  have hquiet := quiet_unlock token s
  refine ⟨_, Prod.ext ?_ rfl, hquiet⟩
  unfold unlock
  rw [perform_bind, perform_attempt]
  rcases ((Store.releaseLock lockName token).perform s).1 with e | _ | _ <;> rfl

/-- The batch that a scroll gives: what is reserved is not in it. -/
def batchOf (scrolled : Scroll) : List Identifier := scrolled.ids.filter fun id => ¬ id.IsReserved

theorem mint_of_not_acquired (hactive : r.active ≠ []) {answer : Except ServiceError Acquisition}
    (hwait : (waitForLock r p).perform s = (answer, s'))
    (hnone : ∀ token, answer ≠ .ok (.acquired token)) :
    ∃ result, (mint r p).perform s = (result, s') ∧
      ∀ r' minted, result = .ok (r', minted) → r' = r ∧ (minted = .idle ∨ minted = .cut) := by
  unfold mint
  dsimp only
  rw [if_neg (by simpa using hactive), perform_bind, hwait]
  rcases answer with e | token | _ | _
  · exact ⟨.error e, rfl, nofun⟩
  · exact absurd rfl (hnone token)
  · refine ⟨.ok (r, .idle), rfl, ?_⟩
    rintro _ _ ⟨⟩
    exact ⟨rfl, .inl rfl⟩
  · refine ⟨.ok (r, .cut), rfl, ?_⟩
    rintro _ _ ⟨⟩
    exact ⟨rfl, .inr rfl⟩

/-- Under the lock nothing happens if the scroll fails; otherwise what it gives is minted. -/
theorem mint_of_acquired (hactive : r.active ≠ []) {token : LockToken}
    (hwait : (waitForLock r p).perform s = (.ok (.acquired token), s')) :
    (∃ e s'' s₁, (Store.scroll r.active r.settings.scrollSize).perform s' = (.error e, s'') ∧
      (mint r p).perform s = (.error e, s₁) ∧ Unmoved s' s₁) ∨
    (∃ scrolled cursors s'' s₁,
      Cursors.scroll r.settings.scrollSize r.active s'.tables.cursors = (scrolled, cursors) ∧
      (Store.scroll r.active r.settings.scrollSize).perform s' = (.ok scrolled, s'') ∧
      (mint r p).perform s =
        (.ok (r.retire scrolled.exhausted, .batch (batchOf scrolled)), s₁) ∧
      Unmoved (s'.withCursors cursors) s₁) := by
  unfold mint
  dsimp only
  rw [if_neg (by simpa using hactive), perform_bind, hwait]
  dsimp only
  rw [perform_bind, perform_attempt]
  obtain ⟨e, s₂, hscroll, hquiet⟩ | ⟨s₂, hscroll, hquiet⟩ :=
    Store.perform_scroll_cases r.active r.settings.scrollSize s'
  · obtain ⟨s₁, hunlock, hquiet'⟩ := perform_unlock_cases token s₂
    rw [hscroll]
    dsimp only
    rw [perform_bind, hunlock]
    exact .inl ⟨e, s₂, s₁, rfl, rfl, hquiet.trans hquiet'⟩
  · obtain ⟨⟨scrolled, cursors⟩, hout⟩ : ∃ out,
      Cursors.scroll r.settings.scrollSize r.active s'.tables.cursors = out := ⟨_, rfl⟩
    rw [hout] at hscroll
    obtain ⟨s₁, hunlock, hquiet'⟩ := perform_unlock_cases token (s₂.withCursors cursors)
    rw [hscroll]
    dsimp only
    rw [perform_bind, hunlock]
    exact .inr ⟨scrolled, cursors, _, _, hout, rfl, rfl,
      (hquiet.withCursors cursors).trans (hquiet'.trans ⟨rfl, rfl, rfl, rfl⟩)⟩

/-- Minting leaves everything as it is, or it scrolls. -/
theorem mint_cases (r : Replenisher) (p : Patience) (s : State) :
    ∃ result s', (mint r p).perform s = (result, s') ∧
      (¬ Scrolls r p s ∧ (∀ r' minted, result = .ok (r', minted) →
          r' = r ∧ (minted = .idle ∨ minted = .cut)) ∧ Unmoved s s' ∨
        Scrolls r p s ∧ ∃ scrolled cursors,
          Cursors.scroll r.settings.scrollSize r.active s.tables.cursors = (scrolled, cursors) ∧
          result = .ok (r.retire scrolled.exhausted, .batch (batchOf scrolled)) ∧
          Unmoved (s.withCursors cursors) s') := by
  by_cases hactive : r.active = []
  · refine ⟨.ok (r, .idle), s, ?_, .inl ⟨fun h => h.1 hactive, ?_, .refl s⟩⟩
    · unfold mint
      rw [hactive]
      rfl
    · rintro _ _ ⟨⟩
      exact ⟨rfl, .inl rfl⟩
  have hquiet := quiet_waitForLock r p s
  obtain ⟨⟨answer, s₁⟩, hwait⟩ : ∃ out, (waitForLock r p).perform s = out := ⟨_, rfl⟩
  rw [hwait] at hquiet
  by_cases hacquired : ∃ token, answer = .ok (.acquired token)
  · obtain ⟨token, rfl⟩ := hacquired
    obtain ⟨e, s₂, s', hscroll, hmint, hquiet'⟩ |
      ⟨scrolled, cursors, s₂, s', hout, hscroll, hmint, hquiet'⟩ := mint_of_acquired hactive hwait
    · refine ⟨_, s', hmint, .inl ⟨?_, nofun, hquiet.trans hquiet'⟩⟩
      rintro ⟨-, token', s₁', hwait', scrolled, s₂', hscroll'⟩
      obtain rfl := congrArg Prod.snd (hwait.symm.trans hwait')
      cases congrArg Prod.fst (hscroll.symm.trans hscroll')
    · exact ⟨_, s', hmint, .inr ⟨⟨hactive, token, s₁, hwait, scrolled, s₂, hscroll⟩,
        scrolled, cursors, hquiet.cursors ▸ hout, rfl,
        (hquiet.withCursors cursors).trans hquiet'⟩⟩
  · obtain ⟨result, hmint, hidle⟩ := mint_of_not_acquired hactive hwait fun token htoken =>
      hacquired ⟨token, htoken⟩
    refine ⟨result, s₁, hmint, .inl ⟨?_, hidle, hquiet⟩⟩
    rintro ⟨-, token, s', hwait', -⟩
    exact hacquired ⟨token, congrArg Prod.fst (hwait.symm.trans hwait')⟩

/-- A round leaves everything as it is, or it scrolls: then it retires what the scroll
reports, and delivers what the scroll gives or loses it. -/
theorem round_cases (r : Replenisher) (p : Patience) (s : State) :
    ∃ r' result s', (round r p).perform s = (.ok (r', result), s') ∧
      (¬ Scrolls r p s ∧ r' = r ∧ Unmoved s s' ∨
        Scrolls r p s ∧ ∃ scrolled cursors,
          Cursors.scroll r.settings.scrollSize r.active s.tables.cursors = (scrolled, cursors) ∧
          r' = r.retire scrolled.exhausted ∧
          Brought (batchOf scrolled) (s.withCursors cursors) s') := by
  unfold round
  rw [perform_bind, perform_attempt]
  obtain ⟨result, s', hmint, ⟨hnever, hidle, hquiet⟩ |
    ⟨hscrolls, scrolled, cursors, hout, rfl, hquiet⟩⟩ := mint_cases r p s
  · rw [hmint]
    rcases result with e | ⟨r', minted⟩
    · exact ⟨r, .error e, s', rfl, .inl ⟨hnever, rfl, hquiet⟩⟩
    · obtain ⟨rfl, rfl | rfl⟩ := hidle _ _ rfl
      · exact ⟨r', _, s', rfl, .inl ⟨hnever, rfl, hquiet⟩⟩
      · exact ⟨r', _, s', rfl, .inl ⟨hnever, rfl, hquiet⟩⟩
  · rw [hmint]
    exact ⟨_, _, _, rfl, .inr ⟨hscrolls, scrolled, cursors, hout, rfl,
      (brought_deliver (batchOf scrolled) p s').after hquiet⟩⟩

/-- The replenisher and the state after a round. -/
def afterRound (r : Replenisher) (p : Patience) (s : State) : Replenisher × State :=
  match (round r p).perform s with
  | (.ok (r', _), s') => (r', s')
  | (.error _, s') => (r, s')

theorem afterRound_eq {result : Except ServiceError Delivery}
    (h : (round r p).perform s = (.ok (r', result), s')) : r.afterRound p s = (r', s') := by
  unfold afterRound
  rw [h]

theorem afterRound_of_not_scrolls (h : ¬ Scrolls r p s) :
    (r.afterRound p s).1 = r ∧ Unmoved s (r.afterRound p s).2 := by
  obtain ⟨r', result, s', hround, ⟨-, rfl, hquiet⟩ | ⟨hscrolls, -⟩⟩ := round_cases r p s
  · rw [afterRound_eq hround]
    exact ⟨rfl, hquiet⟩
  · exact absurd hscrolls h

/-- A round that scrolls brings something, and delivers it or loses it. -/
theorem brings_afterRound (h : Scrolls r p s) :
    ∃ batch, Brings r (r.afterRound p s).1 s.tables.cursors (r.afterRound p s).2.tables.cursors
        batch ∧
      ((r.afterRound p s).2.queue.items = s.queue.items ∨
        (r.afterRound p s).2.queue.items = s.queue.items ++ batch) := by
  obtain ⟨r', result, s', hround, ⟨hnever, -⟩ | ⟨-, scrolled, cursors, hout, rfl, hbrought⟩⟩ :=
    round_cases r p s
  · exact absurd h hnever
  · have hcursors : s'.tables.cursors = cursors := hbrought.cursors
    rw [afterRound_eq hround, hcursors]
    exact ⟨batchOf scrolled, brings_scroll hout, hbrought.queue⟩

theorem settings_afterRound (r : Replenisher) (p : Patience) (s : State) :
    (r.afterRound p s).1.settings = r.settings := by
  by_cases h : Scrolls r p s
  · obtain ⟨batch, hbrings, -⟩ := brings_afterRound h
    exact hbrings.settings
  · rw [(afterRound_of_not_scrolls h).1]

/-- Those are retired in a round that it asks and that have too few left. -/
theorem mem_retired_afterRound : q ∈ (r.afterRound p s).1.retired ↔ q ∈ r.retired ∨
    q ∈ r.active ∧ Scrolls r p s ∧
      counterLimit ≤ s.tables.cursors.place q + r.settings.scrollSize := by
  by_cases h : Scrolls r p s
  · obtain ⟨batch, hbrings, -⟩ := brings_afterRound h
    rw [hbrings.retired]
    simp only [h, true_and]
  · rw [(afterRound_of_not_scrolls h).1]
    simp only [h, false_and, and_false, or_false]

theorem untouched_afterRound (hq : q ∉ r.active) :
    (r.afterRound p s).2.tables.cursors[q]? = s.tables.cursors[q]? := by
  by_cases h : Scrolls r p s
  · obtain ⟨batch, hbrings, -⟩ := brings_afterRound h
    exact hbrings.untouched q hq
  · rw [(afterRound_of_not_scrolls h).2.cursors]

theorem Brings.partition_mem {t t' : Cursors} (h : Brings r r' t t' batch) (ht : t.Filed)
    {id : Identifier} (hid : id ∈ batch) : id.partition ∈ r.active := by
  rw [h.batch ht, List.mem_filter, List.mem_flatMap] at hid
  obtain ⟨⟨q, hq, hid⟩, -⟩ := hid
  obtain ⟨i, -, rfl⟩ := List.mem_map.mp hid
  rwa [Identifier.partition_ofParts]

theorem queue_afterRound (r : Replenisher) (p : Patience) (hs : s.tables.cursors.Filed) :
    ∃ new, (r.afterRound p s).2.queue.items = s.queue.items ++ new ∧
      ∀ id ∈ new, id.partition ∈ r.active := by
  by_cases h : Scrolls r p s
  · obtain ⟨batch, hbrings, hlost | hdelivered⟩ := brings_afterRound h
    · exact ⟨[], by rw [hlost, List.append_nil], nofun⟩
    · exact ⟨batch, hdelivered, fun id hid => hbrings.partition_mem hs hid⟩
  · refine ⟨[], ?_, nofun⟩
    rw [(afterRound_of_not_scrolls h).2.queue, List.append_nil]

/-! ### One round after the other -/

/-- How a replenisher's rounds follow one another. -/
structure Course where
  /-- What others do to the state before the round of a number. -/
  others : Nat → State → State
  /-- How long the round of a number may take. -/
  patience : Nat → Patience

namespace Course

variable (c : Course) (r : Replenisher) (s : State)

/-- The replenisher and the state after so many rounds. -/
def after : Nat → Replenisher × State
  | 0 => (r, s)
  | n + 1 => (after n).1.afterRound (c.patience n) (c.others n (after n).2)

/-- The replenisher that the round of a number begins with. -/
def before (n : Nat) : Replenisher := (c.after r s n).1

/-- The state in which the round of a number begins. -/
def start (n : Nat) : State := c.others n (c.after r s n).2

variable {c r s} {m n : Nat}

theorem before_succ (c : Course) (r : Replenisher) (s : State) (n : Nat) :
    c.before r s (n + 1) = ((c.before r s n).afterRound (c.patience n) (c.start r s n)).1 := rfl

theorem settings_before : ∀ n, (c.before r s n).settings = r.settings
  | 0 => rfl
  | n + 1 => (settings_afterRound _ _ _).trans (settings_before n)

theorem retired_mono (hmn : m ≤ n) (hq : q ∈ (c.before r s m).retired) :
    q ∈ (c.before r s n).retired := by
  induction hmn with
  | refl => exact hq
  | step _ ih => exact mem_retired_afterRound.mpr (.inl ih)

/-- A partition is retired if some round asked it and found too few left, and only then. -/
theorem mem_retired : ∀ n, q ∈ (c.before r s n).retired ↔ q ∈ r.retired ∨
    ∃ m < n, q ∈ (c.before r s m).active ∧
      Scrolls (c.before r s m) (c.patience m) (c.start r s m) ∧
      counterLimit ≤ (c.start r s m).tables.cursors.place q + r.settings.scrollSize
  | 0 => by simp [before, after]
  | n + 1 => by
    have hlast : ∀ {P : Nat → Prop}, (∃ m < n + 1, P m) ↔ (∃ m < n, P m) ∨ P n := by
      intro P
      simp only [Nat.lt_succ_iff_lt_or_eq, or_and_right, exists_or, exists_eq_left]
    rw [before_succ, mem_retired_afterRound, mem_retired n, settings_before, hlast, or_assoc]

/-- A round finds its records, the lock free, and room in the queue. -/
structure Ready (s : State) : Prop where
  inMemory : s.InMemory
  free : s.locks.isHeld lockName s.clock = false
  room : s.queue.hasRoom = true

/-- Nobody puts a cursor back before the next round. -/
def Forward (c : Course) (r : Replenisher) (s : State) : Prop :=
  ∀ n q, (c.after r s (n + 1)).2.tables.cursors.place q ≤
    (c.start r s (n + 1)).tables.cursors.place q

/-- A partition that is active still was moved in each round. -/
theorem le_place (hready : ∀ n, Ready (c.start r s n)) (hforward : c.Forward r s) :
    ∀ n, ∀ q ∈ (c.before r s n).active,
      n * r.settings.scrollSize ≤ (c.start r s n).tables.cursors.place q
  | 0, q, _ => by rw [Nat.zero_mul]; exact Nat.zero_le _
  | n + 1, q, hq => by
    obtain ⟨hlt, hnot⟩ := mem_active.mp hq
    have hbefore : q ∈ (c.before r s n).active :=
      mem_active.mpr ⟨by rwa [settings_before] at hlt ⊢,
        fun hretired => hnot (retired_mono (Nat.le_succ n) hretired)⟩
    have hplace := le_place hready hforward n q hbefore
    obtain ⟨hs, hfree, hroom⟩ := hready n
    obtain ⟨r', batch, cursors, locks, log, hround, hbrings, -⟩ :=
      perform_round_room hs hfree hroom (c.before r s n) (c.patience n)
    have hafter : c.after r s (n + 1) = _ := afterRound_eq hround
    have hnext : c.before r s (n + 1) = r' := congrArg Prod.fst hafter
    have hmoved := hbrings.moved q hbefore (hnext ▸ hnot)
    have hnobody := hforward n q
    rw [hafter] at hnobody
    rw [settings_before] at hmoved
    rw [Nat.succ_mul]
    calc n * r.settings.scrollSize + r.settings.scrollSize
      _ ≤ cursors.place q := by omega
      _ ≤ _ := hnobody

/-- After so many rounds no partition is left. -/
theorem active_eq_nil (hready : ∀ n, Ready (c.start r s n)) (hforward : c.Forward r s)
    (hn : counterLimit ≤ n * r.settings.scrollSize) : (c.before r s n).active = [] := by
  rw [List.eq_nil_iff_forall_not_mem]
  intro q hq
  have hplace := le_place hready hforward n q hq
  have hlt := Cursors.place_lt (c.start r s n).tables.cursors q
  omega

theorem before_eq_of_active_eq_nil (h : (c.before r s n).active = []) (hmn : n ≤ m) :
    c.before r s m = c.before r s n := by
  induction hmn with
  | refl => rfl
  | @step m _ ih =>
    rw [before_succ, ih]
    exact (afterRound_of_not_scrolls fun hscrolls => hscrolls.1 h).1

/-- The course in which others take all that is in the queue before each round. -/
def drained (p : Patience) : Course where
  others _ s := { s with queue := .empty s.queue.capacity }
  patience _ := p

theorem ready_drained (h : Ready ((drained p).start r s 0)) :
    ∀ n, Ready ((drained p).start r s n)
  | 0 => h
  | n + 1 => by
    obtain ⟨hs, hfree, hroom⟩ := ready_drained h n
    obtain ⟨r', batch, cursors, locks, log, hround, -, hback⟩ :=
      perform_round_room hs hfree hroom ((drained p).before r s n) p
    have hafter : (drained p).after r s (n + 1) = _ := afterRound_eq hround
    have hcapacity : 0 < ((drained p).start r s n).queue.capacity :=
      Nat.lt_of_le_of_lt (Nat.zero_le _) (of_decide_eq_true hroom)
    rw [start, hafter]
    exact ⟨⟨hs.storage, hs.outages⟩, hback.free, decide_eq_true hcapacity⟩

theorem forward_drained : (drained p).Forward r s := fun _ _ => Nat.le_refl _

end Course

/-! ### The task -/

/-- Runs rounds as a task does (`runRounds`), one of them after others did what they like. The
answer says whether the task came to its end; `more` bounds how many rounds there are. -/
def runAmong (others : Nat → State → State) (p : Patience) :
    (more number failures : Nat) → Replenisher → Action Bool
  | 0, _, _, _ => return false
  | more + 1, n, failures, r => do
    modify (others n)
    if p.isOver (← get).clock then return true
    let (r, result) ← round r p
    match result with
    | .ok _ =>
      if r.active.isEmpty then
        Action.say .error .allocator "No active id partitions left, stopping replenisher" []
        return true
      else runAmong others p more (n + 1) 0 r
    | .error e =>
      Action.say .error .allocator "Id replenishment round failed" [("error", .text e.message)]
      match ← p.rest (failurePause failures) with
      | .rested => runAmong others p more (n + 1) (failures + 1) r
      | _ => return true

/-- Where nobody does anything in between, this is how the task runs. -/
theorem runAmong_alone (p : Patience) : ∀ (more n failures : Nat) (r : Replenisher) (s : State),
    (discard (runAmong (fun _ s => s) p more n failures r)).perform s =
      (runRounds r p failures more).perform s
  | 0, _, _, _, _ => rfl
  | more + 1, n, failures, r, s => by
    have hagain := runAmong_alone p more (n + 1)
    simp only [perform_discard] at hagain ⊢
    unfold runAmong runRounds
    have hnothing : (modify fun s => s : Action Unit).perform s = (.ok (), s) := rfl
    rw [perform_bind, perform_bind, hnothing]
    dsimp only
    rw [perform_bind, perform_get]
    dsimp only
    by_cases hover : p.isOver s.clock = true
    · rw [if_pos hover, if_pos hover]
      rfl
    rw [if_neg hover, if_neg hover, perform_bind, perform_bind]
    rcases (round r p).perform s with ⟨e | ⟨r', e | d⟩, s'⟩
    · rfl
    · dsimp only
      rw [perform_bind, perform_bind]
      rcases (say .error .allocator "Id replenishment round failed"
        [("error", .text e.message)]).perform s' with ⟨e' | _, s₁⟩
      · rfl
      dsimp only
      rw [perform_bind, perform_bind]
      rcases (p.rest (failurePause failures)).perform s₁ with ⟨e' | _ | _ | _, s₂⟩
      · rfl
      · exact hagain (failures + 1) r' s₂
      · rfl
      · rfl
    · dsimp only
      by_cases hactive : r'.active.isEmpty = true
      · rw [if_pos hactive, if_pos hactive]
        rfl
      · rw [if_neg hactive, if_neg hactive]
        exact hagain 0 r' s'

/-- The task ends by itself once no partition is left. -/
theorem Course.runAmong_ends {c : Course} (hready : ∀ n, Course.Ready (c.start r s n))
    (hp : ∀ n, c.patience n = p) {n : Nat} (hn : (c.before r s n).active = []) :
    ∀ more m failures, m ≤ n → n < m + more →
      ∃ s', (runAmong c.others p more m failures (c.before r s m)).perform (c.after r s m).2 =
        (.ok true, s')
  | 0, _, _, _, _ => by omega
  | more + 1, m, failures, hm, hmore => by
    unfold runAmong
    rw [perform_bind]
    show ∃ s', (_ : Action Bool).perform (c.start r s m) = _
    rw [perform_bind, perform_get]
    dsimp only
    split
    · exact ⟨_, rfl⟩
    obtain ⟨hs, hfree, hroom⟩ := hready m
    obtain ⟨r', batch, cursors, locks, log, hround, -⟩ :=
      perform_round_room hs hfree hroom (c.before r s m) p
    have hafter : c.after r s (m + 1) = _ := afterRound_eq (hp m ▸ hround)
    rw [perform_bind, hround]
    dsimp only
    split
    · exact ⟨_, rfl⟩
    · rename_i hsome
      have hnext : c.before r s (m + 1) = r' := congrArg Prod.fst hafter
      have hlt : m < n := by
        refine Nat.lt_of_le_of_ne hm ?_
        rintro rfl
        rw [← hnext, Course.before_eq_of_active_eq_nil hn (Nat.le_succ m), hn] at hsome
        exact hsome rfl
      have hrest := Course.runAmong_ends hready hp hn more (m + 1) 0 hlt (by omega)
      rwa [hafter, hnext] at hrest

/-! ### For good -/

/-- **Partitions are retired for good, and just those that have too few left.** Whatever happens
between the rounds of a replenisher: what it has retired stays retired, and a partition is
retired just if some round asked it, got at the cursors and found too few identifiers left; in
memory, whoever gets the lock gets at the cursors. No later round moves a retired partition or
brings identifiers of it. The active partitions are, in ascending order, those that the settings
name and that are not retired.

If a scroll has identifiers, each round finds the lock free and room in the queue, and nobody
puts a cursor back, there is a round from which on no partition is active, all rounds do nothing,
and before which the task ended by itself. -/
theorem Course.retirement_is_final (c : Course) (r : Replenisher) (s : State) :
    (∀ m n, m ≤ n → ∀ q ∈ (c.before r s m).retired, q ∈ (c.before r s n).retired) ∧
    (∀ n q, q ∈ (c.before r s n).retired ↔ q ∈ r.retired ∨
      ∃ m < n, q ∈ (c.before r s m).active ∧
        Scrolls (c.before r s m) (c.patience m) (c.start r s m) ∧
        counterLimit ≤ (c.start r s m).tables.cursors.place q + r.settings.scrollSize) ∧
    (∀ n, (c.start r s n).InMemory →
      (Scrolls (c.before r s n) (c.patience n) (c.start r s n) ↔
        Obtains (c.before r s n) (c.patience n) (c.start r s n))) ∧
    (∀ n, ∀ q ∈ (c.before r s n).retired,
      (c.after r s (n + 1)).2.tables.cursors[q]? = (c.start r s n).tables.cursors[q]?) ∧
    (∀ n, (c.start r s n).tables.cursors.Filed →
      ∃ new, (c.after r s (n + 1)).2.queue.items = (c.start r s n).queue.items ++ new ∧
        ∀ id ∈ new, id.partition ∉ (c.before r s n).retired) ∧
    (∀ n, (c.before r s n).active.Pairwise (· < ·) ∧
      ∀ q, q ∈ (c.before r s n).active ↔
        q.toNat < r.settings.partitions ∧ q ∉ (c.before r s n).retired) ∧
    (0 < r.settings.scrollSize → (∀ n, Ready (c.start r s n)) → c.Forward r s →
      ∃ n, (∀ m, n ≤ m → (c.before r s m).active = [] ∧
          (round (c.before r s m) (c.patience m)).perform (c.start r s m) =
            (.ok (c.before r s m, .ok (.delivered 0)), c.start r s m)) ∧
        ∀ p, (∀ m, c.patience m = p) → ∀ more, n < more →
          ∃ s', (runAmong c.others p more 0 0 r).perform s = (.ok true, s')) := by
  refine ⟨fun m n hmn q hq => retired_mono hmn hq, fun n q => mem_retired n,
    fun n hs => scrolls_iff_obtains hs, fun n q hq => ?_, fun n hfiled => ?_, fun n => ?_,
    fun hsize hready hforward => ⟨counterLimit, fun m hm => ?_, fun p hp more hmore => ?_⟩⟩
  · exact untouched_afterRound fun hactive => (mem_active.mp hactive).2 hq
  · obtain ⟨new, hqueue, hnew⟩ := queue_afterRound (c.before r s n) (c.patience n) hfiled
    exact ⟨new, hqueue, fun id hid => (mem_active.mp (hnew id hid)).2⟩
  · refine ⟨active_ascending _, fun q => ?_⟩
    rw [mem_active, settings_before]
  · have hnone : (c.before r s m).active = [] :=
      active_eq_nil hready hforward (Nat.le_trans hm (Nat.le_mul_of_pos_right m hsize))
    exact ⟨hnone, perform_round_idle hnone _ _⟩
  · have hnone : (c.before r s counterLimit).active = [] :=
      active_eq_nil hready hforward (Nat.le_mul_of_pos_right _ hsize)
    exact runAmong_ends hready hp hnone more 0 0 (Nat.zero_le _) (by omega)

/-- Two partitions, one of them almost at its end, are both retired some day if all they mint is
taken. -/
theorem both_retired_some_day :
    let cursors : Cursors := (∅ : Cursors).save (.pointingTo (.ofParts 1 (counterLimit - 3)))
    let s : State := (State.start { queueCapacity := 2 } ⟨0, 0⟩).withCursors cursors
    let r := ofSettings { partitions := 2, scrollSize := 5 }
    let c := Course.drained .endless
    0 < r.settings.scrollSize ∧ (∀ n, Course.Ready (c.start r s n)) ∧ c.Forward r s ∧
      (∃ n, (c.before r s n).active = [] ∧ ∀ more, n < more →
        ∃ s', (runAmong c.others .endless more 0 0 r).perform s = (.ok true, s')) ∧
      1 ∈ (c.before r s 1).retired := by
  intro cursors s r c
  have hready : ∀ n, Course.Ready (c.start r s n) :=
    Course.ready_drained ⟨⟨rfl, rfl⟩, rfl, by decide⟩
  obtain ⟨-, hretired, hobtains, -, -, -, hends⟩ := Course.retirement_is_final c r s
  obtain ⟨n, hnone, hend⟩ := hends (by decide) hready Course.forward_drained
  refine ⟨by decide, hready, Course.forward_drained,
    ⟨n, (hnone n (Nat.le_refl n)).1, hend .endless fun _ => rfl⟩, ?_⟩
  have hfirst := hready 0
  refine (hretired 1 1).mpr (.inr ⟨0, Nat.zero_lt_one, by decide, ?_, by decide +kernel⟩)
  exact (hobtains 0 hfirst.inMemory).mpr
    ⟨by decide, _, _, perform_waitForLock hfirst.inMemory hfirst.free r .endless⟩

end Replenisher
end AccessRegistry
