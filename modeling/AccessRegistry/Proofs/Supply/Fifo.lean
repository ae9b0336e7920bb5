/-
# The queue keeps all that it takes, in order

A call to the queue is one try at it, or several: whoever waits tries again each time that
another call reaches them. A try takes a batch as a whole, refuses it and leaves the queue as
it is, takes the oldest identifier away, or finds none. What each try makes of the queue is
told in `Queue.Happens`, and from it, along every sequence of tries, what was taken is what
was taken away followed by what waits still. The capacity bounds what waits but for the last
batch that was taken, which comes in as a whole.

Key definitions: `Queue.Try`, `Queue.Happens`, `Queue.Run`, `Queue.Use`.
Key theorems: `Queue.Run.conserves`, `Queue.Run.within`, `Queue.Use.makes_tries`,
`Queue.keeps_what_it_takes`.
-/
import AccessRegistry.Proofs.Actions
import AccessRegistry.Proofs.Supply.Site
import AccessRegistry.Supply.Overlap

namespace AccessRegistry

open AccessRegistry.Action

namespace Queue

/-- What one try at a queue comes to. -/
inductive Try where
  /-- A batch is taken. -/
  | taken (batch : List Identifier)
  /-- A batch finds no room. -/
  | refused (batch : List Identifier)
  /-- An identifier is taken away. -/
  | popped (id : Identifier)
  /-- There is nothing to take away. -/
  | dry

/-- When a try comes to what, and what it makes of the queue. -/
inductive Happens (q : Queue) : Try → Queue → Prop where
  | taken {batch : List Identifier} (hroom : batch = [] ∨ q.length < q.capacity) :
    Happens q (.taken batch) { q with items := q.items ++ batch }
  | refused {batch : List Identifier} (hbatch : batch ≠ []) (hfull : q.capacity ≤ q.length) :
    Happens q (.refused batch) q
  | popped {id : Identifier} {ids : List Identifier} (hitems : q.items = id :: ids) :
    Happens q (.popped id) { q with items := ids }
  | dry (hitems : q.items = []) : Happens q .dry q

/-- The try of a batch that was taken or was not. -/
def Try.ofPush (batch : List Identifier) : Bool → Try
  | true => .taken batch
  | false => .refused batch

/-- The try of somebody who found something or did not. -/
def Try.ofPop : Option Identifier → Try
  | some id => .popped id
  | none => .dry

/-- What a sequence of tries makes of a queue. -/
inductive Run : Queue → List Try → Queue → Prop where
  | nil (q : Queue) : Run q [] q
  | cons {q q' q'' : Queue} {t : Try} {ts : List Try} (h : q.Happens t q') (hrest : Run q' ts q'') :
    Run q (t :: ts) q''

namespace Try

/-- The batches that were taken, the first one first. -/
def accepted (ts : List Try) : List (List Identifier) :=
  ts.filterMap fun
    | .taken batch => some batch
    | _ => none

/-- The identifiers that were taken away, the first one first. -/
def handedOut (ts : List Try) : List Identifier :=
  ts.filterMap fun
    | .popped id => some id
    | _ => none

theorem accepted_append (ts ts' : List Try) : accepted (ts ++ ts') = accepted ts ++ accepted ts' :=
  List.filterMap_append

theorem handedOut_append (ts ts' : List Try) :
    handedOut (ts ++ ts') = handedOut ts ++ handedOut ts' := List.filterMap_append

theorem accepted_cons (t : Try) (ts : List Try) :
    accepted (t :: ts) = accepted [t] ++ accepted ts := accepted_append [t] ts

theorem handedOut_cons (t : Try) (ts : List Try) :
    handedOut (t :: ts) = handedOut [t] ++ handedOut ts := handedOut_append [t] ts

end Try

variable {q q' q'' : Queue} {t : Try} {ts ts' : List Try}

theorem Run.single (h : q.Happens t q') : Run q [t] q' := .cons h (.nil q')

theorem Run.append (h : Run q ts q') (h' : Run q' ts' q'') : Run q (ts ++ ts') q'' := by
  induction h with
  | nil q => exact h'
  | cons hfirst _ ih => exact .cons hfirst (ih h')

/-- What is in the queue and what a try brings is what it takes away and what is left. -/
theorem Happens.conserves (h : q.Happens t q') :
    q.items ++ (Try.accepted [t]).flatten = Try.handedOut [t] ++ q'.items := by
  cases h with
  | taken hroom => exact congrArg (q.items ++ ·) (List.append_nil _)
  | refused hbatch hfull => exact List.append_nil _
  | popped hitems => exact (List.append_nil _).trans hitems
  | dry hitems => exact List.append_nil _

/-- What was taken is what was handed out followed by what waits still. -/
theorem Run.conserves (h : Run q ts q') :
    q.items ++ (Try.accepted ts).flatten = Try.handedOut ts ++ q'.items := by
  induction h with
  | nil q => exact List.append_nil _
  | @cons q q' q'' t ts hfirst hrest ih =>
    calc q.items ++ (Try.accepted (t :: ts)).flatten
      _ = q.items ++ (Try.accepted [t]).flatten ++ (Try.accepted ts).flatten := by
        rw [Try.accepted_cons, List.flatten_append, List.append_assoc]
      _ = Try.handedOut [t] ++ (q'.items ++ (Try.accepted ts).flatten) := by
        rw [hfirst.conserves, List.append_assoc]
      _ = Try.handedOut (t :: ts) ++ q''.items := by
        rw [ih, Try.handedOut_cons t ts, List.append_assoc]

/-- The size of the largest of some batches. -/
def largest (batches : List (List Identifier)) : Nat := (batches.map List.length).max?.getD 0

theorem length_le_largest {batches : List (List Identifier)} {batch : List Identifier}
    (h : batch ∈ batches) : batch.length ≤ largest batches :=
  List.le_max?_getD_of_mem (List.mem_map_of_mem h)

/-- The most that can wait where no batch is larger than `n`: a last batch comes in when one
place at least is free. Without a capacity nothing comes in at all. -/
def bound (capacity n : Nat) : Nat := if capacity = 0 then 0 else capacity - 1 + n

theorem Happens.capacity_eq (h : q.Happens t q') : q'.capacity = q.capacity := by
  cases h <;> rfl

theorem Run.capacity_eq (h : Run q ts q') : q'.capacity = q.capacity := by
  induction h with
  | nil q => rfl
  | cons hfirst _ ih => exact ih.trans hfirst.capacity_eq

theorem Happens.within {n : Nat} (h : q.Happens t q') (hq : q.length ≤ bound q.capacity n)
    (hn : ∀ batch ∈ Try.accepted [t], batch.length ≤ n) : q'.length ≤ bound q'.capacity n := by
  cases h with
  | refused hbatch hfull => exact hq
  | dry hitems => exact hq
  | @popped id ids hitems =>
    have hlength : q.length = ids.length + 1 := congrArg List.length hitems
    exact Nat.le_trans (by rw [hlength]; exact Nat.le_succ _) hq
  | @taken batch hroom =>
    have hbatch : batch.length ≤ n := hn batch (List.mem_singleton_self batch)
    have hlength : (q.items ++ batch).length = q.length + batch.length := List.length_append
    show (q.items ++ batch).length ≤ bound q.capacity n
    rw [hlength]
    rcases hroom with rfl | hroom
    · exact hq
    · unfold bound
      rw [if_neg (Nat.ne_zero_of_lt hroom)]
      omega

/-- The capacity bounds what waits, but for one batch. -/
theorem Run.within {n : Nat} (h : Run q ts q') (hq : q.length ≤ bound q.capacity n)
    (hn : ∀ batch ∈ Try.accepted ts, batch.length ≤ n) : q'.length ≤ bound q'.capacity n := by
  induction h with
  | nil q => exact hq
  | cons hfirst _ ih =>
    rw [Try.accepted_cons] at hn
    refine ih (hfirst.within hq fun batch hbatch => ?_) fun batch hbatch => ?_
    · exact hn batch (List.mem_append_left _ hbatch)
    · exact hn batch (List.mem_append_right _ hbatch)

/-! ### What is computed at the queue -/

/-- A batch is taken if it is empty or finds room. -/
theorem happens_of_push? {batch : List Identifier} (h : q.push? batch = some q') :
    q.Happens (.taken batch) q' := by
  unfold push? at h
  split at h
  · rename_i hempty
    obtain rfl := List.isEmpty_iff.mp hempty
    obtain rfl := Option.some.inj h
    have htaken : q.Happens (.taken []) { q with items := q.items ++ [] } := .taken (.inl rfl)
    rwa [List.append_nil] at htaken
  · split at h
    · rename_i hroom
      obtain rfl := Option.some.inj h
      exact .taken (.inr (of_decide_eq_true hroom))
    · cases h

theorem happens_of_push?_eq_none {batch : List Identifier} (h : q.push? batch = none) :
    q.Happens (.refused batch) q := by
  unfold push? at h
  split at h
  · cases h
  · rename_i hbatch
    split at h
    · cases h
    · rename_i hroom
      refine .refused (fun hempty => hbatch (List.isEmpty_iff.mpr hempty)) ?_
      exact Nat.le_of_not_lt fun hlt => hroom (decide_eq_true hlt)

theorem happens_of_pop? {id : Identifier} (h : q.pop? = some (id, q')) :
    q.Happens (.popped id) q' := by
  unfold pop? at h
  split at h
  · cases h
  · rename_i id' ids hitems
    simp only [Option.some.injEq, Prod.mk.injEq] at h
    obtain ⟨rfl, rfl⟩ := h
    exact .popped hitems

theorem happens_of_pop?_eq_none (h : q.pop? = none) : q.Happens .dry q := by
  unfold pop? at h
  split at h
  · rename_i hitems
    exact .dry hitems
  · cases h

end Queue

namespace Store

variable {s : State}

theorem perform_push_some (hs : s.outages = []) {batch : List Identifier} {queue : Queue}
    (h : s.queue.push? batch = some queue) (patience : Nat) :
    (push batch patience).perform s = (.ok true, { s with queue }) := by
  unfold push
  rw [perform_bind, perform_call_of_outages hs]
  dsimp only
  rw [perform_bind, perform_get]
  dsimp only
  rw [h]
  rfl

theorem perform_push_none (hs : s.outages = []) {batch : List Identifier}
    (h : s.queue.push? batch = none) (patience : Nat) :
    (push batch patience).perform s = (.ok false, { s with clock := s.clock + patience }) := by
  unfold push
  rw [perform_bind, perform_call_of_outages hs]
  dsimp only
  rw [perform_bind, perform_get]
  dsimp only
  rw [h]
  rfl

theorem perform_pop_some (hs : s.outages = []) {id : Identifier} {queue : Queue}
    (h : s.queue.pop? = some (id, queue)) (patience : Nat) :
    (pop? patience).perform s = (.ok (some id), { s with queue }) := by
  unfold pop?
  rw [perform_bind, perform_call_of_outages hs]
  dsimp only
  rw [perform_bind, perform_get]
  dsimp only
  rw [h]
  rfl

theorem perform_pop_none (hs : s.outages = []) (h : s.queue.pop? = none) (patience : Nat) :
    (pop? patience).perform s = (.ok none, { s with clock := s.clock + patience }) := by
  unfold pop?
  rw [perform_bind, perform_call_of_outages hs]
  dsimp only
  rw [perform_bind, perform_get]
  dsimp only
  rw [h]
  rfl

theorem push_happens (hs : s.outages = []) (batch : List Identifier) (patience : Nat) :
    ∃ took s', (push batch patience).perform s = (.ok took, s') ∧ s'.outages = [] ∧
      s.queue.Happens (.ofPush batch took) s'.queue := by
  cases h : s.queue.push? batch with
  | some queue =>
    exact ⟨true, _, perform_push_some hs h patience, hs, Queue.happens_of_push? h⟩
  | none =>
    exact ⟨false, _, perform_push_none hs h patience, hs, Queue.happens_of_push?_eq_none h⟩

theorem pop_happens (hs : s.outages = []) (patience : Nat) :
    ∃ found s', (pop? patience).perform s = (.ok found, s') ∧ s'.outages = [] ∧
      s.queue.Happens (.ofPop found) s'.queue := by
  cases h : s.queue.pop? with
  | some popped =>
    obtain ⟨id, queue⟩ := popped
    exact ⟨some id, _, perform_pop_some hs h patience, hs, Queue.happens_of_pop? h⟩
  | none =>
    exact ⟨none, _, perform_pop_none hs h patience, hs, Queue.happens_of_pop?_eq_none h⟩

end Store

namespace Queue

/-! ### Uses -/

/-- The calls that are made to a queue: one alone, or one that waits while another comes. -/
inductive Use where
  | push (batch : List Identifier) (patience : Nat)
  | pop (patience : Nat)
  | popThenPush (patience : Nat) (batch : List Identifier) (delay : Nat)
  | pushThenPop (patience : Nat) (batch : List Identifier) (delay : Nat)

/-- What the calls of a use came back with. -/
structure Use.Report where
  /-- The batch that was offered, and whether it was taken. -/
  pushed : Option (List Identifier × Bool)
  /-- What was asked for, if it was, and was found, if it was. -/
  popped : Option (Option Identifier)

namespace Use

/-- Makes the calls of a use. -/
def calls : Use → Action Report
  | .push batch patience => do
    let took ← Store.push batch patience
    return ⟨some (batch, took), none⟩
  | .pop patience => do
    let found ← Store.pop? patience
    return ⟨none, some found⟩
  | .popThenPush patience batch delay => do
    let r ← Overlap.popThenPush patience batch delay
    return ⟨some (batch, ← ofExcept r.pushed), some (← ofExcept r.popped)⟩
  | .pushThenPop patience batch delay => do
    let r ← Overlap.pushThenPop patience batch delay
    return ⟨some (batch, ← ofExcept r.pushed), some (← ofExcept r.popped)⟩

namespace Report

/-- The batches that were taken. -/
def accepted (r : Report) : List (List Identifier) :=
  match r.pushed with
  | some (batch, true) => [batch]
  | _ => []

/-- The identifiers that were given. -/
def handedOut (r : Report) : List Identifier := (r.popped.bind id).toList

/-- A report tells of some tries what came of them. A batch is turned down only if a try
found no room for it, and nobody leaves with nothing unless a try found the queue empty. -/
structure Tells (r : Report) (ts : List Try) : Prop where
  accepted : Try.accepted ts = r.accepted
  handedOut : Try.handedOut ts = r.handedOut
  refused : ∀ batch, r.pushed = some (batch, false) → .refused batch ∈ ts
  dry : r.popped = some none → .dry ∈ ts

theorem tells_push (batch : List Identifier) (took : Bool) :
    Tells ⟨some (batch, took), none⟩ [.ofPush batch took] := by
  cases took <;> exact ⟨rfl, rfl, by simp [Try.ofPush], by simp⟩

theorem tells_pop (found : Option Identifier) : Tells ⟨none, some found⟩ [.ofPop found] := by
  cases found <;> exact ⟨rfl, rfl, by simp, by simp [Try.ofPop]⟩

/-- Two calls may be tried in either order. -/
theorem Tells.both {batch : List Identifier} {took : Bool} {found : Option Identifier}
    {ts ts' : List Try} (hpush : Tells ⟨some (batch, took), none⟩ ts)
    (hpop : Tells ⟨none, some found⟩ ts') :
    Tells ⟨some (batch, took), some found⟩ (ts ++ ts') ∧
      Tells ⟨some (batch, took), some found⟩ (ts' ++ ts) := by
  refine ⟨⟨?_, ?_, ?_, ?_⟩, ⟨?_, ?_, ?_, ?_⟩⟩
  · rw [Try.accepted_append, hpush.accepted, hpop.accepted]
    exact List.append_nil _
  · rw [Try.handedOut_append, hpush.handedOut, hpop.handedOut]
    rfl
  · exact fun b hb => List.mem_append_left _ (hpush.refused b hb)
  · exact fun hb => List.mem_append_right _ (hpop.dry hb)
  · rw [Try.accepted_append, hpush.accepted, hpop.accepted]
    rfl
  · rw [Try.handedOut_append, hpush.handedOut, hpop.handedOut]
    exact List.append_nil _
  · exact fun b hb => List.mem_append_right _ (hpush.refused b hb)
  · exact fun hb => List.mem_append_left _ (hpop.dry hb)

/-- Who found nothing gets at last what came. -/
theorem Tells.popped {pushed : Option (List Identifier × Bool)} {ts : List Try}
    (h : Tells ⟨pushed, some none⟩ ts) (id : Identifier) :
    Tells ⟨pushed, some (some id)⟩ (ts ++ [.popped id]) where
  accepted := by
    rw [Try.accepted_append, h.accepted]
    exact List.append_nil _
  handedOut := by
    rw [Try.handedOut_append, h.handedOut]
    rfl
  refused batch hbatch := List.mem_append_left _ (h.refused batch hbatch)
  dry hnone := by cases hnone

/-- A batch that was refused is taken at last. -/
theorem Tells.taken {batch : List Identifier} {popped : Option (Option Identifier)}
    {ts : List Try} (h : Tells ⟨some (batch, false), popped⟩ ts) :
    Tells ⟨some (batch, true), popped⟩ (ts ++ [.taken batch]) where
  accepted := by
    rw [Try.accepted_append, h.accepted]
    rfl
  handedOut := by
    rw [Try.handedOut_append, h.handedOut]
    exact List.append_nil _
  refused b hb := by cases hb
  dry hnone := List.mem_append_left _ (h.dry hnone)

end Report

variable {s : State}

/-! ### Calls that overlap -/

theorem perform_now (patience delay : Nat) (s : State) :
    (Overlap.now patience delay).perform s =
      (.ok ⟨s.clock, patience, delay, s.reached = some s.clock⟩, s) := rfl

theorem perform_untilCall (o : Overlap) (s : State) :
    o.untilCall.perform s = (.ok (), { s with clock := o.start + o.delay }) := rfl

/-- Who was waiting either takes what it finds in the queue, or leaves the queue alone. -/
theorem perform_take {α : Type} (o : Overlap) (came : Bool) (find : Queue → Option (α × Queue))
    (s : State) :
    ∃ taken s', (o.take came find).perform s = (.ok taken, s') ∧ s'.outages = s.outages ∧
      match taken with
      | some a => find s.queue = some (a, s'.queue)
      | none => s'.queue = s.queue := by
  have hmark :
      (modify fun s => { s with reached := o.mark came s.reached } : Action PUnit).perform s =
        (.ok ⟨⟩, { s with reached := o.mark came s.reached }) := rfl
  unfold Overlap.take
  rw [perform_bind, hmark]
  dsimp only
  rw [perform_bind, perform_get]
  dsimp only
  split
  · rename_i a queue hfound
    exact ⟨some a, _, rfl, rfl, (Option.filter_eq_some_iff.mp hfound).1⟩
  · exact ⟨none, _, rfl, rfl, rfl⟩

/-- A pop that waits tries before the push comes, and again if it is reached. -/
theorem popThenPush_tries (hs : s.outages = []) (patience : Nat) (batch : List Identifier)
    (delay : Nat) :
    ∃ found took s' ts,
      (Overlap.popThenPush patience batch delay).perform s = (.ok ⟨.ok found, .ok took⟩, s') ∧
      s'.outages = [] ∧ s.queue.Run ts s'.queue ∧
      Report.Tells ⟨some (batch, took), some found⟩ ts := by
  obtain ⟨found, s₁, hpop, hs₁, hfirst⟩ := Store.pop_happens hs 0
  obtain ⟨took, s₂, hpush, hs₂, hsecond⟩ :=
    Store.push_happens (s := { s₁ with clock := s.clock + delay }) hs₁ batch 0
  have hboth := Run.cons hfirst (.single hsecond)
  have htells := (Report.Tells.both (Report.tells_push batch took) (Report.tells_pop found)).2
  unfold Overlap.popThenPush
  rw [perform_bind, perform_now]
  dsimp only
  rw [perform_bind, perform_attempt, hpop]
  dsimp only
  rw [perform_bind, perform_untilCall]
  dsimp only
  rw [perform_bind, perform_attempt, hpush]
  dsimp only
  cases found with
  | some id =>
    exact ⟨some id, took, s₂, _, rfl, hs₂, hboth, htells⟩
  | none =>
    dsimp only
    rw [perform_bind]
    obtain ⟨again, s₃, htake, hs₃, hqueue⟩ := perform_take _ _ Queue.pop? s₂
    rw [htake]
    refine ⟨again, took, s₃, ?_⟩
    cases again with
    | some id =>
      exact ⟨_, rfl, hs₃.trans hs₂, hboth.append (.single (happens_of_pop? hqueue)),
        htells.popped id⟩
    | none =>
      dsimp only at hqueue
      exact ⟨_, rfl, hs₃.trans hs₂, hqueue ▸ hboth, htells⟩

/-- A push that waits tries before the pop comes, and again if it is reached. -/
theorem pushThenPop_tries (hs : s.outages = []) (patience : Nat) (batch : List Identifier)
    (delay : Nat) :
    ∃ found took s' ts,
      (Overlap.pushThenPop patience batch delay).perform s = (.ok ⟨.ok found, .ok took⟩, s') ∧
      s'.outages = [] ∧ s.queue.Run ts s'.queue ∧
      Report.Tells ⟨some (batch, took), some found⟩ ts := by
  obtain ⟨took, s₁, hpush, hs₁, hfirst⟩ := Store.push_happens hs batch 0
  obtain ⟨found, s₂, hpop, hs₂, hsecond⟩ :=
    Store.pop_happens (s := { s₁ with clock := s.clock + delay }) hs₁ 0
  have hboth := Run.cons hfirst (.single hsecond)
  have htells := (Report.Tells.both (Report.tells_push batch took) (Report.tells_pop found)).1
  unfold Overlap.pushThenPop
  rw [perform_bind, perform_now]
  dsimp only
  rw [perform_bind, perform_attempt, hpush]
  dsimp only
  rw [perform_bind, perform_untilCall]
  dsimp only
  rw [perform_bind, perform_attempt, hpop]
  dsimp only
  cases took with
  | true =>
    exact ⟨found, true, s₂, _, rfl, hs₂, hboth, htells⟩
  | false =>
    dsimp only
    rw [perform_bind]
    obtain ⟨again, s₃, htake, hs₃, hqueue⟩ := perform_take _ _
      (fun q => (q.push? batch).map fun q => ((), q)) s₂
    rw [htake]
    refine ⟨found, again.isSome, s₃, ?_⟩
    cases again with
    | some _ =>
      obtain ⟨queue, hpushed, heq⟩ := Option.map_eq_some_iff.mp hqueue
      obtain rfl : queue = s₃.queue := congrArg Prod.snd heq
      exact ⟨_, rfl, hs₃.trans hs₂, hboth.append (.single (happens_of_push? hpushed)),
        htells.taken⟩
    | none =>
      dsimp only at hqueue
      exact ⟨_, rfl, hs₃.trans hs₂, hqueue ▸ hboth, htells⟩

/-- Every use is a sequence of tries, and comes back with what came of them. -/
theorem makes_tries (hs : s.outages = []) (u : Use) :
    ∃ report s' ts, u.calls.perform s = (.ok report, s') ∧ s'.outages = [] ∧
      s.queue.Run ts s'.queue ∧ report.Tells ts := by
  cases u with
  | push batch patience =>
    obtain ⟨took, s₁, h, hs₁, htry⟩ := Store.push_happens hs batch patience
    refine ⟨_, s₁, _, ?_, hs₁, .single htry, Report.tells_push batch took⟩
    rw [calls, perform_bind, h]
    rfl
  | pop patience =>
    obtain ⟨found, s₁, h, hs₁, htry⟩ := Store.pop_happens hs patience
    refine ⟨_, s₁, _, ?_, hs₁, .single htry, Report.tells_pop found⟩
    rw [calls, perform_bind, h]
    rfl
  | popThenPush patience batch delay =>
    obtain ⟨found, took, s', ts, h, hs', hrun, htells⟩ :=
      popThenPush_tries hs patience batch delay
    refine ⟨_, s', ts, ?_, hs', hrun, htells⟩
    rw [calls, perform_bind, h]
    rfl
  | pushThenPop patience batch delay =>
    obtain ⟨found, took, s', ts, h, hs', hrun, htells⟩ :=
      pushThenPop_tries hs patience batch delay
    refine ⟨_, s', ts, ?_, hs', hrun, htells⟩
    rw [calls, perform_bind, h]
    rfl

end Use

/-! ### Sequences of uses -/

variable {s : State}

theorem uses_make_tries : ∀ (us : List Use) {s : State}, s.outages = [] →
    ∃ reports s' ts, (us.mapM Use.calls).perform s = (.ok reports, s') ∧ s'.outages = [] ∧
      s.queue.Run ts s'.queue ∧ Try.accepted ts = reports.flatMap Use.Report.accepted ∧
      Try.handedOut ts = reports.flatMap Use.Report.handedOut
  | [], s, hs => ⟨[], s, [], by rw [List.mapM_nil]; rfl, hs, .nil _, rfl, rfl⟩
  | u :: us, s, hs => by
    obtain ⟨report, s₁, ts, hcalls, hs₁, hrun, htells⟩ := u.makes_tries hs
    obtain ⟨reports, s₂, ts', hrest, hs₂, hrun', haccepted, hhanded⟩ := uses_make_tries us hs₁
    refine ⟨report :: reports, s₂, ts ++ ts', ?_, hs₂, hrun.append hrun', ?_, ?_⟩
    · rw [List.mapM_cons, perform_bind, hcalls]
      dsimp only
      rw [perform_bind, hrest]
      rfl
    · rw [Try.accepted_append, htells.accepted, haccepted, List.flatMap_cons]
    · rw [Try.handedOut_append, htells.handedOut, hhanded, List.flatMap_cons]

theorem took_iff {q q' : Queue} {batch : List Identifier} {took : Bool}
    (h : q.Happens (.ofPush batch took) q') :
    (took = true ↔ batch = [] ∨ q.length < q.capacity) ∧
      q'.items = q.items ++ if took then batch else [] := by
  cases took with
  | true =>
    cases h with
    | taken hroom => exact ⟨iff_of_true rfl hroom, rfl⟩
  | false =>
    cases h with
    | refused hbatch hfull =>
      refine ⟨iff_of_false Bool.false_ne_true ?_, (List.append_nil _).symm⟩
      exact fun hroom => hroom.elim hbatch (Nat.not_lt_of_ge hfull)

theorem found_eq {q q' : Queue} {found : Option Identifier}
    (h : q.Happens (.ofPop found) q') : found = q.items.head? ∧ q'.items = q.items.tail := by
  cases found with
  | some id =>
    cases h with
    | popped hitems =>
      rw [hitems]
      exact ⟨rfl, rfl⟩
  | none =>
    cases h with
    | dry hitems =>
      rw [hitems]
      exact ⟨rfl, rfl⟩

/-- **The queue keeps what it takes**, and gives it in order. Whatever calls are made to a
queue that was empty, also calls that wait while others come, what was taken is what was handed
out followed by what waits, and what waits is bounded by the capacity but for one batch. Then
and so at any time a batch is taken, as a whole and at the end, if and only if it is empty or
finds the queue shorter than its capacity, and otherwise the queue stays as it is; and who asks
for an identifier gets the first one, or nothing if there is none. Of the calls that overlap
each comes back with what came of its tries. -/
theorem keeps_what_it_takes {capacity : Nat} (hs : s.outages = [])
    (hempty : s.queue = .empty capacity) (us : List Use) :
    ∃ reports s', (us.mapM Use.calls).perform s = (.ok reports, s') ∧
      s'.queue.capacity = capacity ∧
      (reports.flatMap Use.Report.accepted).flatten =
        reports.flatMap Use.Report.handedOut ++ s'.queue.items ∧
      (capacity = 0 → s'.queue.length = 0) ∧
      (0 < capacity →
        s'.queue.length ≤ capacity - 1 + largest (reports.flatMap Use.Report.accepted)) ∧
      (∀ batch patience, ∃ took s'', (Store.push batch patience).perform s' = (.ok took, s'') ∧
        (took = true ↔ batch = [] ∨ s'.queue.length < capacity) ∧
        s''.queue = ⟨capacity, s'.queue.items ++ if took then batch else []⟩) ∧
      (∀ patience, ∃ s'', (Store.pop? patience).perform s' = (.ok s'.queue.items.head?, s'') ∧
        s''.queue = ⟨capacity, s'.queue.items.tail⟩) ∧
      ∀ u : Use, ∃ report s'' ts, u.calls.perform s' = (.ok report, s'') ∧
        s'.queue.Run ts s''.queue ∧ report.Tells ts := by
  obtain ⟨reports, s', ts, hperform, hs', hrun, haccepted, hhanded⟩ := uses_make_tries us hs
  rw [hempty] at hrun
  have hcapacity : s'.queue.capacity = capacity := hrun.capacity_eq
  have hwithin : s'.queue.length ≤
      bound capacity (largest (reports.flatMap Use.Report.accepted)) := by
    rw [← haccepted, ← hcapacity]
    exact hrun.within (Nat.zero_le _) fun batch hbatch => length_le_largest hbatch
  refine ⟨reports, s', hperform, hcapacity, ?_, ?_, ?_, ?_, ?_, ?_⟩
  · rw [← haccepted, ← hhanded]
    exact hrun.conserves
  · rintro rfl
    exact Nat.le_zero.mp hwithin
  · intro hpos
    rwa [bound, if_neg (Nat.ne_zero_of_lt hpos)] at hwithin
  · intro batch patience
    obtain ⟨took, s'', hpush, -, htry⟩ := Store.push_happens hs' batch patience
    obtain ⟨htook, hitems⟩ := took_iff htry
    rw [hcapacity] at htook
    exact ⟨took, s'', hpush, htook, Queue.ext (htry.capacity_eq.trans hcapacity) hitems⟩
  · intro patience
    obtain ⟨found, s'', hpop, -, htry⟩ := Store.pop_happens hs' patience
    obtain ⟨rfl, hitems⟩ := found_eq htry
    exact ⟨s'', hpop, Queue.ext (htry.capacity_eq.trans hcapacity) hitems⟩
  · intro u
    obtain ⟨report, s'', ts', hcalls, -, hrun', htells⟩ := u.makes_tries hs'
    exact ⟨report, s'', ts', hcalls, hrun', htells⟩

/-- With room for two a batch of three comes in as a whole, and then nothing does until two have
left. A push that waits for them comes in behind what waits already; one that waits for nobody
does not. -/
theorem overshoots_by_a_batch :
    let id (n : Nat) : Identifier := .ofParts 1 n
    let us : List Use := [
      .push [id 1, id 2, id 3] 0,
      .push [id 4] 20,
      .pushThenPop 10 [id 5] 30,
      .pushThenPop 10 [id 6] 5,
      .push [] 0,
      .popThenPush 0 [id 7] 0]
    ∃ reports s',
      (us.mapM Use.calls).perform (.start { queueCapacity := 2 } ⟨0, 0⟩) = (.ok reports, s') ∧
      reports.flatMap Use.Report.accepted = [[id 1, id 2, id 3], [id 6], [], [id 7]] ∧
      reports.flatMap Use.Report.handedOut = [id 1, id 2, id 3] ∧
      s'.queue.items = [id 6, id 7] ∧ s'.queue.length ≤ 2 - 1 + 3 := by
  intro id us
  have hempty : (State.start { queueCapacity := 2 } ⟨0, 0⟩).queue = .empty 2 := rfl
  obtain ⟨reports, s', hperform, -, hkept, -, hbound, -⟩ := keeps_what_it_takes rfl hempty us
  have haccepted :
      (((us.mapM Use.calls).perform (.start { queueCapacity := 2 } ⟨0, 0⟩)).1.toOption.map
        fun reports => reports.flatMap Use.Report.accepted) =
          some [[id 1, id 2, id 3], [id 6], [], [id 7]] := by decide +kernel
  have hhanded :
      (((us.mapM Use.calls).perform (.start { queueCapacity := 2 } ⟨0, 0⟩)).1.toOption.map
        fun reports => reports.flatMap Use.Report.handedOut) =
          some [id 1, id 2, id 3] := by decide +kernel
  rw [hperform] at haccepted hhanded
  replace haccepted : reports.flatMap Use.Report.accepted =
      [[id 1, id 2, id 3], [id 6], [], [id 7]] := Option.some.inj haccepted
  replace hhanded : reports.flatMap Use.Report.handedOut = [id 1, id 2, id 3] :=
    Option.some.inj hhanded
  refine ⟨reports, s', hperform, haccepted, hhanded, ?_, ?_⟩
  · rw [haccepted, hhanded] at hkept
    exact (List.append_cancel_left hkept).symm
  · rw [haccepted] at hbound
    exact hbound (by decide)

end Queue
end AccessRegistry
