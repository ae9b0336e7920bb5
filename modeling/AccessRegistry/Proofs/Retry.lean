/-
# Where a retried operation stops

A retried operation is called as long as its calls fail, their errors are retryable and there are
attempts left. So the number of calls is a position in the sequence of its outcomes: the first
success, the first error that is not retryable or the last attempt that is allowed, whichever
comes first. The outcome there is the result, and the calls are as many backoffs apart as there
are gaps between them.

The induction is on the attempts that are left. It needs the sequence from any attempt on, which
is why positions are counted from there (`Stops`).

Key definitions: `Retry.Stops`, `Retry.eventsFrom`, `Retry.position`, `Retry.RightCalls`.
Key theorems: `Retry.runFrom_stops`, `Retry.Stops.isLeast`, `Retry.stops_at_first_end`.
-/
import AccessRegistry.Retry
import Mathlib.Data.ENat.Lattice

namespace AccessRegistry.Retry

variable {ε α : Type} (p : Policy) (name : String) (retryable : ε → Bool) (describe : ε → String)
  (operation : Nat → Except ε α)

/-- The call of a number succeeds. -/
def Succeeds (i : Nat) : Prop := ∃ a, operation i = .ok a

/-- The call of a number fails for good. -/
def FailsForGood (i : Nat) : Prop := ∃ e, operation i = .error e ∧ retryable e = false

/-- The call of a number has an outcome after which there is another call, if one is allowed. -/
def MayBeRetried (i : Nat) : Prop := ∃ e, operation i = .error e ∧ retryable e = true

theorem mayBeRetried_iff (i : Nat) :
    MayBeRetried retryable operation i ↔
      ¬ Succeeds operation i ∧ ¬ FailsForGood retryable operation i := by
  unfold MayBeRetried Succeeds FailsForGood
  cases operation i with
  | ok a => simp
  | error e => simp

/-- A call of the number `first`, and then so many more calls with a backoff before each. -/
def eventsFrom (first more : Nat) : List Event :=
  .call first :: (List.range more).flatMap fun i => [.backoff (first + i), .call (first + i + 1)]

theorem eventsFrom_succ (first more : Nat) :
    eventsFrom first (more + 1) =
      .call first :: .backoff first :: eventsFrom (first + 1) more := by
  simp only [eventsFrom, List.range_succ_eq_map, List.flatMap_cons, List.flatMap_map, Nat.add_zero,
    List.cons_append, List.nil_append, Nat.succ_eq_add_one, ← Nat.add_assoc,
    Nat.add_right_comm first 1]

theorem countP_eventsFrom (first more : Nat) :
    (eventsFrom first more).countP Event.isCall = more + 1 := by
  induction more generalizing first with
  | zero => rfl
  | succ more ih =>
    rw [eventsFrom_succ, List.countP_cons, List.countP_cons, ih]
    simp [Event.isCall]

/-- What a run from an attempt on does that ends with the call `more` calls later: all calls
before it may be retried, it is the last one in itself or because no more are allowed, and its
outcome is the result. -/
structure Stops (first left more : Nat) (r : Run ε α) : Prop where
  le_left : more ≤ left
  retried : ∀ i < more, MayBeRetried retryable operation (first + i)
  last : Succeeds operation (first + more) ∨ FailsForGood retryable operation (first + more) ∨
    more = left
  result : r.result = operation (first + more)
  events : r.events = eventsFrom first more

/-- Every run stops somewhere, and within the attempts that it is allowed. -/
theorem runFrom_stops (first left : Nat) :
    ∃ more, Stops retryable operation first left more
      (runFrom p name retryable describe operation first left) := by
  induction left generalizing first with
  | zero =>
    unfold runFrom
    cases hout : operation first with
    | ok a => exact ⟨0, ⟨le_rfl, by simp, .inl ⟨a, hout⟩, hout.symm, rfl⟩⟩
    | error e => exact ⟨0, ⟨le_rfl, by simp, .inr (.inr rfl), hout.symm, rfl⟩⟩
  | succ left ih =>
    unfold runFrom
    cases hout : operation first with
    | ok a => exact ⟨0, ⟨Nat.zero_le _, by simp, .inl ⟨a, hout⟩, hout.symm, rfl⟩⟩
    | error e =>
      by_cases hretry : retryable e = true
      · obtain ⟨more, hle, hretried, hlast, hresult, hevents⟩ := ih (first + 1)
        have hplace : first + (more + 1) = first + 1 + more := by omega
        refine ⟨more + 1, ⟨by omega, fun i hi => ?_, ?_, ?_, ?_⟩⟩
        · cases i with
          | zero => exact ⟨e, hout, hretry⟩
          | succ i =>
            rw [show first + (i + 1) = first + 1 + i by omega]
            exact hretried i (by omega)
        · rw [hplace]
          exact hlast.imp_right (Or.imp_right (by omega))
        · simpa only [hretry, if_true, hplace] using hresult
        · simp only [hretry, if_true, hevents, eventsFrom_succ]
      · have hfinal : retryable e = false := Bool.eq_false_iff.mpr hretry
        refine ⟨0, ⟨Nat.zero_le _, by simp, .inr (.inl ⟨e, hout, hfinal⟩), ?_, ?_⟩⟩
        · simp [hretry, hout]
        · simp [hretry, eventsFrom]

/-- The positions, counted from one, at which a run may stop. -/
def ends : Set Nat :=
  {n | (∃ i, n = i + 1 ∧ Succeeds operation i) ∨
    (∃ i, n = i + 1 ∧ FailsForGood retryable operation i) ∨ n = max 1 p.maxAttempts}

variable {p retryable operation} in
/-- A run stops at the first of the positions at which it may. -/
theorem Stops.isLeast {more : Nat} {r : Run ε α}
    (h : Stops retryable operation 0 (p.maxAttempts - 1) more r) :
    IsLeast (ends p retryable operation) (more + 1) := by
  have hle := h.le_left
  have hretried := h.retried
  have hlast := h.last
  simp only [Nat.zero_add] at hretried hlast
  constructor
  · obtain hok | hfinal | hleft := hlast
    · exact .inl ⟨more, rfl, hok⟩
    · exact .inr (.inl ⟨more, rfl, hfinal⟩)
    · exact .inr (.inr (by omega))
  · rintro n (⟨i, rfl, hok⟩ | ⟨i, rfl, hfinal⟩ | rfl)
    · by_contra hlt
      exact ((mayBeRetried_iff _ _ _).mp (hretried i (by omega))).1 hok
    · by_contra hlt
      exact ((mayBeRetried_iff _ _ _).mp (hretried i (by omega))).2 hfinal
    · omega

/-- The position, counted from one, of the first call of a kind, if there is one. -/
noncomputable def position (kind : Nat → Prop) : ℕ∞ :=
  ⨅ (i : Nat) (_ : kind i), ((i + 1 : Nat) : ℕ∞)

/-- The least of the positions is the least of the three first ones. -/
theorem eq_min_position {n : Nat} (h : IsLeast (ends p retryable operation) n) :
    (n : ℕ∞) = min (position (Succeeds operation))
      (min (position (FailsForGood retryable operation)) (max 1 p.maxAttempts : Nat)) := by
  obtain ⟨hmem, hleast⟩ := h
  apply le_antisymm
  · refine le_min ?_ (le_min ?_ ?_)
    · exact le_iInf₂ fun i hi => Nat.cast_le.mpr (hleast (.inl ⟨i, rfl, hi⟩))
    · exact le_iInf₂ fun i hi => Nat.cast_le.mpr (hleast (.inr (.inl ⟨i, rfl, hi⟩)))
    · exact Nat.cast_le.mpr (hleast (.inr (.inr rfl)))
  · obtain ⟨i, rfl, hi⟩ | ⟨i, rfl, hi⟩ | rfl := hmem
    · exact min_le_of_left_le (iInf₂_le i hi)
    · exact min_le_of_right_le (min_le_of_left_le (iInf₂_le i hi))
    · exact min_le_of_right_le (min_le_right _ _)

/-- A run makes the right calls and takes the right backoffs, and nothing else happens. -/
structure RightCalls (r : Run ε α) : Prop where
  /-- The calls go up to the first success, the first error that is not retryable or the last
  attempt that is allowed, whichever comes first; one attempt is allowed in any case. -/
  calls : (r.calls : ℕ∞) = min (position (Succeeds operation))
    (min (position (FailsForGood retryable operation)) (max 1 p.maxAttempts : Nat))
  calls_pos : 0 < r.calls
  /-- The result is what the last call gave. -/
  result : r.result = operation (r.calls - 1)
  /-- There is one backoff before each call but the first, numbered from zero on. -/
  events : r.events =
    .call 0 :: (List.range (r.calls - 1)).flatMap (fun i => [.backoff i, .call (i + 1)])
  /-- No number, with one added, is more than the attempts that are allowed, so that it has room
  where their number has. -/
  bounded : ∀ i, .call i ∈ r.events ∨ .backoff i ∈ r.events → i + 1 ≤ max 1 p.maxAttempts

/-- **A retried operation stops at exactly the right call**, however its calls would go on for
ever. -/
theorem stops_at_first_end :
    RightCalls p retryable operation (run p name retryable describe operation) := by
  obtain ⟨more, hstops⟩ :=
    runFrom_stops p name retryable describe operation 0 (p.maxAttempts - 1)
  have hresult : (run p name retryable describe operation).result = operation (0 + more) :=
    hstops.result
  have hevents : (run p name retryable describe operation).events = eventsFrom 0 more :=
    hstops.events
  have hcalls : (run p name retryable describe operation).calls = more + 1 := by
    rw [Run.calls, hevents, countP_eventsFrom]
  have hle := hstops.le_left
  refine ⟨?_, ?_, ?_, ?_, ?_⟩
  · rw [hcalls]
    exact eq_min_position p retryable operation hstops.isLeast
  · rw [hcalls]
    exact Nat.succ_pos _
  · rw [hresult, hcalls, Nat.zero_add, Nat.add_sub_cancel]
  · rw [hevents, hcalls]
    simp only [eventsFrom, Nat.zero_add, Nat.add_sub_cancel]
  · intro i hi
    rw [hevents] at hi
    simp only [eventsFrom, List.mem_cons, List.mem_flatMap, List.mem_range, Nat.zero_add,
      List.not_mem_nil, or_false, Event.call.injEq, Event.backoff.injEq, reduceCtorEq,
      false_or] at hi
    obtain (rfl | ⟨j, hj, rfl⟩) | ⟨j, hj, rfl⟩ := hi
    · omega
    · omega
    · omega

/-- Two calls fail in passing and the third one for good, although eight more are allowed. -/
example : (run (.immediate 10) "" (· ≠ "gone") id
    fun i => if i = 2 then .error "gone" else (.error "busy" : Except String Unit)).events =
      [.call 0, .backoff 0, .call 1, .backoff 1, .call 2] := by decide +kernel

end AccessRegistry.Retry
