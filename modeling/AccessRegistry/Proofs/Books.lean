/-
# What actions leave on the books

The books of a registry are its records and the trail of what was recorded; the supply of
identifiers, the clock and the log do not belong to them. What a computation does to the
books, where the records are in memory, is told by a postcondition of its result and of the
books that it leaves (`Ends`), and a sequence is told part by part (`ends_bind`). What holds of
the whole state is carried along a computation that keeps it (`Preserves`).

Key definitions: `Books`, `Ends`, `Gives`, `Idle`, `Preserves`.
Key theorems: `ends_bind`, `gives_bind`, `preserves_bind`, `Action.gives_change`,
`Procedure.run_attempt`, `Desk.idle_next`, `Desk.idle_nextMany`.
-/
import AccessRegistry.Procedure
import AccessRegistry.Proofs.Actions

namespace AccessRegistry

/-- What stays when the supply, the clock and the log are left out. -/
@[ext] structure Books where
  tables : Tables
  trail : List AuditEvent

/-- The books of a state. -/
def State.books (s : State) : Books := ⟨s.tables, s.trail⟩

variable {ε α β : Type}

/-- What a computation ends with, and the state that it leaves. -/
def outcome (x : ExceptT ε (StateM State) α) (s : State) : Except ε α × State :=
  StateT.run (ExceptT.run x) s

/-- From some books a computation ends with a result and books of which the postcondition
holds, whatever else the state is. -/
def Ends (x : ExceptT ε (StateM State) α) (b : Books) (Q : Except ε α → Books → Prop) : Prop :=
  ∀ s : State, s.InMemory → s.books = b →
    (outcome x s).2.InMemory ∧ Q (outcome x s).1 (outcome x s).2.books

/-- From some books a computation ends with a value, and leaves other books. -/
def Gives (x : ExceptT ε (StateM State) α) (b : Books) (a : α) (b' : Books) : Prop :=
  Ends x b fun r b₁ => r = .ok a ∧ b₁ = b'

/-- A computation leaves the books as they are. -/
def Idle (x : ExceptT ε (StateM State) α) : Prop := ∀ b, Ends x b fun _ b' => b' = b

section

variable {x : ExceptT ε (StateM State) α} {f : α → ExceptT ε (StateM State) β} {b b' : Books}
  {a : α} {P Q : Except ε α → Books → Prop} {R : Except ε β → Books → Prop}

theorem outcome_bind (x : ExceptT ε (StateM State) α) (f : α → ExceptT ε (StateM State) β)
    (s : State) :
    outcome (x >>= f) s =
      match outcome x s with
      | (.ok a, s') => outcome (f a) s'
      | (.error e, s') => (.error e, s') := by
  unfold outcome
  rw [ExceptT.run_bind, StateT.run_bind]
  rcases StateT.run (ExceptT.run x) s with ⟨e | a, s'⟩ <;> rfl

theorem Ends.mono (h : Ends x b P) (himp : ∀ r b', P r b' → Q r b') : Ends x b Q :=
  fun s hs hb => ⟨(h s hs hb).1, himp _ _ (h s hs hb).2⟩

theorem ends_pure (h : Q (.ok a) b) : Ends (pure a) b Q := fun _ hs hb => ⟨hs, hb ▸ h⟩

theorem ends_throw {e : ε} (h : Q (.error e) b) : Ends (throw e) b Q :=
  fun _ hs hb => ⟨hs, hb ▸ h⟩

/-- The second part begins where the first one ends, if it does not fail. -/
theorem ends_bind (hx : Ends x b P) (hf : ∀ a b', P (.ok a) b' → Ends (f a) b' R)
    (he : ∀ e b', P (.error e) b' → R (.error e) b') : Ends (x >>= f) b R := by
  intro s hs hb
  obtain ⟨hs', hP⟩ := hx s hs hb
  rw [outcome_bind]
  rcases h : outcome x s with ⟨e | a, s'⟩
  · rw [h] at hs' hP
    exact ⟨hs', he e _ hP⟩
  · rw [h] at hs' hP
    exact hf a _ hP s' hs' rfl

/-- What is only told of success needs no word about a first part that fails. -/
theorem ends_bind_ok {S : β → Books → Prop} (hx : Ends x b P)
    (hf : ∀ a b', P (.ok a) b' →
      Ends (f a) b' fun result b'' => ∀ y, result = .ok y → S y b'') :
    Ends (x >>= f) b fun result b' => ∀ y, result = .ok y → S y b' := by
  refine ends_bind hx hf ?_
  rintro e b' - y ⟨⟩

theorem gives_bind (hx : Gives x b a b') (hf : Ends (f a) b' R) : Ends (x >>= f) b R := by
  refine ends_bind hx ?_ ?_
  · rintro _ _ ⟨h, rfl⟩
    obtain rfl := Except.ok.inj h
    exact hf
  · rintro _ _ ⟨h, -⟩
    cases h

theorem Gives.ends (h : Gives x b a b') (hQ : Q (.ok a) b') : Ends x b Q :=
  h.mono fun _ _ h => h.1 ▸ h.2 ▸ hQ

theorem ends_get_bind {f : State → ExceptT ε (StateM State) β} (hf : ∀ s, Ends (f s) b R) :
    Ends (get >>= f) b R := fun s => hf s s

theorem idle_of_outcome (h : ∀ s : State, s.InMemory →
    (outcome x s).2.InMemory ∧ (outcome x s).2.books = s.books) : Idle x :=
  fun _ s hs hb => hb ▸ h s hs

theorem Idle.books_eq (h : Idle x) {s : State} (hs : s.InMemory) :
    (outcome x s).2.books = s.books := (h _ s hs rfl).2

theorem idle_pure (a : α) : Idle (pure a : ExceptT ε (StateM State) α) := fun _ => ends_pure rfl

theorem idle_throw (e : ε) : Idle (throw e : ExceptT ε (StateM State) α) := fun _ => ends_throw rfl

/-- What comes after a part that leaves the books alone begins with the same books. -/
theorem Idle.ends_bind (hx : Idle x) (hf : ∀ a, Ends (f a) b R) (he : ∀ e, R (.error e) b) :
    Ends (x >>= f) b R := by
  refine AccessRegistry.ends_bind (hx b) ?_ ?_
  · rintro a _ rfl
    exact hf a
  · rintro e _ rfl
    exact he e

theorem idle_bind (hx : Idle x) (hf : ∀ a, Idle (f a)) : Idle (x >>= f) :=
  fun b => hx.ends_bind (fun a => hf a b) fun _ => rfl

theorem idle_get_bind {f : State → ExceptT ε (StateM State) β} (hf : ∀ s, Idle (f s)) :
    Idle (get >>= f) := fun b => ends_get_bind fun s => hf s b

/-- A part that puts back the state that was read need leave the books alone only there. -/
theorem idle_get_bind_same {f : State → ExceptT ε (StateM State) β} (hf : ∀ s : State, s.InMemory →
    (outcome (f s) s).2.InMemory ∧ (outcome (f s) s).2.books = s.books) : Idle (get >>= f) :=
  idle_of_outcome hf

/-- A computation keeps a property of the state, whether it fails or not. -/
def Preserves (P : State → Prop) (x : ExceptT ε (StateM State) α) : Prop :=
  ∀ s, P s → P (outcome x s).2

variable {P : State → Prop}

theorem preserves_pure (a : α) : Preserves P (pure a : ExceptT ε (StateM State) α) := fun _ hs => hs

theorem preserves_throw (e : ε) : Preserves P (throw e : ExceptT ε (StateM State) α) :=
  fun _ hs => hs

theorem preserves_bind (hx : Preserves P x) (hf : ∀ a, Preserves P (f a)) :
    Preserves P (x >>= f) := by
  intro s hs
  have hs' := hx s hs
  rw [outcome_bind]
  rcases h : outcome x s with ⟨e | a, s'⟩
  · rw [h] at hs'
    exact hs'
  · rw [h] at hs'
    exact hf a s' hs'

theorem preserves_get_bind {f : State → ExceptT ε (StateM State) β} (hf : ∀ s, Preserves P (f s)) :
    Preserves P (get >>= f) := fun s hs => hf s s hs

end

/-! ### Actions and procedures -/

namespace Action

variable {b : Books} {s : State}

theorem Reads.outcome_eq {x : Action α} {a : α} (h : x.Reads s a) :
    ∃ log, outcome x s = (.ok a, { s with log }) := h

theorem gives_of_reads {x : Action α} {f : Tables → α}
    (h : ∀ s : State, s.InMemory → x.Reads s (f s.tables)) : Gives x b (f b.tables) b := by
  rintro s hs rfl
  obtain ⟨log, hx⟩ := (h s hs).outcome_eq
  rw [hx]
  exact ⟨hs.withLog log, rfl, rfl⟩

theorem idle_of_reads {x : Action α} {f : State → α}
    (h : ∀ s : State, s.InMemory → x.Reads s (f s)) : Idle x := by
  refine idle_of_outcome fun s hs => ?_
  obtain ⟨log, hx⟩ := (h s hs).outcome_eq
  rw [hx]
  exact ⟨hs.withLog log, rfl⟩

theorem idle_records (c : Call) (f : Tables → α) : Idle (do callRecords c; return f (← tables)) :=
  idle_of_reads fun _ hs => reads_callRecords hs c f

theorem ends_attempt {x : Action α} {Q : Except ServiceError (Except ServiceError α) → Books → Prop}
    (h : Ends x b fun r b' => Q (.ok r) b') : Ends (attempt x) b Q := h

theorem gives_attempt (h : Gives x b a b') : Gives (attempt x) b (.ok a) b' :=
  ends_attempt (h.ends ⟨rfl, rfl⟩)

theorem idle_call (c : Call) : Idle (call c) := by
  refine idle_of_outcome fun s hs => ?_
  have h : outcome (call c) s = (.ok (), s) := perform_call hs c
  rw [h]
  exact ⟨hs, rfl⟩

theorem idle_reach : Idle reach := by
  refine idle_of_outcome fun s hs => ?_
  have h : outcome reach s = (.ok (), s) := perform_reach hs
  rw [h]
  exact ⟨hs, rfl⟩

theorem perform_of_gives {x : Action α} {a : α} {b : Books} (hs : s.InMemory)
    (h : Gives x s.books a b) : ∃ s', x.perform s = (.ok a, s') ∧ s'.InMemory ∧ s'.books = b := by
  obtain ⟨hs', hvalue, hbooks⟩ := h s hs rfl
  exact ⟨_, Prod.ext hvalue rfl, hs', hbooks⟩

/-- A call that changes the tables gives its value and leaves what it changed. -/
theorem gives_change (c : Call) (f : Tables → α × Tables) :
    Gives (do callRecords c; change f) b (f b.tables).1 { b with tables := (f b.tables).2 } := by
  rintro s hs rfl
  have h : outcome (do callRecords c; change f) s = _ := perform_change hs c f
  rw [h]
  exact ⟨⟨hs.storage, hs.outages⟩, rfl, rfl⟩

theorem gives_record (e : AuditEvent) :
    Gives (record e) b () { b with trail := b.trail ++ [e] } := by
  rintro s hs rfl
  exact ⟨⟨hs.storage, hs.outages⟩, rfl, rfl⟩

theorem gives_say (level : Log.Level) (part : Log.Part) (message : String)
    (fields : List (String × Log.Value)) : Gives (say level part message fields) b () b := by
  rintro s hs rfl
  exact ⟨hs.withLog _, rfl, rfl⟩

theorem idle_say (level : Log.Level) (part : Log.Part) (message : String)
    (fields : List (String × Log.Value)) : Idle (say level part message fields) := fun _ =>
  (gives_say level part message fields).mono fun _ _ h => h.2

theorem gives_wait (ms : Nat) : Gives (wait ms) b () b := by
  rintro s hs rfl
  exact ⟨⟨hs.storage, hs.outages⟩, rfl, rfl⟩

theorem idle_attempt {x : Action α} (h : Idle x) : Idle (attempt x) := fun b => ends_attempt (h b)

theorem preserves_attempt {P : State → Prop} {x : Action α} (h : Preserves P x) :
    Preserves P (attempt x) := h

theorem preserves_discard {P : State → Prop} {x : Action α} (h : Preserves P x) :
    Preserves P (discard x) := preserves_bind h fun _ => preserves_pure ()

theorem preserves_reach {P : State → Prop} : Preserves P reach := by
  refine preserves_get_bind fun s => ?_
  split
  · exact preserves_throw _
  · exact preserves_pure ()

/-- An attempt does not fail: what comes after it goes by what came of it. -/
theorem ends_attempt_bind {x : Action α} {f : Except ServiceError α → Action β}
    {P : Except ServiceError α → Books → Prop} {R : Except ServiceError β → Books → Prop}
    (hx : Ends x b P) (hf : ∀ r b', P r b' → Ends (f r) b' R) : Ends (attempt x >>= f) b R := by
  refine ends_bind (P := fun r b' => ∃ a, r = .ok a ∧ P a b')
    (ends_attempt (hx.mono fun r b' h => ⟨r, rfl, h⟩)) ?_ ?_
  · rintro _ b' ⟨r, h, hP⟩
    obtain rfl := Except.ok.inj h
    exact hf _ b' hP
  · rintro e b' ⟨r, h, -⟩
    cases h

end Action

namespace Procedure

theorem action_ext {x y : Action α} (h : ∀ s, x.perform s = y.perform s) : x = y :=
  ExceptT.ext (StateT.ext h)

theorem run_then (p : Procedure α) (f : α → Procedure β) :
    (p >>= f).run = p.run >>= fun a => (f a).run := run_bind p f

theorem run_perform (c : Step α) : (perform c).run = c.perform := by
  apply action_ext
  intro s
  show (Action.attempt c.perform >>= fun r => run _).perform s = _
  rw [Action.perform_bind, Action.perform_attempt]
  rcases c.perform.perform s with ⟨e | a, s'⟩ <;> rfl

theorem run_attemptStep (c : Step α) : (attemptStep c).run = Action.attempt c.perform := by
  apply action_ext
  intro s
  show (Action.attempt c.perform >>= fun r => run _).perform s = _
  rw [Action.perform_bind, Action.perform_attempt]
  rfl

/-- A procedure whose error is a value runs as an action whose error is one. -/
theorem run_attempt (p : Procedure α) : p.attempt.run = Action.attempt p.run := by
  induction p with
  | done a => rfl
  | fail e => rfl
  | step c next ih =>
    apply action_ext
    intro s
    have hrun : (step c next).run = Action.attempt c.perform >>= fun r => (next r).run := rfl
    show (Action.attempt c.perform >>= fun r => (next r).attempt.run).perform s = _
    rw [hrun, Action.perform_attempt, Action.perform_bind, Action.perform_bind,
      Action.perform_attempt]
    dsimp only
    rw [ih, Action.perform_attempt]

theorem run_say (level : Log.Level) (part : Log.Part) (message : String)
    (fields : List (String × Log.Value)) :
    (say level part message fields).run = Action.say level part message fields :=
  run_perform _

end Procedure

/-! ### Desks -/

namespace State

theorem inMemory_setAllocator {s : State} (h : s.InMemory) (d : Desk) (a : Allocator) :
    (s.setAllocator d a).InMemory := by
  unfold setAllocator
  split <;> exact ⟨h.storage, h.outages⟩

theorem books_setAllocator (s : State) (d : Desk) (a : Allocator) :
    (s.setAllocator d a).books = s.books := by
  unfold setAllocator
  split <;> rfl

end State

namespace Desk

open AccessRegistry.Action

theorem idle_pop? (patience : Nat) : Idle (Store.pop? patience) := by
  refine idle_bind (idle_call _) fun _ => idle_get_bind_same fun s hs => ?_
  split
  · exact ⟨⟨hs.storage, hs.outages⟩, rfl⟩
  · exact ⟨⟨hs.storage, hs.outages⟩, rfl⟩

theorem idle_timedOut (timeout : Nat) : Idle (timedOut timeout) :=
  idle_bind (idle_say _ _ _ _) fun _ => idle_throw _

theorem idle_popOr {again : Action Identifier} (h : Idle again) (timeout deadline : Nat) :
    Idle (popOr again timeout deadline) := by
  refine idle_get_bind fun s => idle_bind (idle_pop? _) fun found => ?_
  cases found with
  | none => exact idle_timedOut timeout
  | some id =>
    dsimp only
    split
    · exact idle_bind (idle_say _ _ _ _) fun _ => h
    · exact idle_pure id

theorem idle_popUnreserved (timeout deadline : Nat) :
    ∀ waiting, Idle (popUnreserved timeout deadline waiting)
  | [] => idle_popOr (idle_timedOut timeout) timeout deadline
  | _ :: waiting => idle_popOr (idle_popUnreserved timeout deadline waiting) timeout deadline

theorem idle_draw : Idle draw :=
  idle_of_outcome fun _ hs => ⟨⟨hs.storage, hs.outages⟩, rfl⟩

/-- Handing out an identifier leaves the books alone. -/
theorem idle_next (d : Desk) : Idle (next d) := by
  refine idle_get_bind_same fun s hs => ?_
  dsimp only
  split
  · exact ⟨s.inMemory_setAllocator hs d _, s.books_setAllocator d _⟩
  · split
    · exact idle_draw _ s hs rfl
    · exact idle_popUnreserved _ _ _ _ s hs rfl

theorem idle_giveBack (d : Desk) (ids : List Identifier) : Idle (giveBack d ids) := by
  refine idle_of_outcome fun s hs => ?_
  have h : (outcome (giveBack d ids) s).2 =
      { s.setAllocator d ((s.allocator d).giveBack ids).1 with
        log := (s.setAllocator d ((s.allocator d).giveBack ids).1).log ++
          ((s.allocator d).giveBack ids).2 } := rfl
  rw [h]
  exact ⟨(s.inMemory_setAllocator hs d _).withLog _, s.books_setAllocator d _⟩

theorem idle_collect (d : Desk) (count : Nat) :
    ∀ more taken, Idle (collect d count more taken)
  | 0, taken => idle_pure taken
  | more + 1, taken => by
    unfold collect
    split
    · exact idle_pure taken
    · refine idle_bind (idle_attempt (idle_next d)) fun r => ?_
      cases r with
      | ok id => exact idle_collect d count more _
      | error e => exact idle_bind (idle_giveBack d _) fun _ => idle_throw e

theorem idle_nextMany (d : Desk) (count : Nat) : Idle (nextMany d count) :=
  idle_get_bind fun _ => idle_collect d count _ ∅

end Desk
end AccessRegistry
