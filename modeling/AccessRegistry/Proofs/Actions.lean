/-
# What actions do

How an action runs is read off its parts: a sequence runs one part after the other
(`perform_bind`).

Where the records are in memory and nothing is out of service, a question to the stores
is answered from the tables. An action that only asks such questions, and tells the log
what it finds, is said to *read* its answer: it gives a value and leaves everything but
the log as it was (`Action.Reads`).

Key definitions: `State.InMemory`, `Action.Reads`.
Key theorems: `Action.perform_bind`, `Action.reads_bind`, `Action.Reads.unique`.
-/
import AccessRegistry.Store

namespace AccessRegistry

/-- The records are in memory, and every call works. -/
structure State.InMemory (s : State) : Prop where
  storage : s.storage = .memory
  outages : s.outages = []

theorem State.InMemory.withLog {s : State} (h : s.InMemory) (log : List Log.Record) :
    ({ s with log } : State).InMemory := ⟨h.storage, h.outages⟩

namespace Action

variable {α β : Type}

/-- A sequence runs one action after the other, up to the first that fails. -/
theorem perform_bind (x : Action α) (f : α → Action β) (s : State) :
    (x >>= f).perform s =
      match x.perform s with
      | (.ok a, s') => (f a).perform s'
      | (.error e, s') => (.error e, s') := by
  unfold perform
  rw [ExceptT.run_bind, StateT.run_bind]
  rcases StateT.run (ExceptT.run x) s with ⟨e | a, s'⟩ <;> rfl

theorem perform_get (s : State) : (get : Action State).perform s = (.ok s, s) := rfl

theorem perform_attempt (x : Action α) (s : State) :
    (attempt x).perform s = (.ok (x.perform s).1, (x.perform s).2) := rfl

theorem perform_discard (x : Action α) (s : State) :
    (discard x).perform s =
      match x.perform s with
      | (.ok _, s') => (.ok (), s')
      | (.error e, s') => (.error e, s') := by
  show (x >>= fun _ => pure ()).perform s = _
  rw [perform_bind]
  rfl

theorem snd_perform_discard (x : Action α) (s : State) :
    ((discard x).perform s).2 = (x.perform s).2 := by
  show ((x >>= fun _ => pure ()).perform s).2 = _
  rw [perform_bind]
  rcases x.perform s with ⟨e | a, s'⟩ <;> rfl

/-- An action gives a value, and changes nothing but the log. -/
def Reads (x : Action α) (s : State) (a : α) : Prop :=
  ∃ log, x.perform s = (.ok a, { s with log })

theorem Reads.unique {x : Action α} {s : State} {a b : α} (ha : x.Reads s a) (hb : x.Reads s b) :
    a = b := by
  obtain ⟨_, ha⟩ := ha
  obtain ⟨_, hb⟩ := hb
  rw [ha] at hb
  exact Except.ok.inj (congrArg Prod.fst hb)

theorem reads_pure (a : α) (s : State) : (pure a : Action α).Reads s a := ⟨s.log, rfl⟩

/-- What is read after something else was read is read in the same state, but for the
log. -/
theorem reads_bind {x : Action α} {f : α → Action β} {s : State} {a : α} {b : β}
    (hx : x.Reads s a) (hf : ∀ log, (f a).Reads { s with log } b) : (x >>= f).Reads s b := by
  obtain ⟨log, hx⟩ := hx
  obtain ⟨log', hf⟩ := hf log
  exact ⟨log', by rw [perform_bind, hx]; exact hf⟩

theorem reads_get {f : State → Action β} {s : State} {b : β} (h : (f s).Reads s b) :
    ((get : Action State) >>= f).Reads s b := h

theorem reads_tables (s : State) : tables.Reads s s.tables := ⟨s.log, rfl⟩

theorem reads_say (level : Log.Level) (part : Log.Part) (message : String)
    (fields : List (String × Log.Value)) (s : State) :
    (say level part message fields).Reads s () := ⟨_, rfl⟩

theorem reads_forIn {f : β → PUnit → Action (ForInStep PUnit)} (l : List β) :
    ∀ s : State, (∀ b log, (f b ⟨⟩).Reads { s with log } (.yield ⟨⟩)) →
      (forIn l PUnit.unit f).Reads s ⟨⟩ := by
  induction l with
  | nil => exact fun s _ => reads_pure _ s
  | cons b l ih =>
    intro s h
    rw [List.forIn_cons]
    exact reads_bind (h b s.log) fun log => ih _ fun b _ => h b _

/-! ### Calls -/

variable {s : State}

theorem perform_call_of_outages (h : s.outages = []) (c : Call) :
    (call c).perform s = (.ok (), s) := by
  obtain ⟨tables, trail, queue, locks, registry, front, draws, clock, reached, today, storage,
    outages, telemetry, log⟩ := s
  subst h
  rfl

theorem perform_call (h : s.InMemory) (c : Call) : (call c).perform s = (.ok (), s) :=
  perform_call_of_outages h.outages c

theorem perform_reach (h : s.InMemory) : reach.perform s = (.ok (), s) := by
  unfold reach
  rw [perform_bind, perform_get]
  simp only [h.storage, reduceCtorEq, if_false]
  rfl

theorem perform_callRecords (h : s.InMemory) (c : Call) :
    (callRecords c).perform s = (.ok (), s) := by
  unfold callRecords
  rw [perform_bind, perform_call h]
  exact perform_reach h

/-- A call that gets at the records and then changes the tables. -/
theorem perform_change (h : s.InMemory) (c : Call) (f : Tables → α × Tables) :
    (do callRecords c; change f).perform s =
      (.ok (f s.tables).1, { s with tables := (f s.tables).2 }) := by
  rw [perform_bind, perform_callRecords h]
  rfl

/-- A call that gets at the records and then reads the tables gives what stands there. -/
theorem reads_callRecords (h : s.InMemory) (c : Call) (f : Tables → α) :
    (do callRecords c; return f (← tables)).Reads s (f s.tables) :=
  reads_bind ⟨s.log, perform_callRecords h c⟩ fun _ => ⟨_, rfl⟩

/-- A call that asks about nobody need not get at the records; the answer is the same. -/
theorem perform_callUnless (h : s.InMemory) (c : Call) {idle : Bool} {none : α} {f : Tables → α}
    (hidle : idle = true → f s.tables = none) :
    (do
      call c
      if idle then return none
      reach
      return f (← tables)).perform s = (.ok (f s.tables), s) := by
  rw [perform_bind, perform_call h]
  cases idle with
  | true =>
    rw [hidle rfl]
    rfl
  | false =>
    simp only [Bool.false_eq_true, if_false]
    rw [perform_bind, perform_reach h]
    rfl

end Action

namespace Store

open AccessRegistry.Action

variable {s : State}

theorem reads_lookup? (h : s.InMemory) (p : Principal) :
    (lookup? p).Reads s (s.tables.directory.find? p) :=
  reads_callRecords h .lookup fun t => t.directory.find? p

theorem perform_lookupAt (h : s.InMemory) (keys : List AclKey) :
    (lookupAt keys).perform s = (.ok (s.tables.directory.findMany keys), s) :=
  perform_callUnless h .lookupAt (f := fun t => t.directory.findMany keys) fun hidle => by
    rw [List.isEmpty_iff.mp hidle]
    rfl

theorem reads_lookupAt (h : s.InMemory) (keys : List AclKey) :
    (lookupAt keys).Reads s (s.tables.directory.findMany keys) :=
  ⟨s.log, perform_lookupAt h keys⟩

theorem reads_parents (h : s.InMemory) (keys : List AclKey) :
    (parents keys).Reads s (Memberships.parents s.tables.memberships keys) := by
  refine ⟨s.log, perform_callUnless h .getParents
    (f := fun t => Memberships.parents t.memberships keys) fun hidle => ?_⟩
  rw [List.isEmpty_iff.mp hidle]
  rfl

theorem reads_entries (h : s.InMemory) (ks : List Entry.Key) :
    (entries ks).Reads s (s.tables.permissions.findMany ks) := by
  refine ⟨s.log, perform_callUnless h .getEntries
    (f := fun t => t.permissions.findMany ks) fun hidle => ?_⟩
  rw [List.isEmpty_iff.mp hidle]
  rfl

end Store
end AccessRegistry
