/-
# The attempts of a registration

An object that is registered comes with an identifier, and for each further attempt it gets the
next one that the registry's desk has. The desk does not mind what the registration does in
between, so that the identifiers of all the attempts are settled in the beginning, and so are
their names. The first attempt whose name and identifier are both free is the one that succeeds.
Before that nothing happens to the table, and afterwards nobody is asked for an identifier.

Key definitions: `Desk.supply`, `Procedure.tried`, `Procedure.Goes`, `Naming.identifiers`,
`Naming.Settles`.
Key theorems: `Desk.supply_congr`, `Naming.registerFrom_settles`,
`Naming.first_free_attempt_is_taken`.
-/
import AccessRegistry.Proofs.Supply.HandingOut

namespace AccessRegistry

open AccessRegistry.Action

namespace State

/-- Two states in which the desks and their sources are the same, and work. -/
structure SuppliesAs (s s' : State) : Prop where
  registry : s'.registry = s.registry
  front : s'.front = s.front
  queue : s'.queue = s.queue
  draws : s'.draws = s.draws
  works : s.outages = []
  works' : s'.outages = []

variable {s s' : State}

theorem SuppliesAs.allocator (h : s.SuppliesAs s') (d : Desk) : s'.allocator d = s.allocator d :=
  allocator_congr h.registry h.front d

theorem SuppliesAs.setAllocator (h : s.SuppliesAs s') (d : Desk) (a : Allocator) :
    (s.setAllocator d a).SuppliesAs (s'.setAllocator d a) := by
  obtain ⟨hregistry, hfront, hqueue, hdraws, hworks, hworks'⟩ := h
  unfold State.setAllocator
  rw [hfront]
  cases d with
  | registry => exact ⟨rfl, rfl, hqueue, hdraws, hworks, hworks'⟩
  | front =>
    cases s.front with
    | none => exact ⟨rfl, rfl, hqueue, hdraws, hworks, hworks'⟩
    | some b => exact ⟨hregistry, rfl, hqueue, hdraws, hworks, hworks'⟩

end State

namespace Desk

variable {d : Desk} {s s' : State}

theorem perform_next_random (hsource : (s.allocator d).source = .random)
    (hbuffer : (s.allocator d).buffer = []) :
    (next d).perform s = (.ok (.ofRandomBits s.draws), { s with draws := s.draws + 1 }) := by
  unfold next
  rw [perform_bind, perform_get]
  dsimp only
  rw [Allocator.take?, hbuffer, hsource]
  rfl

/-- What a desk hands out depends on the desk and its source alone. -/
theorem next_suppliesAs (h : s.SuppliesAs s') :
    ((next d).perform s').1 = ((next d).perform s).1 ∧
      ((next d).perform s).2.SuppliesAs ((next d).perform s').2 := by
  have hallocator := h.allocator d
  cases hbuffer : (s.allocator d).buffer with
  | cons id rest =>
    rw [perform_next_buffered hbuffer, perform_next_buffered (hallocator ▸ hbuffer), hallocator]
    exact ⟨rfl, h.setAllocator d _⟩
  | nil =>
    have hbuffer' : (s'.allocator d).buffer = [] := hallocator ▸ hbuffer
    cases hsource : (s.allocator d).source with
    | random =>
      rw [perform_next_random hsource hbuffer, perform_next_random (hallocator ▸ hsource) hbuffer',
        h.draws]
      exact ⟨rfl, h.registry, h.front, h.queue, rfl, h.works, h.works'⟩
    | partitioned =>
      have hsource' : (s'.allocator d).source = .partitioned := hallocator ▸ hsource
      obtain hreserved | ⟨skipped, id, rest, hitems, hskipped, hid⟩ :=
        reserved_or_split s.queue.items
      · obtain ⟨clock, log, hnext⟩ := perform_next_none h.works hsource hbuffer hreserved
        obtain ⟨clock', log', hnext'⟩ :=
          perform_next_none h.works' hsource' hbuffer' (h.queue ▸ hreserved)
        rw [hnext, hnext', hallocator, h.queue]
        exact ⟨rfl, h.registry, h.front, rfl, h.draws, h.works, h.works'⟩
      · obtain ⟨log, hnext⟩ := perform_next_queued h.works hsource hbuffer hitems hskipped hid
        obtain ⟨log', hnext'⟩ :=
          perform_next_queued h.works' hsource' hbuffer' (h.queue ▸ hitems) hskipped hid
        rw [hnext, hnext', h.queue]
        exact ⟨rfl, h.registry, h.front, rfl, h.draws, h.works, h.works'⟩

/-- What a desk answers to those who ask one after the other. -/
def supply (d : Desk) (s : State) : Nat → Answer
  | 0 => ((next d).perform s).1
  | i + 1 => supply d ((next d).perform s).2 i

/-- What else happens to the state has no say in what a desk supplies. -/
theorem supply_congr : ∀ (i : Nat) {s s' : State}, s.SuppliesAs s' →
    supply d s' i = supply d s i
  | 0, _, _, h => (next_suppliesAs h).1
  | i + 1, _, _, h => supply_congr i (next_suppliesAs h).2

end Desk

/-! ### What a procedure does on its way -/

/-- The reservation that a step tries to make, if it does. -/
def Step.reserves : {β : Type} → Step β → List Reservation
  | _, insertReservation r => [r]
  | _, _ => []

namespace Procedure

variable {α β : Type}

/-- The reservations that a procedure tries to make, if it is run without a break. -/
def tried : Procedure α → State → List Reservation
  | done _, _ => []
  | fail _, _ => []
  | step c next, s =>
    c.reserves ++ (next (c.perform.perform s).1).tried (c.perform.perform s).2

/-- How a procedure ends that is run without a break, what it is answered on its way when it asks
for identifiers, and what it tries to reserve. -/
structure Goes (p : Procedure α) (s : State) (r : Except ServiceError α) (s' : State)
    (asked : List Answer) (tried : List Reservation) : Prop where
  run : p.run.perform s = (r, s')
  answers : p.answers s = asked
  tried : p.tried s = tried

variable {s s₁ s' : State} {r : Except ServiceError α} {asked : List Answer}
  {tried : List Reservation}

theorem goes_done (a : α) (s : State) : (done a).Goes s (.ok a) s [] [] := ⟨rfl, rfl, rfl⟩

theorem goes_step {c : Step β} {next : Except ServiceError β → Procedure α}
    {r₁ : Except ServiceError β} (hc : c.perform.perform s = (r₁, s₁))
    (h : (next r₁).Goes s₁ r s' asked tried) :
    (step c next).Goes s r s' (c.asked r₁ ++ asked) (c.reserves ++ tried) := by
  refine ⟨?_, ?_, ?_⟩
  · rw [perform_run_step, hc]
    exact h.run
  · rw [Procedure.answers, hc, h.answers]
  · rw [Procedure.tried, hc, h.tried]

theorem goes_attemptStep {c : Step β} {f : Except ServiceError β → Procedure α}
    {r₁ : Except ServiceError β} (hc : c.perform.perform s = (r₁, s₁))
    (h : (f r₁).Goes s₁ r s' asked tried) :
    (attemptStep c >>= f).Goes s r s' (c.asked r₁ ++ asked) (c.reserves ++ tried) :=
  goes_step hc h

theorem goes_perform {c : Step β} {f : β → Procedure α} {b : β}
    (hc : c.perform.perform s = (.ok b, s₁)) (h : (f b).Goes s₁ r s' asked tried) :
    (perform c >>= f).Goes s r s' (c.asked (.ok b) ++ asked) (c.reserves ++ tried) :=
  goes_step hc h

/-- Nothing but the log and the clock is changed. -/
structure Passes (s s' : State) : Prop where
  supplies : s.SuppliesAs s'
  inMemory : s'.InMemory
  books : s'.books = s.books

theorem passes_log (hs : s.InMemory) (log : List Log.Record) : Passes s { s with log } :=
  ⟨⟨rfl, rfl, rfl, rfl, hs.outages, hs.outages⟩, ⟨hs.storage, hs.outages⟩, rfl⟩

theorem passes_clock (hs : s.InMemory) (clock : Nat) : Passes s { s with clock } :=
  ⟨⟨rfl, rfl, rfl, rfl, hs.outages, hs.outages⟩, ⟨hs.storage, hs.outages⟩, rfl⟩

theorem goes_say (hs : s.InMemory) (level : Log.Level) (part : Log.Part) (message : String)
    (fields : List (String × Log.Value)) :
    ∃ s₁, Passes s s₁ ∧ ∀ {α : Type} {f : Unit → Procedure α} {r s' asked tried},
      (f ()).Goes s₁ r s' asked tried →
        (say level part message fields >>= f).Goes s r s' asked tried :=
  ⟨_, passes_log hs _, fun h => goes_perform rfl h⟩

theorem goes_pause (hs : s.InMemory) (ms : Nat) :
    ∃ s₁, Passes s s₁ ∧ ∀ {α : Type} {f : Unit → Procedure α} {r s' asked tried},
      (f ()).Goes s₁ r s' asked tried →
        (if ms ≠ 0 then perform (.pause ms) >>= f else f ()).Goes s r s' asked tried := by
  by_cases hms : ms ≠ 0
  · refine ⟨_, passes_clock hs (s.clock + ms), fun h => ?_⟩
    rw [if_pos hms]
    exact goes_perform rfl h
  · refine ⟨_, passes_clock hs s.clock, fun h => ?_⟩
    rwa [if_neg hms]

end Procedure

namespace Reservations

variable {t t' : Reservations} {r : Reservation}

theorem isFree_eq_false_iff : t.isFree r = false ↔ t.insert? r = none := by
  unfold insert?
  cases t.isFree r <;> simp

theorem isFree_of_insert? (h : t.insert? r = some t') : t.isFree r = true := by
  rw [← Bool.not_eq_false, isFree_eq_false_iff, h]
  exact nofun

end Reservations

/-! ### Attempts -/

namespace Naming

variable {s s' : State} {o : NewObject} {most left : Nat} {id : Identifier}
  {supply : Nat → Answer} {failed : List Identifier}

/-- The identifiers of the attempts: the object's own one, and then those that are supplied. -/
def identifiers (id : Identifier) (supply : Nat → Answer) : Nat → Answer
  | 0 => .ok id
  | i + 1 => supply i

/-- Attempts that failed: they had identifiers, and their reservations were not free. -/
structure Refused (t : Reservations) (o : NewObject) (ids : Nat → Answer)
    (failed : List Identifier) : Prop where
  ids : ∀ i (hi : i < failed.length), ids i = .ok failed[i]
  taken : ∀ x ∈ failed, t.insert? (o.reservation x) = none

theorem refused_nil (t : Reservations) (o : NewObject) (ids : Nat → Answer) :
    Refused t o ids [] := ⟨nofun, nofun⟩

theorem Refused.cons {t : Reservations} {later : Nat → Answer}
    (h : Refused t o later failed) (hsupply : ∀ i, supply i = later i)
    (hid : t.insert? (o.reservation id) = none) :
    Refused t o (identifiers id supply) (id :: failed) := by
  constructor
  · intro i hi
    cases i with
    | zero => rfl
    | succ i =>
      rw [List.getElem_cons_succ]
      exact (hsupply i).trans (h.ids i (Nat.lt_of_succ_lt_succ hi))
  · exact List.forall_mem_cons.mpr ⟨hid, h.taken⟩

/-- What a registration comes to after the attempts that failed, what it leaves and what it tried
to reserve. So many attempts were allowed, and `most` in the beginning. -/
inductive Settles (s : State) (o : NewObject) (most : Nat) (id : Identifier)
    (supply : Nat → Answer) (left : Nat) (failed : List Identifier) :
    Outcome → State → List Reservation → Prop where
  /-- The next attempt binds its name to its identifier. -/
  | bound {x : Identifier} {reservations : Reservations} {s' : State}
      (hleft : failed.length < left) (hid : identifiers id supply failed.length = .ok x)
      (hfree : s.tables.reservations.insert? (o.reservation x) = some reservations)
      (hbooks : s'.books = s.books.withReservations reservations) :
      Settles s o most id supply left failed ⟨x, .ok x⟩ s' ((failed ++ [x]).map o.reservation)
  /-- There is no identifier for the next attempt. -/
  | unsupplied {e : ServiceError} {s' : State}
      (hleft : failed.length < left) (hid : identifiers id supply failed.length = .error e)
      (hbooks : s'.books = s.books) :
      Settles s o most id supply left failed ⟨failed.getLastD id, .error e⟩ s'
        (failed.map o.reservation)
  /-- No attempt is left. -/
  | exhausted {s' : State} (hleft : failed.length = left) (hbooks : s'.books = s.books) :
      Settles s o most id supply left failed
        ⟨failed.getLastD id, .error (exhausted (o.nameOf (failed.getLastD id)) most)⟩ s'
        (failed.map o.reservation)

theorem Settles.cons {s₁ : State} {id₁ : Identifier} {supply₁ : Nat → Answer} {out : Outcome}
    {tried : List Reservation} (h : Settles s₁ o most id₁ supply₁ left failed out s' tried)
    (hsupply : ∀ i, supply i = identifiers id₁ supply₁ i) (hbooks : s₁.books = s.books)
    (hnext : 0 < left) :
    Settles s o most id supply (left + 1) (id :: failed) out s' (o.reservation id :: tried) := by
  have hids : identifiers id supply (id :: failed).length =
      identifiers id₁ supply₁ failed.length := hsupply _
  -- some later attempt failed, too, so that the last one is a later one
  have hlast : failed ≠ [] → failed.getLastD id₁ = (id :: failed).getLastD id := by
    intro hsome
    obtain ⟨x, later, rfl⟩ := List.exists_cons_of_ne_nil hsome
    rfl
  cases h with
  | bound hleft hid hfree hbooks' =>
    have htables : s.tables = s₁.tables := (congrArg Books.tables hbooks).symm
    exact .bound (Nat.succ_lt_succ hleft) (hids.trans hid) (htables ▸ hfree) (hbooks ▸ hbooks')
  | unsupplied hleft hid hbooks' =>
    rw [hlast (by rintro rfl; cases hid)]
    exact .unsupplied (Nat.succ_lt_succ hleft) (hids.trans hid) (hbooks'.trans hbooks)
  | exhausted hleft hbooks' =>
    rw [hlast (by rintro rfl; exact Nat.ne_of_lt hnext hleft)]
    exact .exhausted (congrArg Nat.succ hleft) (hbooks'.trans hbooks)

/-- An attempt that fails, but not the last one, asks for another identifier. If there is one the
next attempt has it; if there is none the registration is over. -/
theorem registerFrom_refused (retry : Retry.Policy) (o : NewObject) (attempt : Nat)
    (hs : s.InMemory) (hleft : 0 < left)
    (hins : s.tables.reservations.insert? (o.reservation id) = none) :
    (∃ e s', Desk.supply .registry s 0 = .error e ∧ s'.books = s.books ∧
      (registerFrom retry o attempt id (left + 1)).Goes s (.ok ⟨id, .error e⟩) s' [.error e]
        [o.reservation id]) ∨
    (∃ id₁ s₁, Desk.supply .registry s 0 = .ok id₁ ∧ s₁.InMemory ∧ s₁.books = s.books ∧
      (∀ i, Desk.supply .registry s (i + 1) = Desk.supply .registry s₁ i) ∧
      ∀ {out s' asked tried},
        (registerFrom retry o (attempt + 1) id₁ left).Goes s₁ out s' asked tried →
          (registerFrom retry o attempt id (left + 1)).Goes s out s' (.ok id₁ :: asked)
            (o.reservation id :: tried)) := by
  have hinsert := Store.perform_insertReservation hs (o.reservation id)
  rw [hins] at hinsert
  obtain ⟨s₁, hpasses, hsay⟩ := Procedure.goes_say hs .warn .naming
    "Reservation conflict, retrying with a fresh id"
    [("name", .text (o.nameOf id)), ("attempt", .number (attempt + 1))]
  obtain ⟨hanswer, hsupplies⟩ := Desk.next_suppliesAs (d := .registry) hpasses.supplies
  have hidle : ((Desk.next .registry).perform s₁).2.InMemory ∧
      ((Desk.next .registry).perform s₁).2.books = s₁.books :=
    Desk.idle_next .registry s₁.books s₁ hpasses.inMemory rfl
  rcases hnext : (Desk.next .registry).perform s₁ with ⟨e | id₁, s₂⟩
  · rw [hnext] at hanswer hidle
    refine .inl ⟨e, s₂, hanswer.symm, hidle.2.trans hpasses.books, ?_⟩
    refine Procedure.goes_attemptStep hinsert (hsay ?_)
    rw [if_neg (Nat.ne_of_gt hleft)]
    exact Procedure.goes_attemptStep hnext (Procedure.goes_done _ _)
  · rw [hnext] at hanswer hidle hsupplies
    obtain ⟨s₃, hpasses', hpause⟩ := Procedure.goes_pause hidle.1 (retry.backoff attempt)
    refine .inr ⟨id₁, s₃, hanswer.symm, hpasses'.inMemory,
      (hpasses'.books.trans hidle.2).trans hpasses.books, fun i => ?_, fun h => ?_⟩
    · exact ((Desk.supply_congr i hpasses'.supplies).trans (Desk.supply_congr i hsupplies)).symm
    · refine Procedure.goes_attemptStep hinsert (hsay ?_)
      rw [if_neg (Nat.ne_of_gt hleft)]
      exact Procedure.goes_attemptStep hnext (hpause h)

theorem asked_succ {supply later : Nat → Answer} (hlater : ∀ i, supply (i + 1) = later i)
    (hleft : 0 < left) (n : Nat) :
    (List.range (min (n + 1) (left + 1 - 1))).map supply =
      supply 0 :: (List.range (min n (left - 1))).map later := by
  have hmin : min (n + 1) (left + 1 - 1) = min n (left - 1) + 1 := by omega
  rw [hmin, List.range_succ_eq_map, List.map_cons, List.map_map]
  exact congrArg _ (List.map_congr_left fun i _ => hlater i)

/-- The attempts of a registration go by what the desk supplies: one after the other fails,
and for each but the last one of all another identifier is asked for. -/
theorem registerFrom_settles (retry : Retry.Policy) (o : NewObject) :
    ∀ (left attempt : Nat) (id : Identifier) {s : State}, s.InMemory →
      ∃ out s' failed tried,
        (registerFrom retry o attempt id left).Goes s (.ok out) s'
          ((List.range (min failed.length (left - 1))).map (Desk.supply .registry s)) tried ∧
        Refused s.tables.reservations o (identifiers id (Desk.supply .registry s)) failed ∧
        Settles s o retry.maxAttempts id (Desk.supply .registry s) left failed out s' tried
  | 0, _, id, s, _ =>
    ⟨_, s, [], [], Procedure.goes_done _ s, refused_nil _ _ _, .exhausted rfl rfl⟩
  | left + 1, attempt, id, s, hs => by
    have hinsert := Store.perform_insertReservation hs (o.reservation id)
    cases hins : s.tables.reservations.insert? (o.reservation id) with
    | some reservations =>
      rw [hins, o.reservation_id] at hinsert
      unfold registerFrom
      refine ⟨⟨id, .ok id⟩, { s.withReservations reservations with log := _ }, [], _,
        Procedure.goes_attemptStep hinsert
          (Procedure.goes_perform rfl (Procedure.goes_done _ _)), refused_nil _ _ _, ?_⟩
      exact .bound (Nat.succ_pos left) rfl hins rfl
    | none =>
      have hrefused := (refused_nil s.tables.reservations o (Desk.supply .registry s)).cons
        (fun _ => rfl) hins
      rcases Nat.eq_zero_or_pos left with hlast | hleft
      · rw [hins] at hinsert
        unfold registerFrom
        subst hlast
        exact ⟨_, _, [id], _, Procedure.goes_attemptStep hinsert
          (Procedure.goes_perform rfl (Procedure.goes_done _ _)), hrefused, .exhausted rfl rfl⟩
      obtain ⟨e, s', hnone, hbooks, hgoes⟩ | ⟨id₁, s₁, hsome, hs₁, hbooks, hlater, hgoes⟩ :=
        registerFrom_refused retry o attempt hs hleft hins
      · refine ⟨⟨id, .error e⟩, s', [id], _, ?_, hrefused,
          .unsupplied (Nat.succ_lt_succ hleft) hnone hbooks⟩
        rw [List.length_singleton, asked_succ (fun _ => rfl) hleft 0, hnone]
        exact hgoes
      · obtain ⟨out, s', failed, tried, hrest, hrefused', hsettles⟩ :=
          registerFrom_settles retry o left (attempt + 1) id₁ hs₁
        have htables : s₁.tables = s.tables := congrArg Books.tables hbooks
        have hsupply : ∀ i, Desk.supply .registry s i =
            identifiers id₁ (Desk.supply .registry s₁) i := by
          intro i
          cases i with
          | zero => exact hsome
          | succ i => exact hlater i
        refine ⟨out, s', id :: failed, _, ?_, (htables ▸ hrefused').cons hsupply hins,
          hsettles.cons hsupply hbooks hleft⟩
        rw [List.length_cons, asked_succ hlater hleft, hsome]
        exact hgoes hrest

/-! ### Registrations -/

theorem Refused.length_le {t : Reservations} {ids : Nat → Answer} (h : Refused t o ids failed)
    {i : Nat} {x : Identifier} (hx : ids i = .ok x) (hfree : t.isFree (o.reservation x) = true) :
    failed.length ≤ i := by
  by_contra hlt
  have hid := h.ids i (Nat.lt_of_not_le hlt)
  rw [hx] at hid
  obtain rfl := Except.ok.inj hid
  rw [Reservations.isFree_eq_false_iff.mpr (h.taken _ (List.getElem_mem _))] at hfree
  cases hfree

/-- A registration succeeds just if some attempt is free that can be made. -/
theorem Settles.isOk_iff {out : Outcome} {tried : List Reservation}
    (h : Settles s o most id supply left failed out s' tried)
    (hrefused : Refused s.tables.reservations o (identifiers id supply) failed) :
    (∃ x, out.result = .ok x) ↔ ∃ i < left, (∀ j < i, ∃ x, identifiers id supply j = .ok x) ∧
      ∃ x, identifiers id supply i = .ok x ∧
        s.tables.reservations.isFree (o.reservation x) = true := by
  constructor
  · rintro ⟨x, hx⟩
    cases h with
    | bound hleft hid hfree =>
      exact ⟨failed.length, hleft, fun j hj => ⟨_, hrefused.ids j hj⟩, _, hid,
        Reservations.isFree_of_insert? hfree⟩
    | unsupplied => cases hx
    | exhausted => cases hx
  · rintro ⟨i, hi, hbefore, x, hx, hfree⟩
    have hle := hrefused.length_le hx hfree
    cases h with
    | bound => exact ⟨_, rfl⟩
    | unsupplied hleft hid =>
      obtain ⟨y, hy⟩ : ∃ y, identifiers id supply failed.length = .ok y := by
        rcases Nat.lt_or_eq_of_le hle with hlt | heq
        · exact hbefore _ hlt
        · exact ⟨x, heq ▸ hx⟩
      rw [hid] at hy
      cases hy
    | exhausted hleft => exact absurd (hleft ▸ hle) (Nat.not_le_of_lt hi)

/-- **A registration takes its first free attempt, or it changes nothing.** The attempts have the
object's identifier and then those that the registry's desk supplies, each with the name that goes
with it. The registration succeeds just if, within its attempts, one whose name and identifier are
both free can be made, so that there are identifiers for all up to it. Then it is the first such
attempt that binds its name to its identifier, which is the object's identifier now, at its key,
and no other binding is touched.

Otherwise all records are as they were: an identifier is missing, and its error is the answer, or
all the attempts failed. In any case it is tried to insert just the reservations of the attempts in
their order, and another identifier is asked for after each attempt that failed but the last one of
all. -/
theorem first_free_attempt_is_taken (hs : s.InMemory) (retry : Retry.Policy) (o : NewObject)
    (id : Identifier) :
    let p := register retry o id
    let t := s.tables.reservations
    let supply := Desk.supply .registry s
    let ids := identifiers id supply
    ∃ out s' failed, p.run.perform s = (.ok out, s') ∧
      (∀ i (hi : i < failed.length), ids i = .ok failed[i] ∧
        t.isFree (o.reservation failed[i]) = false) ∧
      ((∃ x, out.result = .ok x) ↔ ∃ i < retry.maxAttempts, (∀ j < i, ∃ x, ids j = .ok x) ∧
        ∃ x, ids i = .ok x ∧ t.isFree (o.reservation x)) ∧
      (∀ x, out.result = .ok x →
        failed.length < retry.maxAttempts ∧ ids failed.length = .ok x ∧ out.objectId = x ∧
        (o.reservation x).aclKey = .under o.path x ∧ (o.reservation x).id = x ∧
        (∃ t', t.insert? (o.reservation x) = some t' ∧ s'.books = s.books.withReservations t' ∧
          (∀ y, t'.find? y = if x = y then some (o.reservation x) else t.find? y) ∧
          ∀ n, t'.idOf? n = if o.nameOf x = n then some x else t.idOf? n) ∧
        p.tried s = (failed ++ [x]).map o.reservation) ∧
      (∀ e, out.result = .error e →
        s'.books = s.books ∧ p.tried s = failed.map o.reservation ∧
        out.objectId = failed.getLastD id ∧
        (failed.length < retry.maxAttempts ∧ ids failed.length = .error e ∨
          failed.length = retry.maxAttempts ∧
            e = exhausted (o.nameOf out.objectId) retry.maxAttempts)) ∧
      p.answers s = (List.range (min failed.length (retry.maxAttempts - 1))).map supply := by
  intro p t supply ids
  obtain ⟨out, s', failed, tried, ⟨hrun, hanswers, htried⟩, hrefused, hsettles⟩ :=
    registerFrom_settles retry o retry.maxAttempts 0 id hs
  refine ⟨out, s', failed, hrun, fun i hi => ⟨hrefused.ids i hi,
    Reservations.isFree_eq_false_iff.mpr (hrefused.taken _ (List.getElem_mem hi))⟩,
    hsettles.isOk_iff hrefused, ?_, ?_, hanswers⟩
  · intro x hx
    cases hsettles with
    | @bound y t' _ hleft hid hfree hbooks =>
      obtain rfl := Except.ok.inj hx
      have hkey := o.reservation_id y
      refine ⟨hleft, hid, rfl, rfl, hkey, ⟨t', hfree, hbooks, fun z => ?_, fun n => ?_⟩, htried⟩
      · rw [Reservations.find?_insert hfree, hkey]
      · rw [Reservations.idOf?_insert hfree, hkey]
        rfl
    | unsupplied => cases hx
    | exhausted => cases hx
  · intro e he
    cases hsettles with
    | bound => cases he
    | unsupplied hleft hid hbooks =>
      obtain rfl := Except.error.inj he
      exact ⟨hbooks, htried, rfl, .inl ⟨hleft, hid⟩⟩
    | exhausted hleft hbooks =>
      obtain rfl := Except.error.inj he
      exact ⟨hbooks, htried, rfl, .inr ⟨hleft, rfl⟩⟩

/-- The name that goes with the first identifier is taken, and so is the second identifier: the
third attempt binds its own name. -/
theorem third_attempt_is_free :
    let o : NewObject := ⟨.study, [], fun id => if id.counter = 5000 then "trial" else "survey"⟩
    let bound : List Reservation :=
      [.ofKey (.under [] (.ofParts 0 4000)) .study "trial",
        .ofKey (.under [] (.ofParts 1 5001)) .study "interview"]
    let t := bound.foldl (fun t r => (t.insert? r).getD t) Reservations.empty
    let s := { (State.start {} ⟨0, 0⟩).withReservations t with
      queue := ⟨10, [.ofParts 1 5001, .ofParts 1 5002, .ofParts 1 5003]⟩ }
    s.InMemory ∧ ∃ out s',
      (register (.immediate 3) o (.ofParts 0 5000)).run.perform s = (.ok out, s') ∧
      out.objectId = .ofParts 1 5002 ∧
      s'.tables.reservations.idOf? "survey" = some out.objectId := by
  intro o bound t s
  have hs : s.InMemory := ⟨rfl, rfl⟩
  have hasked : ((register (.immediate 3) o (.ofParts 0 5000)).answers s).length = 2 := by
    decide +kernel
  obtain ⟨out, s', failed, hrun, -, hok, hbound, -, hanswers⟩ :=
    first_free_attempt_is_taken hs (.immediate 3) o (.ofParts 0 5000)
  have hsupplied : ∀ j < 3, identifiers (.ofParts 0 5000) (Desk.supply .registry s) j =
      .ok ([.ofParts 0 5000, .ofParts 1 5001, .ofParts 1 5002].getD j (.ofParts 0 0))
    | 0, _ => rfl
    | 1, _ => rfl
    | 2, _ => rfl
  obtain ⟨x, hx⟩ := hok.mpr ⟨2, by decide, fun j hj => ⟨_, hsupplied j (by omega)⟩, _,
    hsupplied 2 (by decide), by decide +kernel⟩
  obtain ⟨hfew, hid, hobject, -, -, ⟨t', -, hbooks, -, hnames⟩, -⟩ := hbound x hx
  rw [hanswers, List.length_map, List.length_range] at hasked
  have hlength : failed.length = 2 := by
    have hmost : (Retry.Policy.immediate 3).maxAttempts = 3 := rfl
    omega
  rw [hlength, hsupplied 2 (by decide)] at hid
  obtain rfl := Except.ok.inj hid
  refine ⟨hs, out, s', hrun, hobject, ?_⟩
  have htables : s'.tables.reservations = t' := congrArg (fun b => b.tables.reservations) hbooks
  rw [htables, hnames, hobject]
  rfl

end Naming
end AccessRegistry
