/-
# What a desk hands out, exactly

What waits at a desk is what was given back to it, and after that what is in the queue and not
reserved. A desk that is in order takes the first of what waits each time, and it has nothing
just if nothing waits. Reserved identifiers of the queue are thrown away on the way and nothing
else is. So whoever asks for several takes the beginning of what waits, up to the last one that
is missing; and if there are too few different ones all that waits is taken, and the buffer,
which is empty then, keeps as many of them as it can. A desk stays in order whatever is asked
of it and whatever comes into the queue.

Key definitions: `Allocator.Neat`, `Desk.InOrder`, `State.waiting`, `Desk.Ask`, `Desk.after`.
Key theorems: `Allocator.giveBack_of_nodup`, `Desk.perform_popUnreserved_some`,
`Desk.perform_popUnreserved_none`, `Desk.next_waiting`, `Desk.nextMany_waiting`,
`Desk.handing_out_is_exact`.
-/
import AccessRegistry.Proofs.Collections
import AccessRegistry.Proofs.Supply.Fifo
import AccessRegistry.Proofs.Supply.Unreserved

namespace AccessRegistry

open Std (ExtTreeSet)
open AccessRegistry.Action

namespace Allocator

variable {a a' : Allocator} {id : Identifier}

/-- A buffer has nothing that is reserved, nothing twice, and no more than it can hold. -/
structure Neat (a : Allocator) : Prop where
  unreserved : ∀ id ∈ a.buffer, ¬ id.IsReserved
  nodup : a.buffer.Nodup
  within : a.buffer.length ≤ a.capacity

theorem neat_of_buffer_eq_nil (h : a.buffer = []) : a.Neat := by
  refine ⟨?_, ?_, ?_⟩
  · rw [h]
    exact nofun
  · rw [h]
    exact List.nodup_nil
  · rw [h]
    exact Nat.zero_le _

theorem Neat.take (h : a.Neat) {ids : List Identifier} (hbuffer : a.buffer = id :: ids) :
    ({ a with buffer := ids } : Allocator).Neat := by
  obtain ⟨hunreserved, hnodup, hwithin⟩ := h
  rw [hbuffer] at hunreserved hnodup hwithin
  exact ⟨fun x hx => hunreserved x (List.mem_cons_of_mem id hx), (List.nodup_cons.mp hnodup).2,
    Nat.le_of_succ_le hwithin⟩

/-- What is given back is refused, lost, or the last in the buffer. -/
theorem giveBackOne_cases (a : Allocator) (id : Identifier) :
    ((id.IsReserved ∨ id ∈ a.buffer) ∧ (a.giveBackOne id).1 = a) ∨
    (¬ id.IsReserved ∧ id ∉ a.buffer ∧
      ((a.capacity ≤ a.buffer.length ∧ (a.giveBackOne id).1 = a) ∨
        (a.buffer.length < a.capacity ∧
          (a.giveBackOne id).1 = { a with buffer := a.buffer ++ [id] }))) := by
  have hrefuses : a.refuses id = true ↔ id.IsReserved ∨ id ∈ a.buffer := by
    simp [refuses]
  unfold giveBackOne
  split
  · rename_i h
    exact .inl ⟨hrefuses.mp h, rfl⟩
  · rename_i h
    obtain ⟨hreserved, hbuffer⟩ := not_or.mp (mt hrefuses.mpr h)
    split
    · rename_i hfull
      exact .inr ⟨hreserved, hbuffer, .inl ⟨hfull, rfl⟩⟩
    · rename_i hroom
      exact .inr ⟨hreserved, hbuffer, .inr ⟨Nat.lt_of_not_le hroom, rfl⟩⟩

/-- Giving back keeps what is there, adds some of what is given, and takes everything that is of
use as long as there is room. -/
structure GivenBack (a : Allocator) (ids : List Identifier) (a' : Allocator) : Prop where
  source : a'.source = a.source
  capacity : a'.capacity = a.capacity
  timeout : a'.timeout = a.timeout
  neat : a.Neat → a'.Neat
  buffer : ∃ kept, kept.Sublist ids ∧ a'.buffer = a.buffer ++ kept
  complete : ∀ id ∈ ids, ¬ id.IsReserved → id ∈ a'.buffer ∨ a'.capacity ≤ a'.buffer.length

theorem givenBack_giveBackOne (a : Allocator) (id : Identifier) :
    GivenBack a [id] (a.giveBackOne id).1 := by
  obtain ⟨huseless, h⟩ | ⟨hreserved, hnew, ⟨hfull, h⟩ | ⟨hroom, h⟩⟩ := giveBackOne_cases a id
  · rw [h]
    refine ⟨rfl, rfl, rfl, fun h => h, ⟨[], List.nil_sublist _, (List.append_nil _).symm⟩, ?_⟩
    intro x hx hunreserved
    obtain rfl := List.mem_singleton.mp hx
    exact .inl (huseless.resolve_left hunreserved)
  · rw [h]
    exact ⟨rfl, rfl, rfl, fun h => h, ⟨[], List.nil_sublist _, (List.append_nil _).symm⟩,
      fun _ _ _ => .inr hfull⟩
  · rw [h]
    refine ⟨rfl, rfl, rfl, fun hneat => ⟨?_, ?_, ?_⟩, ⟨[id], List.Sublist.refl _, rfl⟩,
      fun x hx _ => .inl (List.mem_append_right _ hx)⟩
    · intro x hx
      rcases List.mem_append.mp hx with hold | hx
      · exact hneat.unreserved x hold
      · rwa [List.mem_singleton.mp hx]
    · exact List.nodup_append.mpr ⟨hneat.nodup, List.nodup_singleton id, fun x hx y hy hxy =>
        hnew (List.mem_singleton.mp hy ▸ hxy ▸ hx)⟩
    · show (a.buffer ++ [id]).length ≤ a.capacity
      rw [List.length_append]
      exact hroom

theorem GivenBack.trans {a₁ a₂ a₃ : Allocator} {ids ids' : List Identifier}
    (h : GivenBack a₁ ids a₂) (h' : GivenBack a₂ ids' a₃) : GivenBack a₁ (ids ++ ids') a₃ := by
  obtain ⟨first, hfirst, hbuffer⟩ := h.buffer
  obtain ⟨later, hlater, hbuffer'⟩ := h'.buffer
  refine ⟨h'.source.trans h.source, h'.capacity.trans h.capacity, h'.timeout.trans h.timeout,
    fun hneat => h'.neat (h.neat hneat), ⟨first ++ later, hfirst.append hlater, ?_⟩, ?_⟩
  · rw [hbuffer', hbuffer, List.append_assoc]
  · intro id hid hunreserved
    rcases List.mem_append.mp hid with hid | hid
    · rw [hbuffer', h'.capacity, List.length_append]
      rcases h.complete id hid hunreserved with hkept | hfull
      · exact .inl (List.mem_append_left _ hkept)
      · exact .inr (Nat.le_add_right_of_le hfull)
    · exact h'.complete id hid hunreserved

theorem givenBack_giveBack : ∀ (ids : List Identifier) (a : Allocator),
    GivenBack a ids (a.giveBack ids).1
  | [], _ => ⟨rfl, rfl, rfl, fun h => h, ⟨[], List.Sublist.refl _, (List.append_nil _).symm⟩,
      nofun⟩
  | id :: ids, a => (givenBack_giveBackOne a id).trans (givenBack_giveBack ids _)

/-- Of different identifiers that are of use the first ones are kept, as many as there is room
for. -/
theorem buffer_giveBack_of_nodup : ∀ (ids : List Identifier) {a : Allocator}, ids.Nodup →
    (∀ id ∈ ids, ¬ id.IsReserved ∧ id ∉ a.buffer) →
      (a.giveBack ids).1.buffer = a.buffer ++ ids.take (a.capacity - a.buffer.length)
  | [], a, _, _ => by rw [List.take_nil, List.append_nil]; rfl
  | id :: ids, a, hnodup, hids => by
    obtain ⟨hid, hnodup⟩ := List.nodup_cons.mp hnodup
    obtain ⟨hreserved, hnew⟩ := hids id List.mem_cons_self
    have hrest : ∀ x ∈ ids, ¬ x.IsReserved ∧ x ∉ a.buffer := fun x hx =>
      hids x (List.mem_cons_of_mem id hx)
    show ((a.giveBackOne id).1.giveBack ids).1.buffer = _
    obtain ⟨huseless, -⟩ | ⟨-, -, ⟨hfull, h⟩ | ⟨hroom, h⟩⟩ := giveBackOne_cases a id
    · exact absurd huseless (not_or.mpr ⟨hreserved, hnew⟩)
    · rw [h, buffer_giveBack_of_nodup ids hnodup hrest, Nat.sub_eq_zero_of_le hfull, List.take_zero,
        List.take_zero]
    · have hrest' : ∀ x ∈ ids, ¬ x.IsReserved ∧ x ∉ a.buffer ++ [id] := by
        intro x hx
        refine ⟨(hrest x hx).1, fun hmem => ?_⟩
        rcases List.mem_append.mp hmem with hold | hx'
        · exact (hrest x hx).2 hold
        · exact hid (List.mem_singleton.mp hx' ▸ hx)
      obtain ⟨room, hroom⟩ : ∃ room, a.capacity - a.buffer.length = room + 1 :=
        Nat.exists_eq_succ_of_ne_zero (by omega)
      rw [h, buffer_giveBack_of_nodup ids hnodup hrest', hroom, List.take_succ_cons,
        List.append_assoc, List.singleton_append]
      dsimp only
      rw [List.length_append, List.length_singleton, Nat.sub_add_eq, hroom]
      rfl

end Allocator

namespace State

/-- What waits at a desk: what was given back to it, and then what is in the queue and not
reserved. -/
def waiting (s : State) (d : Desk) : List Identifier :=
  (s.allocator d).buffer ++ s.queue.items.filter fun id => ¬ id.IsReserved

theorem allocator_congr {s s' : State} (hregistry : s'.registry = s.registry)
    (hfront : s'.front = s.front) (d : Desk) : s'.allocator d = s.allocator d := by
  unfold allocator
  rw [hregistry, hfront]

theorem allocator_setAllocator_self (s : State) (d : Desk) (a : Allocator) :
    (s.setAllocator d a).allocator d = a := by
  unfold setAllocator allocator
  cases d with
  | registry => rfl
  | front =>
    cases hfront : s.front with
    | none => simp only [Option.getD_none]
    | some b => rfl

theorem queue_setAllocator (s : State) (d : Desk) (a : Allocator) :
    (s.setAllocator d a).queue = s.queue := by
  unfold setAllocator
  split <;> rfl

theorem outages_setAllocator (s : State) (d : Desk) (a : Allocator) :
    (s.setAllocator d a).outages = s.outages := by
  unfold setAllocator
  split <;> rfl

end State

namespace Desk

variable {d : Desk} {s s' : State} {id : Identifier} {skipped rest ids : List Identifier}

/-! ### Out of the queue -/

/-- The message of a desk at which nothing came in time. -/
def timedOutReason (timeout : Nat) : String := s!"no identifier available within {timeout} ms"

section

variable {queue : Queue} (again : Action Identifier) (timeout deadline : Nat)

theorem perform_popOr_unreserved (hs : s.outages = []) (hpop : s.queue.pop? = some (id, queue))
    (hid : ¬ id.IsReserved) :
    (popOr again timeout deadline).perform s = (.ok id, { s with queue }) := by
  unfold popOr
  rw [perform_bind, perform_get]
  dsimp only
  rw [perform_bind, Store.perform_pop_some hs hpop]
  dsimp only
  rw [if_neg hid]
  rfl

theorem perform_popOr_reserved (hs : s.outages = []) (hpop : s.queue.pop? = some (id, queue))
    (hid : id.IsReserved) :
    ∃ log, (popOr again timeout deadline).perform s = again.perform { s with queue, log } := by
  unfold popOr
  rw [perform_bind, perform_get]
  dsimp only
  rw [perform_bind, Store.perform_pop_some hs hpop]
  dsimp only
  rw [if_pos hid]
  exact ⟨_, rfl⟩

theorem perform_popOr_none (hs : s.outages = []) (hpop : s.queue.pop? = none) :
    ∃ clock log, (popOr again timeout deadline).perform s =
      (.error (.idUnavailable (timedOutReason timeout)), { s with clock, log }) := by
  unfold popOr
  rw [perform_bind, perform_get]
  dsimp only
  rw [perform_bind, Store.perform_pop_none hs hpop]
  exact ⟨_, _, rfl⟩

end

/-- Reserved identifiers are thrown away, up to the first that is not. -/
theorem perform_popUnreserved_some (timeout deadline : Nat) (hid : ¬ id.IsReserved) :
    ∀ (skipped : List Identifier) {s : State}, s.outages = [] →
      s.queue.items = skipped ++ id :: rest → (∀ x ∈ skipped, x.IsReserved) →
      ∃ log, (popUnreserved timeout deadline (skipped ++ id :: rest)).perform s =
        (.ok id, { s with queue := ⟨s.queue.capacity, rest⟩, log })
  | [], s, hs, hitems, _ => by
    have hpop : s.queue.pop? = some (id, ⟨s.queue.capacity, rest⟩) := by
      rw [Queue.pop?, hitems]
      rfl
    exact ⟨s.log, perform_popOr_unreserved _ timeout deadline hs hpop hid⟩
  | x :: skipped, s, hs, hitems, hskipped => by
    obtain ⟨hx, hskipped⟩ := List.forall_mem_cons.mp hskipped
    have hpop : s.queue.pop? = some (x, ⟨s.queue.capacity, skipped ++ id :: rest⟩) := by
      rw [Queue.pop?, hitems]
      rfl
    obtain ⟨log, hpopOr⟩ := perform_popOr_reserved
      (popUnreserved timeout deadline (skipped ++ id :: rest)) timeout deadline hs hpop hx
    obtain ⟨log', hrest⟩ := perform_popUnreserved_some timeout deadline hid skipped
      (s := { s with queue := ⟨s.queue.capacity, skipped ++ id :: rest⟩, log }) hs rfl hskipped
    exact ⟨log', hpopOr.trans hrest⟩

/-- Where everything is reserved everything is thrown away, and nothing comes in time. -/
theorem perform_popUnreserved_none (timeout deadline : Nat) :
    ∀ (items : List Identifier) {s : State}, s.outages = [] → s.queue.items = items →
      (∀ x ∈ items, x.IsReserved) →
      ∃ clock log, (popUnreserved timeout deadline items).perform s =
        (.error (.idUnavailable (timedOutReason timeout)),
          { s with queue := ⟨s.queue.capacity, []⟩, clock, log })
  | [], s, hs, hitems, _ => by
    have hpop : s.queue.pop? = none := by rw [Queue.pop?, hitems]
    have hqueue : s.queue = ⟨s.queue.capacity, []⟩ := by rw [← hitems]
    rw [← hqueue]
    exact perform_popOr_none _ timeout deadline hs hpop
  | x :: items, s, hs, hitems, hreserved => by
    obtain ⟨hx, hreserved⟩ := List.forall_mem_cons.mp hreserved
    have hpop : s.queue.pop? = some (x, ⟨s.queue.capacity, items⟩) := by
      rw [Queue.pop?, hitems]
    obtain ⟨log, hpopOr⟩ := perform_popOr_reserved
      (popUnreserved timeout deadline items) timeout deadline hs hpop hx
    obtain ⟨clock, log', hrest⟩ := perform_popUnreserved_none timeout deadline items
      (s := { s with queue := ⟨s.queue.capacity, items⟩, log }) hs rfl hreserved
    exact ⟨clock, log', hpopOr.trans hrest⟩

/-! ### Desks in order -/

/-- A desk gets its identifiers from the queue, which works, and its buffer is neat. -/
structure InOrder (d : Desk) (s : State) : Prop where
  outages : s.outages = []
  source : (s.allocator d).source = .partitioned
  neat : (s.allocator d).Neat

theorem InOrder.congr (h : InOrder d s) (houtages : s'.outages = s.outages)
    (hregistry : s'.registry = s.registry) (hfront : s'.front = s.front) : InOrder d s' := by
  have hallocator := State.allocator_congr hregistry hfront d
  exact ⟨houtages.trans h.outages, hallocator ▸ h.source, hallocator ▸ h.neat⟩

theorem InOrder.setAllocator (h : InOrder d s) {a : Allocator} (hsource : a.source = .partitioned)
    (hneat : a.Neat) : InOrder d (s.setAllocator d a) := by
  refine ⟨(State.outages_setAllocator s d a).trans h.outages, ?_, ?_⟩
  · rwa [State.allocator_setAllocator_self]
  · rwa [State.allocator_setAllocator_self]

theorem InOrder.not_isReserved_waiting (h : InOrder d s) : ∀ id ∈ s.waiting d, ¬ id.IsReserved := by
  intro id hid
  rcases List.mem_append.mp hid with hbuffer | hqueue
  · exact h.neat.unreserved id hbuffer
  · exact of_decide_eq_true (List.mem_filter.mp hqueue).2

theorem inOrder_start {ids : IdSettings} (hmode : ids.mode = .partitioned) (today : Instant)
    (d : Desk) : InOrder d (State.start ids today) := by
  have hallocator : (State.start ids today).allocator d = .ofSettings ids := by cases d <;> rfl
  refine ⟨rfl, ?_, ?_⟩
  · rw [hallocator]
    exact hmode
  · rw [hallocator]
    exact Allocator.neat_of_buffer_eq_nil rfl

theorem perform_next_buffered (hbuffer : (s.allocator d).buffer = id :: rest) :
    (next d).perform s =
      (.ok id, s.setAllocator d { s.allocator d with buffer := rest }) := by
  unfold next
  rw [perform_bind, perform_get]
  dsimp only
  rw [Allocator.take?, hbuffer]
  rfl

theorem perform_next_unbuffered (hsource : (s.allocator d).source = .partitioned)
    (hbuffer : (s.allocator d).buffer = []) :
    (next d).perform s = (popUnreserved (s.allocator d).timeout
      (s.clock + (s.allocator d).timeout) s.queue.items).perform s := by
  unfold next
  rw [perform_bind, perform_get]
  dsimp only
  rw [Allocator.take?, hbuffer, hsource]

theorem perform_next_queued (hs : s.outages = [])
    (hsource : (s.allocator d).source = .partitioned) (hbuffer : (s.allocator d).buffer = [])
    (hitems : s.queue.items = skipped ++ id :: rest) (hskipped : ∀ x ∈ skipped, x.IsReserved)
    (hid : ¬ id.IsReserved) :
    ∃ log, (next d).perform s =
      (.ok id, { s with queue := ⟨s.queue.capacity, rest⟩, log }) := by
  rw [perform_next_unbuffered hsource hbuffer, hitems]
  exact perform_popUnreserved_some _ _ hid skipped hs hitems hskipped

theorem perform_next_none (hs : s.outages = [])
    (hsource : (s.allocator d).source = .partitioned) (hbuffer : (s.allocator d).buffer = [])
    (hreserved : ∀ x ∈ s.queue.items, x.IsReserved) :
    ∃ clock log, (next d).perform s =
      (.error (.idUnavailable (timedOutReason (s.allocator d).timeout)),
        { s with queue := ⟨s.queue.capacity, []⟩, clock, log }) := by
  rw [perform_next_unbuffered hsource hbuffer]
  exact perform_popUnreserved_none _ _ _ hs rfl hreserved

/-- A list begins with members of a kind, and then it is over or the next one is not. -/
theorem reserved_or_split : ∀ items : List Identifier, (∀ x ∈ items, x.IsReserved) ∨
    ∃ skipped id rest, items = skipped ++ id :: rest ∧ (∀ x ∈ skipped, x.IsReserved) ∧
      ¬ id.IsReserved
  | [] => .inl nofun
  | x :: items => by
    by_cases hx : x.IsReserved
    · obtain hall | ⟨skipped, id, rest, rfl, hskipped, hid⟩ := reserved_or_split items
      · exact .inl (List.forall_mem_cons.mpr ⟨hx, hall⟩)
      · exact .inr ⟨x :: skipped, id, rest, rfl, List.forall_mem_cons.mpr ⟨hx, hskipped⟩, hid⟩
    · exact .inr ⟨[], x, items, rfl, nofun, hx⟩

/-- A desk hands out the first of what waits, or nothing waits. -/
theorem next_waiting (hs : InOrder d s) :
    (∃ id s', (next d).perform s = (.ok id, s') ∧ s.waiting d = id :: s'.waiting d ∧
      InOrder d s' ∧ (s'.allocator d).capacity = (s.allocator d).capacity) ∨
    (∃ message s', (next d).perform s = (.error (.idUnavailable message), s') ∧
      s.waiting d = [] ∧ InOrder d s' ∧ s'.allocator d = s.allocator d ∧
      s'.queue.items = []) := by
  cases hbuffer : (s.allocator d).buffer with
  | cons id rest =>
    refine .inl ⟨id, _, perform_next_buffered hbuffer, ?_,
      hs.setAllocator hs.source (hs.neat.take hbuffer), ?_⟩
    · unfold State.waiting
      rw [State.allocator_setAllocator_self, State.queue_setAllocator, hbuffer, List.cons_append]
    · rw [State.allocator_setAllocator_self]
  | nil =>
    obtain hreserved | ⟨skipped, id, rest, hitems, hskipped, hid⟩ :=
      reserved_or_split s.queue.items
    · obtain ⟨clock, log, hnext⟩ := perform_next_none hs.outages hs.source hbuffer hreserved
      refine .inr ⟨_, _, hnext, ?_, hs.congr rfl rfl rfl, rfl, rfl⟩
      unfold State.waiting
      rw [hbuffer, List.nil_append, List.filter_eq_nil_iff]
      exact fun x hx => by simpa using hreserved x hx
    · obtain ⟨log, hnext⟩ :=
        perform_next_queued hs.outages hs.source hbuffer hitems hskipped hid
      refine .inl ⟨id, _, hnext, ?_, hs.congr rfl rfl rfl, rfl⟩
      have hnone : (skipped.filter fun x => ¬ x.IsReserved) = [] :=
        List.filter_eq_nil_iff.mpr fun x hx => by simpa using hskipped x hx
      show (s.allocator d).buffer ++ s.queue.items.filter _ =
        id :: ((s.allocator d).buffer ++ rest.filter _)
      rw [hbuffer, hitems, List.filter_append, hnone, List.filter_cons_of_pos (by simpa using hid)]
      rfl

theorem giveBack_kept (d : Desk) (ids : List Identifier) (s : State) :
    ∃ a log, (giveBack d ids).perform s = (.ok (), { s.setAllocator d a with log }) ∧
      a = ((s.allocator d).giveBack ids).1 ∧ (s.allocator d).GivenBack ids a :=
  ⟨_, _, rfl, rfl, Allocator.givenBack_giveBack ids _⟩

/-! ### Several -/

/-- Whoever fails has taken some identifiers, and that is all that waited. The buffer keeps the
first ones, as many as it can, and the queue is empty. -/
structure RanOut (d : Desk) (s s' : State) (all : List Identifier) : Prop where
  nodup : all.Nodup
  buffer : (s'.allocator d).buffer = all.take (s.allocator d).capacity
  queue : s'.queue.items = []

/-- From some identifiers on, the desk is asked until there are enough, and it hands out the
beginning of what waits; or all that waits is not enough. -/
theorem collect_waiting {count : Nat} : ∀ (more : Nat) {taken : ExtTreeSet Identifier} {s : State},
    InOrder d s → (s.waiting d).length < more → taken.size ≤ count →
    (∀ id : Identifier, id ∈ taken → ¬ id.IsReserved) →
    (∃ ids s' used, (collect d count more taken).perform s = (.ok ids, s') ∧ InOrder d s' ∧
      ids.size = count ∧ s.waiting d = used ++ s'.waiting d ∧
      ∀ id, id ∈ ids ↔ id ∈ taken ∨ id ∈ used) ∨
    (∃ message s' all, (collect d count more taken).perform s =
        (.error (.idUnavailable message), s') ∧ InOrder d s' ∧
      all.length < count ∧ (∀ id, id ∈ all ↔ id ∈ taken ∨ id ∈ s.waiting d) ∧ RanOut d s s' all)
  | 0, _, _, _, hmore, _, _ => absurd hmore (Nat.not_lt_zero _)
  | more + 1, taken, s, hs, hmore, hcount, hclear => by
    unfold collect
    split
    · rename_i henough
      exact .inl ⟨taken, s, [], rfl, hs, Nat.le_antisymm hcount henough, rfl,
        fun id => by simp⟩
    rename_i hfew
    rw [perform_bind, perform_attempt]
    obtain ⟨id, s₁, hnext, hfirst, hs₁, hcapacity⟩ |
      ⟨message, s₁, hnext, hnone, hs₁, hallocator, hempty⟩ := next_waiting hs
    · rw [hnext]
      dsimp only
      have hid : ¬ id.IsReserved :=
        hs.not_isReserved_waiting id (hfirst ▸ List.mem_cons_self)
      have hmem : ∀ x, x ∈ taken.insert id ↔ x = id ∨ x ∈ taken := by
        intro x
        rw [ExtTreeSet.mem_insert, Std.LawfulEqOrd.compare_eq_iff_eq, eq_comm]
      have hclear' : ∀ x : Identifier, x ∈ taken.insert id → ¬ x.IsReserved := by
        intro x hx
        rcases (hmem x).mp hx with rfl | hx
        · exact hid
        · exact hclear x hx
      have hmore' : (s₁.waiting d).length < more := by
        rw [hfirst] at hmore
        exact Nat.lt_of_succ_lt_succ hmore
      have hsize : (taken.insert id).size ≤ count :=
        Nat.le_trans ExtTreeSet.size_insert_le (Nat.lt_of_not_le hfew)
      obtain ⟨ids, s', used, hrun, hs', hids, hused, hall⟩ |
        ⟨message, s', all, hrun, hs', hlength, hall, hout⟩ :=
        collect_waiting more hs₁ hmore' hsize hclear'
      · refine .inl ⟨ids, s', id :: used, hrun, hs', hids, ?_, fun x => ?_⟩
        · rw [hfirst, hused, List.cons_append]
        · rw [hall, hmem, List.mem_cons, or_assoc, or_left_comm]
      · refine .inr ⟨message, s', all, hrun, hs', hlength, fun x => ?_, hout.nodup, ?_, hout.queue⟩
        · rw [hall, hmem, hfirst, List.mem_cons, or_assoc, or_left_comm]
        · rw [hout.buffer, hcapacity]
    · rw [hnext]
      dsimp only
      obtain ⟨a, log, hback, ha, hgiven⟩ := giveBack_kept d taken.toList s₁
      have hbuffer : (s.allocator d).buffer = [] := (List.append_eq_nil_iff.mp hnone).1
      have hset := State.allocator_setAllocator_self s₁ d a
      rw [perform_bind, hback]
      refine .inr ⟨message, _, taken.toList, rfl, ?_, ?_, fun x => ?_, nodup_toList taken, ?_, ?_⟩
      · exact (hs₁.setAllocator (hgiven.source.trans hs₁.source)
          (hgiven.neat hs₁.neat)).congr rfl rfl rfl
      · rw [ExtTreeSet.length_toList]
        exact Nat.lt_of_not_le hfew
      · rw [ExtTreeSet.mem_toList, hnone]
        simp
      · show ((s₁.setAllocator d a).allocator d).buffer = _
        rw [hset, ha, hallocator, Allocator.buffer_giveBack_of_nodup _ (nodup_toList taken),
          hbuffer, List.nil_append, List.length_nil, Nat.sub_zero]
        intro x hx
        rw [hbuffer]
        exact ⟨hclear x (ExtTreeSet.mem_toList.mp hx), List.not_mem_nil⟩
      · show (s₁.setAllocator d a).queue.items = []
        rw [State.queue_setAllocator, hempty]

/-- Whoever asks for several gets as many different ones, from the beginning of what waits, or
takes all that waits, which is not enough. -/
theorem nextMany_waiting (hs : InOrder d s) (count : Nat) :
    (∃ ids s' used, (nextMany d count).perform s = (.ok ids, s') ∧ InOrder d s' ∧
      ids.size = count ∧ s.waiting d = used ++ s'.waiting d ∧ ∀ id, id ∈ ids ↔ id ∈ used) ∨
    (∃ message s' all, (nextMany d count).perform s = (.error (.idUnavailable message), s') ∧
      InOrder d s' ∧ all.length < count ∧ (∀ id, id ∈ all ↔ id ∈ s.waiting d) ∧
      RanOut d s s' all) := by
  have hmore : (s.waiting d).length <
      count + (s.allocator d).buffer.length + s.queue.length + 1 := by
    have hqueue : (s.queue.items.filter fun id => ¬ id.IsReserved).length ≤ s.queue.length :=
      List.length_filter_le _ _
    unfold State.waiting
    rw [List.length_append]
    omega
  have hcollect := @collect_waiting d count _ ∅ s hs hmore (Nat.zero_le _)
    fun id hid => absurd hid ExtTreeSet.not_mem_empty
  simp only [ExtTreeSet.not_mem_empty, false_or] at hcollect
  unfold nextMany
  rw [perform_bind, perform_get]
  exact hcollect

/-! ### Whatever is asked -/

/-- What a desk may be asked for, and what others may do meanwhile. -/
inductive Ask where
  | next
  | nextMany (count : Nat)
  | giveBack (ids : List Identifier)
  /-- Others take from the queue and put into it, so that this is in it then. -/
  | meanwhile (items : List Identifier)

/-- Asks the desk, which hands out some identifiers or none. -/
def Ask.action (d : Desk) : Ask → Action (List Identifier)
  | next => return [← d.next]
  | nextMany count => return (← d.nextMany count).toList
  | giveBack ids => do
    d.giveBack ids
    return []
  | meanwhile items => do
    modify fun s => { s with queue := ⟨s.queue.capacity, items⟩ }
    return []

/-- The state after the desk was asked for one thing after the other. -/
def after (d : Desk) (s : State) (asks : List Ask) : State :=
  asks.foldl (fun s ask => ((ask.action d).perform s).2) s

/-- A desk stays in order, and hands out nothing that is reserved. -/
theorem inOrder_action (hs : InOrder d s) : ∀ ask : Ask,
    InOrder d ((ask.action d).perform s).2 ∧
      ∀ ids, ((ask.action d).perform s).1 = .ok ids → ∀ id ∈ ids, ¬ id.IsReserved
  | .next => by
    rw [Ask.action, perform_bind]
    obtain ⟨id, s', hnext, hfirst, hs', -⟩ | ⟨message, s', hnext, -, hs', -⟩ := next_waiting hs
    · rw [hnext]
      refine ⟨hs', ?_⟩
      rintro _ ⟨⟩ x hx
      obtain rfl := List.mem_singleton.mp hx
      exact hs.not_isReserved_waiting x (hfirst ▸ List.mem_cons_self)
    · rw [hnext]
      exact ⟨hs', nofun⟩
  | .nextMany count => by
    rw [Ask.action, perform_bind]
    obtain ⟨ids, s', used, hmany, hs', -, hused, hall⟩ | ⟨message, s', all, hmany, hs', -⟩ :=
      nextMany_waiting hs count
    · rw [hmany]
      refine ⟨hs', ?_⟩
      rintro _ ⟨⟩ x hx
      have hx := (hall x).mp (ExtTreeSet.mem_toList.mp hx)
      exact hs.not_isReserved_waiting x (hused ▸ List.mem_append_left _ hx)
    · rw [hmany]
      exact ⟨hs', nofun⟩
  | .giveBack ids => by
    obtain ⟨a, log, hback, -, hgiven⟩ := giveBack_kept d ids s
    rw [Ask.action, perform_bind, hback]
    refine ⟨(hs.setAllocator (hgiven.source.trans hs.source) (hgiven.neat hs.neat)).congr
      rfl rfl rfl, ?_⟩
    rintro _ ⟨⟩ x hx
    cases hx
  | .meanwhile items => by
    refine ⟨hs.congr rfl rfl rfl, ?_⟩
    rintro _ ⟨⟩ x hx
    cases hx

theorem inOrder_after : ∀ (asks : List Ask) {s : State}, InOrder d s → InOrder d (d.after s asks)
  | [], _, hs => hs
  | ask :: asks, _, hs => inOrder_after asks (inOrder_action hs ask).1

/-- **Handing out is exact, whatever is in the queue.** Whatever a desk was asked for, and whatever
others did to the queue meanwhile, its buffer has nothing that is reserved, nothing twice and no
more than it can hold, and nothing reserved is handed out.

Whoever asks for an identifier gets the oldest one of the buffer; if there is none, the first one
of the queue that is not reserved, which is taken out together with all before it; and if there is
none either, the call fails, and in no other case. Whoever asks for several gets just as many
different ones, from the beginning of what waits. If all that waits is not as many, the call fails,
the queue is empty, and the buffer keeps as many of them as it can. Giving back adds to the buffer
everything that is of use while there is room. -/
theorem handing_out_is_exact (hs : InOrder d s) (asks : List Ask) :
    let t := d.after s asks
    let a := t.allocator d
    (a.buffer.Nodup ∧ a.buffer.length ≤ a.capacity ∧ ∀ id ∈ a.buffer, ¬ id.IsReserved) ∧
    (∀ (ask : Ask) ids, ((ask.action d).perform t).1 = .ok ids → ∀ id ∈ ids, ¬ id.IsReserved) ∧
    ((∀ id rest, a.buffer = id :: rest →
        (next d).perform t = (.ok id, t.setAllocator d { a with buffer := rest })) ∧
      (a.buffer = [] → ∀ skipped id rest, t.queue.items = skipped ++ id :: rest →
        (∀ x ∈ skipped, x.IsReserved) → ¬ id.IsReserved →
          ∃ log, (next d).perform t =
            (.ok id, { t with queue := ⟨t.queue.capacity, rest⟩, log })) ∧
      ((∃ e, ((next d).perform t).1 = .error e) ↔
        a.buffer = [] ∧ ∀ x ∈ t.queue.items, x.IsReserved) ∧
      ∀ e, ((next d).perform t).1 = .error e →
        e = .idUnavailable (timedOutReason a.timeout)) ∧
    (∀ count,
      (∃ ids t' used, (nextMany d count).perform t = (.ok ids, t') ∧ ids.size = count ∧
        t.waiting d = used ++ t'.waiting d ∧ ∀ id, id ∈ ids ↔ id ∈ used) ∨
      (∃ message t' all, (nextMany d count).perform t = (.error (.idUnavailable message), t') ∧
        all.length < count ∧ (∀ id, id ∈ all ↔ id ∈ t.waiting d) ∧ RanOut d t t' all ∧
        (t'.allocator d).buffer.length = min a.capacity all.length)) ∧
    (∀ ids, ∃ a' log, (giveBack d ids).perform t = (.ok (), { t.setAllocator d a' with log }) ∧
      a.GivenBack ids a') := by
  intro t a
  have ht : InOrder d t := inOrder_after asks hs
  have hfails : (∃ e, ((next d).perform t).1 = .error e) →
      a.buffer = [] ∧ ∀ x ∈ t.queue.items, x.IsReserved := by
    rintro ⟨e, hfail⟩
    obtain ⟨id, t', hnext, -⟩ | ⟨message, t', hnext, hnone, -⟩ := next_waiting ht
    · rw [hnext] at hfail
      cases hfail
    · obtain ⟨hbuffer, hqueue⟩ := List.append_eq_nil_iff.mp hnone
      refine ⟨hbuffer, fun x hx => ?_⟩
      simpa using List.filter_eq_nil_iff.mp hqueue x hx
  refine ⟨⟨ht.neat.nodup, ht.neat.within, ht.neat.unreserved⟩, fun ask => (inOrder_action ht ask).2,
    ⟨fun id rest hbuffer => perform_next_buffered hbuffer, ?_, ⟨hfails, ?_⟩, ?_⟩, fun count => ?_,
    fun ids => ?_⟩
  · intro hbuffer skipped id rest hitems hskipped hid
    exact perform_next_queued ht.outages ht.source hbuffer hitems hskipped hid
  · rintro ⟨hbuffer, hreserved⟩
    obtain ⟨clock, log, hnext⟩ := perform_next_none ht.outages ht.source hbuffer hreserved
    exact ⟨_, congrArg Prod.fst hnext⟩
  · intro e hfail
    obtain ⟨hbuffer, hreserved⟩ := hfails ⟨e, hfail⟩
    obtain ⟨clock, log, hnext⟩ := perform_next_none ht.outages ht.source hbuffer hreserved
    rw [hnext] at hfail
    exact (Except.error.inj hfail).symm
  · obtain ⟨ids, t', used, hmany, -, hsize, hused, hall⟩ |
      ⟨message, t', all, hmany, -, hlength, hall, hout⟩ := nextMany_waiting ht count
    · exact .inl ⟨ids, t', used, hmany, hsize, hused, hall⟩
    · refine .inr ⟨message, t', all, hmany, hlength, hall, hout, ?_⟩
      rw [hout.buffer, List.length_take]
  · obtain ⟨a', log, hback, -, hgiven⟩ := giveBack_kept d ids t
    exact ⟨a', log, hback, hgiven⟩

/-- Reserved identifiers are in the queue, and another one twice: four different ones cannot be
had, and two of the three are kept. -/
theorem two_of_three_are_kept :
    let s := State.start { partitions := 2 } ⟨0, 0⟩
    let queue : List Identifier := [.ofParts 0 3, .ofParts 1 5000, .ofParts 1 5000,
      .ofParts 0 5000, .ofParts 0 7, .ofParts 1 5001]
    let t := after .registry s [.meanwhile queue]
    InOrder .registry s ∧ ∃ message t',
      (nextMany .registry 4).perform t = (.error (.idUnavailable message), t') ∧
      (t'.allocator .registry).buffer.length = 2 ∧ t'.queue.items = [] := by
  intro s queue t
  have hs : InOrder .registry s := inOrder_start rfl ⟨0, 0⟩ .registry
  have hfails : ((nextMany .registry 4).perform t).1.isOk = false := by decide +kernel
  have hlength : ((nextMany .registry 4).perform t).2.registry.buffer.length = 2 := by
    decide +kernel
  have hmany := (handing_out_is_exact hs [.meanwhile queue]).2.2.2.1 4
  obtain ⟨ids, t', used, hperform, -⟩ | ⟨message, t', all, hperform, -, -, hout, -⟩ := hmany
  · rw [show (nextMany .registry 4).perform t = _ from hperform] at hfails
    cases hfails
  · rw [show (nextMany .registry 4).perform t = _ from hperform] at hlength
    exact ⟨hs, message, t', hperform, hlength, hout.queue⟩

end Desk
end AccessRegistry
