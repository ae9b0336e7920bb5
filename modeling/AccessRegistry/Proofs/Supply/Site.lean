/-
# A site at which identifiers are handed out

Any number of replenishers mint into one queue, and any number of desks hand out what comes
from it. What happens at such a site happens one thing after the other, in whichever order:
a replenisher scrolls, delivers a batch or loses it; a caller comes to a desk, is given one
identifier after the other from the desk's buffer or from the queue, and leaves with all of
them or with none; and a caller gives back what it has. Replenishers need no lock here: one
that lost it goes on like all others.

Key definitions: `Supply.Site`, `Supply.Event`, `Supply.Site.after?`, `Supply.Site.Step`,
`Supply.Site.run`, `Supply.Site.places`.
Key theorems: `Supply.Site.step_of_after?`.
-/
import Mathlib.Data.Option.Basic
import AccessRegistry.Supply.Allocator
import AccessRegistry.Supply.Queue
import AccessRegistry.Table.Cursors

namespace AccessRegistry

theorem Allocator.take?_eq_some {a a' : Allocator} {id : Identifier}
    (h : a.take? = some (id, a')) :
    a.buffer = id :: a'.buffer ∧ a'.source = a.source := by
  unfold take? at h
  split at h
  · cases h
  · rename_i id' ids hbuffer
    simp only [Option.some.injEq, Prod.mk.injEq] at h
    obtain ⟨rfl, rfl⟩ := h
    exact ⟨hbuffer, rfl⟩

theorem Queue.pop?_eq_some {q q' : Queue} {id : Identifier} (h : q.pop? = some (id, q')) :
    q.items = id :: q'.items := by
  unfold pop? at h
  split at h
  · cases h
  · rename_i id' ids hitems
    simp only [Option.some.injEq, Prod.mk.injEq] at h
    obtain ⟨rfl, rfl⟩ := h
    exact hitems

namespace Supply

open Std (ExtTreeSet)

/-- A call at a desk that is under way. -/
structure Visit where
  desk : Nat
  caller : Nat
  /-- How many identifiers are asked for. -/
  count : Nat
  /-- The identifiers that were taken so far. -/
  taken : ExtTreeSet Identifier

namespace Visit

/-- The identifiers that were taken so far, in order. -/
def ids (v : Visit) : List Identifier := v.taken.toList

/-- Whether there are identifiers to take. -/
def wants (v : Visit) : Bool := v.taken.size < v.count

/-- The visit with one more identifier. -/
def add (v : Visit) (id : Identifier) : Visit := { v with taken := v.taken.insert id }

end Visit

/-- Everything that shares one table of cursors and one queue. -/
structure Site where
  cursors : Cursors
  queue : Queue
  desks : List Allocator
  /-- What was minted and is not in the queue yet. -/
  batches : List (List Identifier)
  visits : List Visit
  /-- What each caller has. -/
  hands : List (List Identifier)

/-- What can happen at a site. Batches, visits, desks and callers are told by their places
in the lists of the site. -/
inductive Event where
  /-- Partitions get their first cursors. -/
  | ensure (count : Nat)
  /-- A replenisher mints a batch. -/
  | scroll (ps : List Partition) (count : Nat)
  /-- A batch comes into the queue. -/
  | push (batch : Nat)
  /-- A batch is given up. -/
  | lose (batch : Nat)
  /-- A caller comes to a desk. -/
  | call (desk caller count : Nat)
  /-- A visit takes what was given back to the desk. -/
  | take (visit : Nat)
  /-- A visit takes something out of the queue; what is reserved is thrown away. -/
  | pop (visit : Nat)
  /-- A visit ends, and its caller gets what was taken. -/
  | serve (visit : Nat)
  /-- A visit fails, and what was taken goes back to the desk in some order. -/
  | fail (visit : Nat) (ids : List Identifier)
  /-- A visit is broken off, and what was taken is lost. -/
  | abandon (visit : Nat)
  /-- A caller gives back some of what it has. -/
  | giveBack (desk caller : Nat) (ids : List Identifier)

namespace Site

/-- The site after an event, if it is one that can happen. -/
def after? (s : Site) : Event → Option Site
  | .ensure count => some { s with cursors := s.cursors.ensure count }
  | .scroll ps count =>
    let scrolled := Cursors.scroll count ps s.cursors
    some { s with
      cursors := scrolled.2
      batches := s.batches ++ [scrolled.1.ids.filter fun id => ¬ id.IsReserved] }
  | .push i => do
    let batch ← s.batches[i]?
    let queue ← s.queue.push? batch
    return { s with queue, batches := s.batches.eraseIdx i }
  | .lose i => some { s with batches := s.batches.eraseIdx i }
  | .call desk caller count => some { s with visits := s.visits ++ [⟨desk, caller, count, ∅⟩] }
  | .take i => do
    let v ← s.visits[i]?
    let a ← s.desks[v.desk]?
    let (id, a) ← a.take?
    guard v.wants
    return { s with desks := s.desks.set v.desk a, visits := s.visits.set i (v.add id) }
  | .pop i => do
    let v ← s.visits[i]?
    let (id, queue) ← s.queue.pop?
    guard v.wants
    return { s with
      queue
      visits := if id.IsReserved then s.visits else s.visits.set i (v.add id) }
  | .serve i => do
    let v ← s.visits[i]?
    let hand ← s.hands[v.caller]?
    guard ¬ v.wants
    return { s with
      visits := s.visits.eraseIdx i
      hands := s.hands.set v.caller (hand ++ v.ids) }
  | .fail i ids => do
    let v ← s.visits[i]?
    let a ← s.desks[v.desk]?
    guard (ids.isPerm v.ids)
    return { s with
      visits := s.visits.eraseIdx i
      desks := s.desks.set v.desk (a.giveBack ids).1 }
  | .abandon i => some { s with visits := s.visits.eraseIdx i }
  | .giveBack desk caller ids => do
    let hand ← s.hands[caller]?
    let a ← s.desks[desk]?
    guard (ids.Nodup ∧ ∀ id ∈ ids, id ∈ hand)
    return { s with
      hands := s.hands.set caller (hand.filter (· ∉ ids))
      desks := s.desks.set desk (a.giveBack ids).1 }

/-- What each event makes of a site, and when it can happen. -/
inductive Step (s : Site) : Event → Site → Prop where
  | ensure (count : Nat) : Step s (.ensure count) { s with cursors := s.cursors.ensure count }
  | scroll (ps : List Partition) (count : Nat) :
    Step s (.scroll ps count) { s with
      cursors := (Cursors.scroll count ps s.cursors).2
      batches := s.batches ++
        [(Cursors.scroll count ps s.cursors).1.ids.filter fun id => ¬ id.IsReserved] }
  | push {i : Nat} {batch : List Identifier} {queue : Queue} (hbatch : s.batches[i]? = some batch)
    (hpush : s.queue.push? batch = some queue) :
    Step s (.push i) { s with queue, batches := s.batches.eraseIdx i }
  | lose (i : Nat) : Step s (.lose i) { s with batches := s.batches.eraseIdx i }
  | call (desk caller count : Nat) :
    Step s (.call desk caller count)
      { s with visits := s.visits ++ [⟨desk, caller, count, ∅⟩] }
  | take {i : Nat} {v : Visit} {a a' : Allocator} {id : Identifier}
    (hvisit : s.visits[i]? = some v) (hdesk : s.desks[v.desk]? = some a)
    (htake : a.take? = some (id, a')) (hwants : v.wants) :
    Step s (.take i)
      { s with desks := s.desks.set v.desk a', visits := s.visits.set i (v.add id) }
  | skip {i : Nat} {v : Visit} {queue : Queue} {id : Identifier}
    (hvisit : s.visits[i]? = some v) (hpop : s.queue.pop? = some (id, queue)) (hwants : v.wants)
    (hreserved : id.IsReserved) : Step s (.pop i) { s with queue }
  | pop {i : Nat} {v : Visit} {queue : Queue} {id : Identifier}
    (hvisit : s.visits[i]? = some v) (hpop : s.queue.pop? = some (id, queue)) (hwants : v.wants)
    (hfree : ¬ id.IsReserved) :
    Step s (.pop i) { s with queue, visits := s.visits.set i (v.add id) }
  | serve {i : Nat} {v : Visit} {hand : List Identifier} (hvisit : s.visits[i]? = some v)
    (hhand : s.hands[v.caller]? = some hand) (hdone : ¬ v.wants) :
    Step s (.serve i)
      { s with visits := s.visits.eraseIdx i, hands := s.hands.set v.caller (hand ++ v.ids) }
  | fail {i : Nat} {v : Visit} {a : Allocator} {ids : List Identifier}
    (hvisit : s.visits[i]? = some v) (hdesk : s.desks[v.desk]? = some a)
    (hperm : ids.Perm v.ids) :
    Step s (.fail i ids)
      { s with visits := s.visits.eraseIdx i, desks := s.desks.set v.desk (a.giveBack ids).1 }
  | abandon (i : Nat) : Step s (.abandon i) { s with visits := s.visits.eraseIdx i }
  | giveBack {desk caller : Nat} {a : Allocator} {hand ids : List Identifier}
    (hhand : s.hands[caller]? = some hand) (hdesk : s.desks[desk]? = some a) (hnd : ids.Nodup)
    (hids : ∀ id ∈ ids, id ∈ hand) :
    Step s (.giveBack desk caller ids)
      { s with
        hands := s.hands.set caller (hand.filter (· ∉ ids))
        desks := s.desks.set desk (a.giveBack ids).1 }

/-- What was computed is what the event makes of the site. -/
theorem step_of_after? {s s' : Site} {e : Event} (h : s.after? e = some s') : Step s e s' := by
  cases e with
  | ensure | scroll | lose | call | abandon =>
    obtain rfl := Option.some.inj h
    constructor
  | push i =>
    simp only [after?, Option.bind_eq_bind, Option.bind_eq_some_iff, Option.pure_def,
      Option.some.injEq] at h
    obtain ⟨batch, hbatch, queue, hqueue, rfl⟩ := h
    exact .push hbatch hqueue
  | take i =>
    simp only [after?, Option.bind_eq_bind, Option.bind_eq_some_iff, Option.pure_def,
      Option.some.injEq, Option.guard_eq_some'] at h
    obtain ⟨v, hv, a, ha, ⟨id, a'⟩, htake, -, hwants, rfl⟩ := h
    exact .take hv ha htake hwants
  | pop i =>
    simp only [after?, Option.bind_eq_bind, Option.bind_eq_some_iff, Option.pure_def,
      Option.some.injEq, Option.guard_eq_some'] at h
    obtain ⟨v, hv, ⟨id, queue⟩, hpop, -, hwants, rfl⟩ := h
    by_cases hreserved : id.IsReserved
    · simp only [if_pos hreserved]
      exact .skip hv hpop hwants hreserved
    · simp only [if_neg hreserved]
      exact .pop hv hpop hwants hreserved
  | serve i =>
    simp only [after?, Option.bind_eq_bind, Option.bind_eq_some_iff, Option.pure_def,
      Option.some.injEq, Option.guard_eq_some'] at h
    obtain ⟨v, hv, hand, hhand, -, hdone, rfl⟩ := h
    exact .serve hv hhand hdone
  | fail i ids =>
    simp only [after?, Option.bind_eq_bind, Option.bind_eq_some_iff, Option.pure_def,
      Option.some.injEq, Option.guard_eq_some'] at h
    obtain ⟨v, hv, a, ha, -, hperm, rfl⟩ := h
    exact .fail hv ha (List.isPerm_iff.mp hperm)
  | giveBack desk caller ids =>
    simp only [after?, Option.bind_eq_bind, Option.bind_eq_some_iff, Option.pure_def,
      Option.some.injEq, Option.guard_eq_some'] at h
    obtain ⟨hand, hhand, a, ha, -, ⟨hnd, hids⟩, rfl⟩ := h
    exact .giveBack hhand ha hnd hids

/-- The site after an event. What cannot happen changes nothing. -/
def after (s : Site) (e : Event) : Site := (s.after? e).getD s

/-- The site after some events. -/
def run (s : Site) (events : List Event) : Site := events.foldl after s

theorem run_append (s : Site) (es es' : List Event) : s.run (es ++ es') = (s.run es).run es' :=
  List.foldl_append

/-- A site with cursors that were saved one after the other, at which nothing was minted
yet: the queue and the buffers of all desks are empty, and no caller has anything. -/
def start (saved : List Cursor) (capacity : Nat) (desks : List IdSettings) (callers : Nat) :
    Site where
  cursors := saved.foldl Cursors.save ∅
  queue := .empty capacity
  desks := desks.map fun d => .ofSettings { d with mode := .partitioned }
  batches := []
  visits := []
  hands := List.replicate callers []

/-! ### Where identifiers are -/

/-- Every identifier at the site, as often as it is there: in the queue, in the buffer of a
desk, in a batch, taken by a visit, or in the hands of a caller. -/
def places (s : Site) : List Identifier :=
  s.queue.items ++ s.desks.flatMap Allocator.buffer ++ s.batches.flatten ++
    s.visits.flatMap Visit.ids ++ s.hands.flatten

/-- What the callers have. -/
def held (s : Site) : List Identifier := s.hands.flatten

end Site

namespace Event

/-- The identifiers that callers are given by an event. -/
def handsOut (s : Site) (e : Event) : List Identifier :=
  match e with
  | .serve i => if (s.after? e).isSome then (s.visits[i]?.map Visit.ids).getD [] else []
  | _ => []

/-- The identifiers that a caller gives back by an event. -/
def takesBack (s : Site) (e : Event) : List Identifier :=
  match e with
  | .giveBack _ _ ids => if (s.after? e).isSome then ids else []
  | _ => []

end Event
end Supply
end AccessRegistry
