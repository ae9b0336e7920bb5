/-
# Desks follow the site

A call at a desk is a visit. Each identifier that it asks for comes from the desk's buffer
or out of the queue, where it may have to throw reserved ones away. A call that fails gives
back what it took.

Key definitions: `Partitioned`, `Desk.place`, `Supply.OnTheWay.visiting`.
Key theorems: `Desk.follows_next`, `Desk.follows_collect`.
-/
import AccessRegistry.Proofs.Supply.Follows
import AccessRegistry.Supply.Handout

namespace AccessRegistry

open Supply (Site Event Visit OnTheWay)
open AccessRegistry.Action
open State (Unmoved)

/-- One more visit is under way. -/
def Supply.OnTheWay.visiting (w : OnTheWay) (v : Visit) : OnTheWay :=
  { w with visits := w.visits ++ [v] }

/-- All desks hand out what comes from the queue. -/
structure Partitioned (own : Bool) (registry : Allocator) (front : Option Allocator) : Prop where
  own : front.isSome = own
  registry : registry.source = .partitioned
  front : ∀ a ∈ front, a.source = .partitioned

/-- Where the allocator of a desk stands at the site. -/
def Desk.place (own : Bool) : Desk → Nat
  | .registry => 0
  | .front => own.toNat

variable {own : Bool} {w : OnTheWay} {s : State} {d : Desk} {v : Visit}

namespace Allocator

theorem source_giveBackOne (a : Allocator) (id : Identifier) :
    (a.giveBackOne id).1.source = a.source := by
  unfold giveBackOne
  split
  · rfl
  · split <;> rfl

theorem source_giveBack : ∀ (ids : List Identifier) (a : Allocator),
    (a.giveBack ids).1.source = a.source
  | [], _ => rfl
  | id :: ids, a => (source_giveBack ids _).trans (source_giveBackOne a id)

end Allocator

namespace Partitioned

/-- A desk has the registry's allocator or one of its own. -/
theorem desk_cases (h : Partitioned own s.registry s.front) (d : Desk) :
    (d.place own = 0 ∧ s.allocator d = s.registry ∧
      ∀ a, s.setAllocator d a = { s with registry := a }) ∨
    ∃ b, d.place own = 1 ∧ s.front = some b ∧ s.allocator d = b ∧
      ∀ a, s.setAllocator d a = { s with front := some a } := by
  have hown := h.own
  cases d with
  | registry => exact Or.inl ⟨rfl, rfl, fun _ => rfl⟩
  | front =>
    unfold State.allocator State.setAllocator
    cases hs : s.front with
    | none =>
      rw [hs] at hown
      exact Or.inl ⟨congrArg Bool.toNat hown.symm, rfl, fun _ => rfl⟩
    | some b =>
      rw [hs] at hown
      exact Or.inr ⟨b, congrArg Bool.toNat hown.symm, rfl, rfl, fun _ => rfl⟩

theorem source_allocator (h : Partitioned own s.registry s.front) (d : Desk) :
    (s.allocator d).source = .partitioned := by
  rcases h.desk_cases d with ⟨-, hallocator, -⟩ | ⟨b, -, hfront, hallocator, -⟩
  · rw [hallocator]
    exact h.registry
  · rw [hallocator]
    exact h.front b hfront

theorem getElem?_place (h : Partitioned own s.registry s.front) (d : Desk) :
    (s.site w).desks[d.place own]? = some (s.allocator d) := by
  show (s.registry :: s.front.toList)[d.place own]? = _
  rcases h.desk_cases d with ⟨hplace, hallocator, -⟩ | ⟨b, hplace, hfront, hallocator, -⟩
  · rw [hplace, hallocator]
    rfl
  · rw [hplace, hallocator, hfront]
    rfl

theorem setAllocator (h : Partitioned own s.registry s.front) (d : Desk) {a : Allocator}
    (ha : a.source = .partitioned) :
    Partitioned own (s.setAllocator d a).registry (s.setAllocator d a).front := by
  obtain ⟨hown, hregistry, hfront⟩ := id h
  rcases h.desk_cases d with ⟨-, -, hset⟩ | ⟨b, -, hb, -, hset⟩
  · rw [hset]
    exact ⟨hown, ha, hfront⟩
  · rw [hset]
    rw [hb] at hown
    exact ⟨hown, hregistry, fun c hc => Option.some.inj hc ▸ ha⟩

theorem site_setAllocator (h : Partitioned own s.registry s.front) (d : Desk) (a : Allocator) :
    (s.setAllocator d a).site w =
      { s.site w with desks := (s.site w).desks.set (d.place own) a } := by
  unfold State.site
  rcases h.desk_cases d with ⟨hplace, -, hset⟩ | ⟨b, hplace, hfront, -, hset⟩
  · rw [hset, hplace]
    rfl
  · rw [hset, hplace, hfront]
    rfl

end Partitioned

/-! ### Taking and giving back -/

/-- What is on the way when a visit has asked for one more identifier. -/
def Supply.OnTheWay.asked (w : OnTheWay) (v : Visit) : Except ServiceError Identifier → OnTheWay
  | .ok id => w.visiting (v.add id)
  | .error _ => w.visiting v

theorem State.after_take (s : State) (w : OnTheWay) {a a' : Allocator} {id : Identifier}
    (hdesk : (s.site w).desks[v.desk]? = some a) (htake : a.take? = some (id, a'))
    (hwants : v.wants) :
    (s.site (w.visiting v)).after (.take w.visits.length) =
      { s.site (w.visiting (v.add id)) with desks := (s.site w).desks.set v.desk a' } := by
  have hvisit : (w.visits ++ [v])[w.visits.length]? = some v := List.getElem?_concat_length
  have hset : (w.visits ++ [v]).set w.visits.length (v.add id) = w.visits ++ [v.add id] :=
    set_last _ _ _
  have hdesk' : (s.registry :: s.front.toList)[v.desk]? = some a := hdesk
  unfold Site.after Site.after? State.site OnTheWay.visiting
  simp only [Option.bind_eq_bind, Option.pure_def, hvisit, hdesk', htake, Option.bind_some, hset,
    hwants, guard, if_true, Option.getD_some]

theorem State.after_pop (s : State) (w : OnTheWay) {queue : Queue} {id : Identifier}
    (hpop : s.queue.pop? = some (id, queue)) (hwants : v.wants) :
    (s.site (w.visiting v)).after (.pop w.visits.length) =
      { s with queue }.site (w.visiting (if id.IsReserved then v else v.add id)) := by
  have hvisit : (w.visits ++ [v])[w.visits.length]? = some v := List.getElem?_concat_length
  have hset : (w.visits ++ [v]).set w.visits.length (v.add id) = w.visits ++ [v.add id] :=
    set_last _ _ _
  unfold Site.after Site.after? State.site OnTheWay.visiting
  simp only [Option.bind_eq_bind, Option.pure_def, hvisit, hpop, Option.bind_some, hset,
    hwants, guard, if_true, Option.getD_some]
  by_cases hreserved : id.IsReserved
  · rw [if_pos hreserved, if_pos hreserved]
  · rw [if_neg hreserved, if_neg hreserved]

theorem Store.perform_pop (s : State) (patience : Nat) :
    ∃ s', Unmoved s s' ∧
      ((∃ e, (pop? patience).perform s = (.error e, s')) ∨
        (∃ id queue, s.queue.pop? = some (id, queue) ∧
          (pop? patience).perform s = (.ok (some id), { s' with queue })) ∨
        (pop? patience).perform s = (.ok none, s')) := by
  obtain ⟨s', hquiet, ⟨e, h⟩ | h⟩ := perform_call_get (x := pop? patience) rfl s
  · exact ⟨s', hquiet, Or.inl ⟨e, h⟩⟩
  · rw [hquiet.queue] at h
    cases hpop : s.queue.pop? with
    | some popped =>
      rcases popped with ⟨id, queue⟩
      rw [hpop] at h
      exact ⟨s', hquiet, Or.inr (Or.inl ⟨id, queue, rfl, h⟩)⟩
    | none =>
      rw [hpop] at h
      exact ⟨_, hquiet.trans (quiet_wait patience s'), Or.inr (Or.inr h)⟩

variable {P : Allocator → Option Allocator → Prop}

theorem Store.follows_pop (patience : Nat) (hwants : v.wants) :
    Follows P (pop? patience) (w.visiting v) fun
      | .ok (some id) => w.visiting (if id.IsReserved then v else v.add id)
      | _ => w.visiting v := by
  intro s hs
  obtain ⟨s', hquiet, ⟨e, h⟩ | ⟨id, queue, hpop, h⟩ | h⟩ := perform_pop s patience
  · rw [h]
    exact ⟨hquiet.keeps hs, [], (hquiet.site_eq _).symm⟩
  · rw [h]
    refine ⟨hquiet.keeps hs, [.pop w.visits.length], ?_⟩
    exact (s.after_pop w hpop hwants).trans ((hquiet.withQueue queue).site_eq _).symm
  · rw [h]
    exact ⟨hquiet.keeps hs, [], (hquiet.site_eq _).symm⟩

namespace Desk

theorem follows_timedOut (timeout : Nat) :
    Follows P (timedOut timeout) (w.visiting v) (w.asked v) :=
  (quiet_say _ _ _ _).follows_bind (fun _ => follows_throw rfl) fun _ => rfl

theorem follows_popOr {again : Action Identifier}
    (hagain : Follows P again (w.visiting v) (w.asked v)) (hwants : v.wants)
    (timeout deadline : Nat) :
    Follows P (popOr again timeout deadline) (w.visiting v) (w.asked v) := by
  refine follows_get_bind fun s => ?_
  refine follows_bind (Store.follows_pop _ hwants) (fun popped => ?_) fun _ => rfl
  rcases popped with _ | id
  · exact follows_timedOut timeout
  · dsimp only
    split
    · exact (quiet_say _ _ _ _).follows_bind (fun _ => hagain) fun _ => rfl
    · exact follows_pure rfl

theorem follows_popUnreserved (hwants : v.wants) (timeout deadline : Nat) :
    ∀ waiting, Follows P (popUnreserved timeout deadline waiting) (w.visiting v) (w.asked v)
  | [] => follows_popOr (follows_timedOut timeout) hwants timeout deadline
  | _ :: waiting =>
    follows_popOr (follows_popUnreserved hwants timeout deadline waiting) hwants timeout deadline

/-- One identifier is taken, or none. -/
theorem follows_next (hdesk : v.desk = d.place own) (hwants : v.wants) :
    Follows (Partitioned own) (next d) (w.visiting v) (w.asked v) := by
  intro s hs
  unfold next
  rw [perform_bind, perform_get]
  dsimp only
  cases htake : (s.allocator d).take? with
  | some taken =>
    rcases taken with ⟨id, a⟩
    have hsource : a.source = .partitioned :=
      (Allocator.take?_eq_some htake).2.trans (hs.source_allocator d)
    refine ⟨hs.setAllocator d hsource, [.take w.visits.length], ?_⟩
    have hafter := s.after_take w (hdesk ▸ hs.getElem?_place d) htake hwants
    rw [hdesk] at hafter
    exact hafter.trans (hs.site_setAllocator d a).symm
  | none =>
    rw [hs.source_allocator d]
    exact follows_popUnreserved hwants _ _ _ s hs

theorem perform_giveBack (d : Desk) (ids : List Identifier) (s : State) :
    ∃ s', Unmoved (s.setAllocator d ((s.allocator d).giveBack ids).1) s' ∧
      (giveBack d ids).perform s = (.ok (), s') :=
  ⟨_, quiet_logAll _ _, rfl⟩

/-- The last visit fails, and its desk gets back what it took. -/
theorem after_fail (s : State) (w : OnTheWay) {a : Allocator} {ids : List Identifier}
    (hdesk : (s.site w).desks[v.desk]? = some a) (hperm : ids.Perm v.ids) :
    (s.site (w.visiting v)).after (.fail w.visits.length ids) =
      { s.site w with desks := (s.site w).desks.set v.desk (a.giveBack ids).1 } := by
  have hvisit : (w.visits ++ [v])[w.visits.length]? = some v := List.getElem?_concat_length
  have herase : (w.visits ++ [v]).eraseIdx w.visits.length = w.visits := eraseIdx_last _ _
  have hdesk' : (s.registry :: s.front.toList)[v.desk]? = some a := hdesk
  have hperm' : ids.isPerm v.ids := List.isPerm_iff.mpr hperm
  unfold Site.after Site.after? State.site OnTheWay.visiting
  simp only [Option.bind_eq_bind, Option.pure_def, hvisit, hdesk', Option.bind_some, herase,
    hperm', guard, if_true, Option.getD_some]

theorem follows_giveUp (hdesk : v.desk = d.place own) :
    Follows (Partitioned own) (giveBack d v.ids) (w.visiting v) fun _ => w := by
  intro s hs
  obtain ⟨s', hquiet, h⟩ := perform_giveBack d v.ids s
  have hsource := (Allocator.source_giveBack v.ids (s.allocator d)).trans (hs.source_allocator d)
  have hafter := after_fail s w (hdesk ▸ hs.getElem?_place d) (List.Perm.refl v.ids)
  rw [hdesk] at hafter
  rw [h]
  refine ⟨hquiet.keeps (hs.setAllocator d hsource), [.fail w.visits.length v.ids], ?_⟩
  calc (s.site (w.visiting v)).after (.fail w.visits.length v.ids)
      = (s.setAllocator d ((s.allocator d).giveBack v.ids).1).site w :=
        hafter.trans (hs.site_setAllocator d _).symm
    _ = s'.site w := (hquiet.site_eq w).symm

/-- A visit takes what it wants, or it fails and leaves everything at its desk. -/
theorem follows_collect (hdesk : v.desk = d.place own) :
    ∀ (more : Nat) (taken : Std.ExtTreeSet Identifier),
      Follows (Partitioned own) (collect d v.count more taken) (w.visiting { v with taken }) fun
        | .ok taken => w.visiting { v with taken }
        | .error _ => w
  | 0, _ => follows_pure rfl
  | more + 1, taken => by
    unfold collect
    split
    · exact follows_pure rfl
    · rename_i hcount
      have hwants : ({ v with taken } : Visit).wants := decide_eq_true (Nat.lt_of_not_le hcount)
      refine follows_bind (follows_attempt (follows_next hdesk hwants)) (fun next => ?_)
        fun _ => rfl
      cases next with
      | ok id => exact follows_collect hdesk more (taken.insert id)
      | error e =>
        have hgiveUp := follows_giveUp (w := w) (v := { v with taken }) hdesk
        exact follows_bind hgiveUp (fun _ => follows_throw rfl) fun _ => rfl

end Desk
end AccessRegistry
