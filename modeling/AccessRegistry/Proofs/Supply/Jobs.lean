/-
# Jobs follow the site

What a registry does with identifiers are jobs of a few kinds: a replenisher goes through a
round or works all its time, and a caller asks a desk for one identifier or for several, or
gives back what it has. Each job is a run of the site, at the end of which nothing is on the
way that was not before, and what the caller was given is in its hand.

Key definitions: `Supply.Job`, `Supply.Job.action`, `Supply.Job.Allowed`,
`Supply.Job.outcome`.
Key theorems: `Desk.follows_nextOne`, `Desk.follows_nextMany`, `Desk.follows_giveBack`,
`Supply.Job.follows`.
-/
import Mathlib.Data.List.Basic
import AccessRegistry.Proofs.Collections
import AccessRegistry.Proofs.Supply.Minters
import AccessRegistry.Proofs.Supply.Stock

namespace AccessRegistry

open Std (ExtTreeSet)
open Supply (Site Event Visit OnTheWay)
open AccessRegistry.Action

namespace Supply.OnTheWay

/-- A caller has more identifiers. -/
def given (w : OnTheWay) (caller : Nat) (ids : List Identifier) : OnTheWay :=
  { w with hands := w.hands.modify caller (· ++ ids) }

/-- A caller has some identifiers no more. -/
def rid (w : OnTheWay) (caller : Nat) (ids : List Identifier) : OnTheWay :=
  { w with hands := w.hands.modify caller fun hand => hand.filter (· ∉ ids) }

end Supply.OnTheWay

variable {own : Bool} {w : OnTheWay} {s s' : State} {d : Desk} {v : Visit} {caller : Nat}

theorem modify_eq_set {α : Type} {l : List α} {i : Nat} {a : α} (f : α → α) (h : l[i]? = some a) :
    l.modify i f = l.set i (f a) := by
  rw [List.modify_eq_set_getElem?, h]
  rfl

theorem ids_add_empty (hv : v.taken = ∅) (id : Identifier) : (v.add id).ids = [id] := by
  have hmem : ∀ a, a ∈ (v.add id).ids ↔ a = id := by
    intro a
    show a ∈ (v.taken.insert id).toList ↔ a = id
    rw [hv, ExtTreeSet.mem_toList, ExtTreeSet.mem_insert, Std.LawfulEqOrd.compare_eq_iff_eq]
    exact ⟨fun h => (h.resolve_right ExtTreeSet.not_mem_empty).symm, fun h => Or.inl h.symm⟩
  have hsize : (v.add id).ids.length = 1 := by
    show (v.taken.insert id).toList.length = 1
    rw [hv, ExtTreeSet.length_toList, ExtTreeSet.size_insert]
    rfl
  obtain ⟨a, ha⟩ := List.length_eq_one_iff.mp hsize
  have hid : a = id := (hmem a).mp (ha ▸ List.mem_singleton_self a)
  rw [ha, hid]

namespace State

theorem after_serve (s : State) (w : OnTheWay) (hcaller : v.caller < w.hands.length)
    (hdone : v.wants = false) :
    (s.site (w.visiting v)).after (.serve w.visits.length) = s.site (w.given v.caller v.ids) := by
  have hvisit : (w.visits ++ [v])[w.visits.length]? = some v := List.getElem?_concat_length
  have herase : (w.visits ++ [v]).eraseIdx w.visits.length = w.visits := eraseIdx_last _ _
  have hhand : w.hands[v.caller]? = some w.hands[v.caller] := List.getElem?_eq_getElem hcaller
  have hmodify := modify_eq_set (· ++ v.ids) hhand
  unfold Site.after Site.after? site OnTheWay.visiting OnTheWay.given
  rw [hmodify]
  simp only [Option.bind_eq_bind, Option.pure_def, hvisit, hhand, Option.bind_some, herase,
    hdone, guard, Bool.false_eq_true, not_false_eq_true, if_true, Option.getD_some]

theorem after_abandon (s : State) (w : OnTheWay) :
    (s.site (w.visiting v)).after (.abandon w.visits.length) = s.site w := by
  have herase : (w.visits ++ [v]).eraseIdx w.visits.length = w.visits := eraseIdx_last _ _
  unfold Site.after Site.after? site OnTheWay.visiting
  simp only [Option.getD_some, herase]

theorem after_giveBack (s : State) (w : OnTheWay) {desk : Nat} {a : Allocator}
    {hand ids : List Identifier} (hdesk : (s.site w).desks[desk]? = some a)
    (hhand : w.hands[caller]? = some hand) (hnd : ids.Nodup) (hids : ∀ id ∈ ids, id ∈ hand) :
    (s.site w).after (.giveBack desk caller ids) =
      { s.site (w.rid caller ids) with desks := (s.site w).desks.set desk (a.giveBack ids).1 } := by
  have hdesk' : (s.registry :: s.front.toList)[desk]? = some a := hdesk
  have hall : ids.Nodup ∧ ∀ id ∈ ids, id ∈ hand := ⟨hnd, hids⟩
  have hrid := modify_eq_set (fun hand => hand.filter (· ∉ ids)) hhand
  unfold Site.after Site.after? site OnTheWay.rid
  rw [hrid]
  simp only [Option.bind_eq_bind, Option.pure_def, hhand, hdesk', Option.bind_some, guard,
    if_pos hall, Option.getD_some]

/-- A call is what its visit does, between a first event and a last one. -/
theorem run_call {desk count : Nat} {events : List Event}
    (hrun : (s.site (w.visiting ⟨desk, caller, count, ∅⟩)).run events = s'.site (w.visiting v))
    (last : Event) :
    (s.site w).run (.call desk caller count :: (events ++ [last])) =
      (s'.site (w.visiting v)).after last := by
  show (s.site (w.visiting ⟨desk, caller, count, ∅⟩)).run (events ++ [last]) = _
  rw [Site.run_append, hrun]
  rfl

end State

namespace Desk

/-- One identifier for a caller. -/
theorem follows_nextOne (hcaller : caller < w.hands.length) :
    Follows (Partitioned own) (next d) w fun
      | .ok id => w.given caller [id]
      | .error _ => w := by
  intro s hs
  let v : Visit := ⟨d.place own, caller, 1, ∅⟩
  have hwants : v.wants := decide_eq_true Nat.zero_lt_one
  obtain ⟨hs', events, hrun⟩ := follows_next (w := w) (v := v) rfl hwants s hs
  rcases hperform : (next d).perform s with ⟨e | id, s'⟩
  · rw [hperform] at hs' hrun
    refine ⟨hs', .call (d.place own) caller 1 :: (events ++ [.abandon w.visits.length]), ?_⟩
    exact (State.run_call hrun _).trans (s'.after_abandon w)
  · rw [hperform] at hs' hrun
    have hids : (v.add id).ids = [id] := ids_add_empty rfl id
    have hsize : (v.taken.insert id).size = 1 := by
      rw [← ExtTreeSet.length_toList]
      exact congrArg List.length hids
    have hdone : (v.add id).wants = false :=
      decide_eq_false (Nat.not_lt_of_le (Nat.le_of_eq hsize.symm))
    have hserve := s'.after_serve w (v := v.add id) hcaller hdone
    rw [hids] at hserve
    refine ⟨hs', .call (d.place own) caller 1 :: (events ++ [.serve w.visits.length]), ?_⟩
    exact (State.run_call hrun _).trans hserve

/-- Several identifiers for a caller, or none. -/
theorem follows_nextMany (hcaller : caller < w.hands.length) (count : Nat) :
    Follows (Partitioned own) (nextMany d count) w fun
      | .ok ids => w.given caller ids.toList
      | .error _ => w := by
  intro s hs
  let v : Visit := ⟨d.place own, caller, count, ∅⟩
  have hcollect : Follows (Partitioned own) (collect d count
      (count + (s.allocator d).buffer.length + s.queue.length + 1) ∅) (w.visiting v) _ :=
    follows_collect (v := v) rfl _ ∅
  obtain ⟨hs', events, hrun⟩ := hcollect s hs
  rcases hperform : (nextMany d count).perform s with ⟨e | ids, s'⟩
  · rw [show (collect d count _ ∅).perform s = _ from hperform] at hs' hrun
    exact ⟨hs', .call (d.place own) caller count :: events, hrun⟩
  · rw [show (collect d count _ ∅).perform s = _ from hperform] at hs' hrun
    have hsize : ids.size = count := size_nextMany hs hperform
    have hdone : ({ v with taken := ids } : Visit).wants = false :=
      decide_eq_false (Nat.not_lt_of_le (Nat.le_of_eq hsize.symm))
    refine ⟨hs', .call (d.place own) caller count :: (events ++ [.serve w.visits.length]), ?_⟩
    exact (State.run_call hrun _).trans (s'.after_serve w hcaller hdone)

/-- A caller gives back what it has. -/
theorem follows_giveBack {hand ids : List Identifier} (hhand : w.hands[caller]? = some hand)
    (hnd : ids.Nodup) (hids : ∀ id ∈ ids, id ∈ hand) :
    Follows (Partitioned own) (giveBack d ids) w fun _ => w.rid caller ids := by
  intro s hs
  obtain ⟨s', hquiet, h⟩ := perform_giveBack d ids s
  have hsource := (Allocator.source_giveBack ids (s.allocator d)).trans (hs.source_allocator d)
  have hafter := s.after_giveBack w (hs.getElem?_place d) hhand hnd hids
  rw [h]
  refine ⟨hquiet.keeps (hs.setAllocator d hsource), [.giveBack (d.place own) caller ids], ?_⟩
  calc (s.site w).after (.giveBack (d.place own) caller ids)
      = (s.setAllocator d ((s.allocator d).giveBack ids).1).site (w.rid caller ids) :=
        hafter.trans (hs.site_setAllocator d _).symm
    _ = s'.site (w.rid caller ids) := (hquiet.site_eq _).symm

end Desk

/-! ### Jobs -/

/-- What a registry does with identifiers. -/
inductive Supply.Job where
  /-- A replenisher goes through one round. -/
  | round (r : Replenisher) (p : Patience)
  /-- A replenisher works for some milliseconds. -/
  | run (r : Replenisher) (ms : Nat)
  /-- A caller asks for one identifier. -/
  | next (d : Desk) (caller : Nat)
  /-- A caller asks for several identifiers. -/
  | nextMany (d : Desk) (caller count : Nat)
  /-- A caller gives identifiers back. -/
  | giveBack (d : Desk) (caller : Nat) (ids : List Identifier)

namespace Supply.Job

/-- What is done, and what the caller is given. -/
def action : Job → Action (List Identifier)
  | round r p => do
    let _ ← r.round p
    return []
  | run r ms => do
    r.run ms
    return []
  | next d _ => return [← d.next]
  | nextMany d _ count => return (← d.nextMany count).toList
  | giveBack d _ ids => do
    d.giveBack ids
    return []

/-- There is such a caller, who gives back only what it has, and that once. -/
def Allowed (w : OnTheWay) : Job → Prop
  | round _ _ | run _ _ => True
  | next _ caller | nextMany _ caller _ => caller < w.hands.length
  | giveBack _ caller ids =>
    ids.Nodup ∧ ∃ hand, w.hands[caller]? = some hand ∧ ∀ id ∈ ids, id ∈ hand

/-- What is on the way at the end. -/
def outcome (w : OnTheWay) : Job → Except ServiceError (List Identifier) → OnTheWay
  | next _ caller, .ok ids | nextMany _ caller _, .ok ids => w.given caller ids
  | giveBack _ caller ids, _ => w.rid caller ids
  | _, _ => w

/-- Each job is a run of the site. -/
theorem follows {job : Job} (h : job.Allowed w) :
    Follows (Partitioned own) job.action w (job.outcome w) := by
  cases job with
  | round r p =>
    exact follows_bind (r.follows_round p) (fun _ => follows_pure rfl) fun _ => rfl
  | run r ms =>
    exact follows_bind (r.follows_run ms) (fun _ => follows_pure rfl) fun _ => rfl
  | next d caller =>
    exact follows_bind (Desk.follows_nextOne h) (fun _ => follows_pure rfl) fun _ => rfl
  | nextMany d caller count =>
    exact follows_bind (Desk.follows_nextMany h count) (fun _ => follows_pure rfl) fun _ => rfl
  | giveBack d caller ids =>
    obtain ⟨hnd, hand, hhand, hids⟩ := h
    exact follows_bind (Desk.follows_giveBack hhand hnd hids) (fun _ => follows_pure rfl)
      fun _ => rfl

end Supply.Job
end AccessRegistry
