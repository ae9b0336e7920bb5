/-
# Nobody gets what somebody has

At a site that starts with nothing there is never a second copy of an identifier. What a
caller has stays with it until it is given back, so that an identifier that was handed out
is not handed out again unless it was given back in between. The jobs of a registry are runs
of its site, and a registry starts with a site at which nothing was minted.

Key theorems: `Supply.Site.held_or_takesBack_run`, `Supply.Site.not_held_of_handsOut`,
`Supply.Site.not_held_of_nextMany`, `Supply.Site.identifiers_are_unique`.
-/
import AccessRegistry.Proofs.Supply.Conservation
import AccessRegistry.Proofs.Supply.Jobs

namespace AccessRegistry.Supply.Site

variable {s s' : Site} {e : Event} {id : Identifier}

theorem mem_held : id ∈ s.held ↔ ∃ (caller : Nat) (hand : List Identifier),
    s.hands[caller]? = some hand ∧ id ∈ hand := by
  unfold held
  rw [List.mem_flatten]
  constructor
  · rintro ⟨hand, hhand, hid⟩
    obtain ⟨caller, hcaller⟩ := List.mem_iff_getElem?.mp hhand
    exact ⟨caller, hand, hcaller, hid⟩
  · rintro ⟨caller, hand, hcaller, hid⟩
    exact ⟨hand, List.mem_of_getElem? hcaller, hid⟩

theorem mem_held_set {caller : Nat} {hand new : List Identifier}
    (hhand : s.hands[caller]? = some hand) (hnew : id ∈ hand → id ∈ new) (h : id ∈ s.held) :
    id ∈ (s.hands.set caller new).flatten := by
  obtain ⟨other, hand', hother, hid⟩ := mem_held.mp h
  rw [List.mem_flatten]
  by_cases hsame : caller = other
  · subst hsame
    obtain rfl := Option.some.inj (hhand.symm.trans hother)
    have hlt : caller < s.hands.length := (List.getElem?_eq_some_iff.mp hhand).1
    exact ⟨new, List.mem_set hlt new, hnew hid⟩
  · have hother' : (s.hands.set caller new)[other]? = some hand' := by
      rw [List.getElem?_set_ne hsame, hother]
    exact ⟨hand', List.mem_of_getElem? hother', hid⟩

/-- What a caller has stays with it until it is given back. -/
theorem held_or_takesBack (h : s.after? e = some s') (hid : id ∈ s.held) :
    id ∈ s'.held ∨ id ∈ e.takesBack s := by
  have hsome : (s.after? e).isSome := Option.isSome_of_eq_some h
  cases step_of_after? h with
  | @serve i v hand hvisit hhand hdone =>
    exact Or.inl (mem_held_set hhand (List.mem_append_left v.ids) hid)
  | @giveBack desk caller a hand ids hhand hdesk hnd hids =>
    by_cases hback : id ∈ ids
    · refine Or.inr ?_
      show id ∈ if (s.after? (.giveBack desk caller ids)).isSome then ids else []
      rw [if_pos hsome]
      exact hback
    · refine Or.inl (mem_held_set hhand (fun hin => ?_) hid)
      exact List.mem_filter.mpr ⟨hin, by simpa using hback⟩
  | _ => exact Or.inl hid

theorem held_or_takesBack_after (e : Event) (hid : id ∈ s.held) :
    id ∈ (s.after e).held ∨ id ∈ e.takesBack s := by
  unfold after
  cases h : s.after? e with
  | none => exact Or.inl hid
  | some s' => exact held_or_takesBack h hid

/-- Over a run, what was in a hand is in a hand still, or was given back at some time. -/
theorem held_or_takesBack_run : ∀ (events : List Event) {s : Site}, id ∈ s.held →
    id ∈ (s.run events).held ∨ ∃ before g rest, events = before ++ g :: rest ∧
      id ∈ g.takesBack (s.run before)
  | [], _, hid => Or.inl hid
  | e :: events, s, hid => by
    rcases held_or_takesBack_after e hid with hkept | hback
    · rcases held_or_takesBack_run events hkept with hkept | ⟨before, g, rest, rfl, hback⟩
      · exact Or.inl hkept
      · exact Or.inr ⟨e :: before, g, rest, rfl, hback⟩
    · exact Or.inr ⟨[], e, events, rfl, hback⟩

/-- What an event hands out was taken by a visit, and goes into a hand. -/
theorem handsOut_spec (hid : id ∈ e.handsOut s) :
    ∃ (i : Nat) (v : Visit) (hand : List Identifier), e = .serve i ∧ s.visits[i]? = some v ∧
      s.hands[v.caller]? = some hand ∧ id ∈ v.ids ∧
      (s.after e).hands = s.hands.set v.caller (hand ++ v.ids) := by
  cases e with
  | serve i =>
    have hout : id ∈ if (s.after? (.serve i)).isSome then (s.visits[i]?.map Visit.ids).getD []
      else [] := hid
    cases h : s.after? (.serve i) with
    | none =>
      rw [h] at hout
      exact absurd hout List.not_mem_nil
    | some s' =>
      rw [h] at hout
      have hafter : s.after (.serve i) = s' := by rw [after, h, Option.getD_some]
      cases step_of_after? h with
      | @serve _ v hand hvisit hhand hdone =>
        rw [hvisit] at hout
        exact ⟨i, v, hand, rfl, hvisit, hhand, hout, by rw [hafter]⟩
  | _ => exact absurd hid List.not_mem_nil

theorem mem_held_of_handsOut (hid : id ∈ e.handsOut s) : id ∈ (s.after e).held := by
  obtain ⟨i, v, hand, -, -, hhand, hin, hhands⟩ := handsOut_spec hid
  have hlt : v.caller < s.hands.length := (List.getElem?_eq_some_iff.mp hhand).1
  unfold held
  rw [hhands, List.mem_flatten]
  exact ⟨hand ++ v.ids, List.mem_set hlt _, List.mem_append_right hand hin⟩

/-- What is handed out is in nobody's hands. -/
theorem not_held_of_handsOut (hs : s.Sound) (hid : id ∈ e.handsOut s) : id ∉ s.held := by
  obtain ⟨i, v, hand, -, hvisit, -, hin, -⟩ := handsOut_spec hid
  intro hheld
  have hhands : 0 < tally (fun ids => ids) s.hands id := by
    unfold tally
    rw [List.flatMap_id']
    exact List.count_pos_iff.mpr hheld
  have hvisits : 0 < tally Visit.ids s.visits id :=
    List.count_pos_iff.mpr (List.mem_flatMap.mpr ⟨v, List.mem_of_getElem? hvisit, hin⟩)
  have honce := hs.once id
  rw [copies_eq] at honce
  omega

/-- A registry whose identifiers come from the queue starts with one desk and an empty queue. -/
theorem site_start (ids : IdSettings) (h : ids.mode = .partitioned) (today : Instant)
    (callers : Nat) :
    (State.start ids today).site ⟨[], [], List.replicate callers []⟩ =
      start [] ids.queueCapacity [ids] callers := by
  unfold start
  rw [List.map_singleton, ← h]
  rfl

theorem sound_of_follows {α : Type} {x : Action α} {P : Allocator → Option Allocator → Prop}
    {w : OnTheWay} {w' : Except ServiceError α → OnTheWay} {st : State}
    (hx : x.Follows P w w') (hP : P st.registry st.front) (hs : (st.site w).Sound) :
    ((x.perform st).2.site (w' (x.perform st).1)).Sound := by
  obtain ⟨-, events, hrun⟩ := hx st hP
  rw [← hrun]
  exact sound_run events hs

/-- What a caller was given at a site that is sound then was in no hand before. -/
theorem not_held_of_given {st st' : State} {w : OnTheWay} {caller : Nat} {ids : List Identifier}
    (hcaller : caller < w.hands.length) (hs : (st'.site (w.given caller ids)).Sound)
    (hid : id ∈ ids) : id ∉ (st.site w).held := by
  intro hheld
  have hhand : w.hands[caller]? = some w.hands[caller] := List.getElem?_eq_getElem hcaller
  have hin : 0 < tally (fun ids => ids) w.hands id := by
    unfold tally
    rw [List.flatMap_id']
    exact List.count_pos_iff.mpr hheld
  have hpos : 0 < ids.count id := List.count_pos_iff.mpr hid
  have hset := tally_set (f := fun ids => ids) (x := id) (w.hands[caller] ++ ids) hhand
  have hgiven : (st'.site (w.given caller ids)).hands =
      w.hands.set caller (w.hands[caller] ++ ids) := modify_eq_set (· ++ ids) hhand
  have honce := hs.once id
  rw [copies_eq, hgiven] at honce
  rw [List.count_append] at hset
  omega

/-- A desk gives a caller nothing that a caller has. -/
theorem not_held_of_nextMany {st st' : State} {w : OnTheWay} {own : Bool} {d : Desk}
    {caller count : Nat} {ids : Std.ExtTreeSet Identifier}
    (hP : Partitioned own st.registry st.front) (hs : (st.site w).Sound)
    (hcaller : caller < w.hands.length) (h : (d.nextMany count).perform st = (.ok ids, st'))
    (hid : id ∈ ids) : id ∉ (st.site w).held := by
  have hsound := sound_of_follows (Desk.follows_nextMany (d := d) hcaller count) hP hs
  rw [h] at hsound
  exact not_held_of_given hcaller hsound (Std.ExtTreeSet.mem_toList.mpr hid)

/-! ### All sites -/

/-- **Identifiers are unique.** However many replenishers, desks and callers there are, from
whichever cursors they start and in whichever order things happen, no identifier is ever in
two places of the site or twice in one; and one that was handed out is handed out again only
if it was given back in between. Nothing else happens in a registry: whatever replenishers
and desks do there is a run of its site. -/
theorem identifiers_are_unique (saved : List Cursor) (capacity : Nat) (desks : List IdSettings)
    (callers : Nat) :
    (∀ events, ((start saved capacity desks callers).run events).places.Nodup) ∧
    (∀ (before between : List Event) (e e' : Event) (id : Identifier),
      id ∈ e.handsOut ((start saved capacity desks callers).run before) →
      id ∈ e'.handsOut ((start saved capacity desks callers).run (before ++ e :: between)) →
      ∃ first g rest, between = first ++ g :: rest ∧
        id ∈ g.takesBack ((start saved capacity desks callers).run (before ++ e :: first))) ∧
    ∀ (own : Bool) (job : Job) (w : OnTheWay), job.Allowed w →
      job.action.Follows (Partitioned own) w (job.outcome w) := by
  have hsound := fun events => sound_run events (sound_start saved capacity desks callers)
  refine ⟨fun events => ?_, fun before between e e' id hout hout' => ?_, fun own job w h => ?_⟩
  · exact List.nodup_iff_count_le_one.mpr (hsound events).once
  · have hheld := mem_held_of_handsOut hout
    have hagain := not_held_of_handsOut (hsound _) hout'
    rw [run_append] at hagain
    rcases held_or_takesBack_run between hheld with hkept | ⟨first, g, rest, rfl, hback⟩
    · exact absurd hkept hagain
    · refine ⟨first, g, rest, rfl, ?_⟩
      rw [run_append]
      exact hback
  · exact Job.follows h

/-- An identifier that was given back goes out again, and its caller can give it back once
more. -/
theorem given_back_goes_out_again :
    let id : Identifier := .ofParts 1 0
    let before : List Event := [.scroll [1] 1, .push 0, .call 0 0 1, .pop 0]
    let between : List Event := [.giveBack 0 0 [id], .call 0 0 1, .take 0]
    (∃ first g rest, between = first ++ g :: rest ∧
      id ∈ g.takesBack ((start [] 1 [{}] 1).run (before ++ .serve 0 :: first))) ∧
    (Job.giveBack .registry 0 [id]).action.Follows (Partitioned false) ⟨[], [], [[id]]⟩
      ((Job.giveBack .registry 0 [id]).outcome ⟨[], [], [[id]]⟩) := by
  intro id before between
  have hunique := identifiers_are_unique [] 1 [{}] 1
  have hallowed : (Job.giveBack .registry 0 [id]).Allowed ⟨[], [], [[id]]⟩ :=
    ⟨List.nodup_singleton id, [id], rfl, fun _ h => h⟩
  constructor
  · exact hunique.2.1 before between (.serve 0) (.serve 0) id (by decide) (by decide)
  · exact hunique.2.2 false _ _ hallowed

end AccessRegistry.Supply.Site
