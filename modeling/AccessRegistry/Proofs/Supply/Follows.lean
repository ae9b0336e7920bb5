/-
# Actions that follow a site

The part of a registry's state in which identifiers are kept is a site with one desk or
two. An action follows the site if all that it does there is a run of events, from what is
on the way when it begins to what is on the way when it ends. Actions that do not touch the
site follow it, and a sequence follows it if its parts do.

Key definitions: `Supply.OnTheWay`, `State.site`, `Action.Quiet`, `Action.Follows`.
Key theorems: `Action.follows_bind`, `Action.Quiet.follows`.
-/
import AccessRegistry.Proofs.Actions
import AccessRegistry.Proofs.Supply.Site

namespace AccessRegistry

open Supply (Site Event Visit)

/-- What is in no part of the state: minted batches, visits, and what the callers have. -/
structure Supply.OnTheWay where
  batches : List (List Identifier)
  visits : List Visit
  hands : List (List Identifier)

theorem eraseIdx_last {α : Type} (l : List α) (a : α) : (l ++ [a]).eraseIdx l.length = l := by
  rw [List.eraseIdx_append_of_length_le (Nat.le_refl _), Nat.sub_self, List.eraseIdx_cons_zero,
    List.append_nil]

theorem set_last {α : Type} (l : List α) (a b : α) : (l ++ [a]).set l.length b = l ++ [b] := by
  rw [List.set_append_right _ _ (Nat.le_refl _), Nat.sub_self, List.set_cons_zero]

/-- The site of a state: the registry's desk, and the front desk if it has an allocator of
its own. -/
def State.site (s : State) (w : Supply.OnTheWay) : Site where
  cursors := s.tables.cursors
  queue := s.queue
  desks := s.registry :: s.front.toList
  batches := w.batches
  visits := w.visits
  hands := w.hands

/-- Nothing happened at the site between two states. -/
structure State.Unmoved (s s' : State) : Prop where
  cursors : s'.tables.cursors = s.tables.cursors
  queue : s'.queue = s.queue
  registry : s'.registry = s.registry
  front : s'.front = s.front

namespace State.Unmoved

variable {s s' s'' : State}

theorem refl (s : State) : Unmoved s s := ⟨rfl, rfl, rfl, rfl⟩

theorem trans (h : Unmoved s s') (h' : Unmoved s' s'') : Unmoved s s'' :=
  ⟨h'.cursors.trans h.cursors, h'.queue.trans h.queue, h'.registry.trans h.registry,
    h'.front.trans h.front⟩

theorem site_eq (h : Unmoved s s') (w : Supply.OnTheWay) : s'.site w = s.site w := by
  unfold site
  rw [h.cursors, h.queue, h.registry, h.front]

theorem withQueue (h : Unmoved s s') (queue : Queue) :
    Unmoved { s with queue } { s' with queue } := ⟨h.cursors, rfl, h.registry, h.front⟩

theorem keeps {P : Allocator → Option Allocator → Prop} (h : Unmoved s s')
    (hs : P s.registry s.front) : P s'.registry s'.front := by
  rw [h.registry, h.front]
  exact hs

end State.Unmoved

namespace Action

open State (Unmoved)

variable {α β : Type}

/-- An action that leaves the site alone. -/
def Quiet (x : Action α) : Prop := ∀ s, Unmoved s (x.perform s).2

theorem quiet_pure (a : α) : Quiet (pure a) := Unmoved.refl

theorem quiet_throw (e : ServiceError) : Quiet (throw e : Action α) := Unmoved.refl

theorem quiet_bind {x : Action α} {f : α → Action β} (hx : Quiet x) (hf : ∀ a, Quiet (f a)) :
    Quiet (x >>= f) := by
  intro s
  have hx := hx s
  rw [perform_bind]
  rcases h : x.perform s with ⟨e | a, s'⟩
  · rw [h] at hx
    exact hx
  · rw [h] at hx
    exact hx.trans (hf a s')

theorem quiet_get : Quiet (get : Action State) := Unmoved.refl

theorem quiet_modify {f : State → State} (hf : ∀ s, Unmoved s (f s)) :
    Quiet (modify f : Action PUnit) := hf

theorem quiet_attempt {x : Action α} (hx : Quiet x) : Quiet (attempt x) := hx

theorem quiet_get_bind {f : State → Action β} (hf : ∀ s, Unmoved s ((f s).perform s).2) :
    Quiet (get >>= f) := hf

theorem quiet_say (level : Log.Level) (part : Log.Part) (message : String)
    (fields : List (String × Log.Value)) : Quiet (say level part message fields) :=
  quiet_modify fun _ => ⟨rfl, rfl, rfl, rfl⟩

theorem quiet_logAll (rs : List Log.Record) : Quiet (logAll rs) :=
  quiet_modify fun _ => ⟨rfl, rfl, rfl, rfl⟩

theorem quiet_wait (ms : Nat) : Quiet (wait ms) := quiet_modify fun _ => ⟨rfl, rfl, rfl, rfl⟩

theorem quiet_call (c : Call) : Quiet (call c) := by
  refine quiet_get_bind fun s => ?_
  rcases s.outages.check c with ⟨fails, outages⟩
  cases fails <;> exact ⟨rfl, rfl, rfl, rfl⟩

theorem quiet_reach : Quiet reach := by
  refine quiet_get_bind fun s => ?_
  split
  · exact Unmoved.refl s
  · exact Unmoved.refl s

theorem quiet_callRecords (c : Call) : Quiet (callRecords c) :=
  quiet_bind (quiet_call c) fun _ => quiet_reach

/-- A call fails, or what comes after it runs where nothing happened at the site. -/
theorem perform_call_get {x : Action α} {c : Call} {f : State → Action α}
    (hx : x = call c >>= fun _ => get >>= f) (s : State) :
    ∃ s', Unmoved s s' ∧
      ((∃ e, x.perform s = (.error e, s')) ∨ x.perform s = (f s').perform s') := by
  have hquiet := quiet_call c s
  rw [hx, perform_bind]
  rcases hcall : (call c).perform s with ⟨e | _, s'⟩
  · rw [hcall] at hquiet
    exact ⟨s', hquiet, Or.inl ⟨e, rfl⟩⟩
  · rw [hcall] at hquiet
    exact ⟨s', hquiet, Or.inr rfl⟩

/-! ### Following -/

/-- What an action does at the site is a run of events. `P` is what it needs to know of the
desks, and keeps. -/
def Follows (P : Allocator → Option Allocator → Prop) (x : Action α) (w : Supply.OnTheWay)
    (w' : Except ServiceError α → Supply.OnTheWay) : Prop :=
  ∀ s, P s.registry s.front →
    P (x.perform s).2.registry (x.perform s).2.front ∧
      ∃ events, (s.site w).run events = (x.perform s).2.site (w' (x.perform s).1)

variable {P : Allocator → Option Allocator → Prop} {w : Supply.OnTheWay}

theorem Quiet.follows {x : Action α} (hx : Quiet x) : Follows P x w fun _ => w := by
  intro s hs
  exact ⟨(hx s).keeps hs, [], ((hx s).site_eq w).symm⟩

theorem follows_pure {a : α} {w' : Except ServiceError α → Supply.OnTheWay} (h : w' (.ok a) = w) :
    Follows P (pure a) w w' := fun s hs => ⟨hs, [], congrArg s.site h.symm⟩

theorem follows_throw {e : ServiceError} {w' : Except ServiceError α → Supply.OnTheWay}
    (h : w' (.error e) = w) : Follows P (throw e) w w' :=
  fun s hs => ⟨hs, [], congrArg s.site h.symm⟩

/-- A sequence follows the site if its parts do. -/
theorem follows_bind {x : Action α} {f : α → Action β}
    {w₁ : Except ServiceError α → Supply.OnTheWay}
    {w₂ : Except ServiceError β → Supply.OnTheWay} (hx : Follows P x w w₁)
    (hf : ∀ a, Follows P (f a) (w₁ (.ok a)) w₂) (he : ∀ e, w₁ (.error e) = w₂ (.error e)) :
    Follows P (x >>= f) w w₂ := by
  intro s hs
  obtain ⟨hs', events, hrun⟩ := hx s hs
  rw [perform_bind]
  rcases h : x.perform s with ⟨e | a, s'⟩
  · rw [h] at hs' hrun
    exact ⟨hs', events, by rw [hrun, he]⟩
  · rw [h] at hs' hrun
    obtain ⟨hs'', events', hrun'⟩ := hf a s' hs'
    refine ⟨hs'', events ++ events', ?_⟩
    rw [Site.run_append, hrun]
    exact hrun'

theorem follows_get_bind {f : State → Action β} {w' : Except ServiceError β → Supply.OnTheWay}
    (hf : ∀ s, Follows P (f s) w w') : Follows P (get >>= f) w w' := fun s => hf s s

theorem follows_attempt {x : Action α} {w' : Except ServiceError α → Supply.OnTheWay}
    {w₁ : Supply.OnTheWay} (hx : Follows P x w w') : Follows P (attempt x) w fun
      | .ok r => w' r
      | .error _ => w₁ := hx

theorem Quiet.follows_bind {x : Action α} {f : α → Action β}
    {w' : Except ServiceError β → Supply.OnTheWay} (hx : Quiet x) (hf : ∀ a, Follows P (f a) w w')
    (he : ∀ e, w' (.error e) = w) : Follows P (x >>= f) w w' :=
  Action.follows_bind hx.follows hf fun e => (he e).symm

theorem follows_event {x : Action α} {w' : Except ServiceError α → Supply.OnTheWay}
    (h : ∀ s, P s.registry s.front →
      P (x.perform s).2.registry (x.perform s).2.front ∧
        ∃ e, (s.site w).after e = (x.perform s).2.site (w' (x.perform s).1)) :
    Follows P x w w' := by
  intro s hs
  obtain ⟨hs', e, he⟩ := h s hs
  exact ⟨hs', [e], he⟩

end Action
end AccessRegistry
