/-
# Traffic

Any number of calls may be under way in a registry at the same time, and whose turn it is
nobody can tell: each turn one of them makes its next step, or something else is done at
once. Traffic is all that together: the registry, what is left of each call, and what the
calls were answered when they asked for identifiers. If every call obeys rules, each has a
stage at every time, and a turn moves one of them as the rules say. What every such turn
keeps is kept by all traffic (`Traffic.Staged.run`).

Key definitions: `Traffic`, `Turn`, `Traffic.after`, `Traffic.run`, `Traffic.Staged`,
`Traffic.Keeps`.
Key theorems: `Operation.Aside.ends`, `Traffic.over_run`, `Traffic.Staged.after_call`,
`Traffic.Staged.run`.
-/
import Mathlib.Data.List.Induction
import Mathlib.Logic.Function.Basic
import AccessRegistry.Proofs.Operations
import AccessRegistry.Proofs.Procedures

namespace AccessRegistry

/-- The books with other cursors. -/
def Books.withCursors (b : Books) (cursors : Cursors) : Books :=
  { b with tables := { b.tables with cursors } }

theorem Books.eq_withCursors {b b' : Books} {cursors : Cursors} (h : b' = b.withCursors cursors) :
    b' = b.withCursors b'.tables.cursors := by
  subst h
  rfl

/-- The operations that leave the records to others: questions, and what goes on in the supply
of identifiers, on the clock and in the log. -/
def Operation.Aside : Operation → Prop
  | meanwhile _ => True
  | o => o.Asks

/-- Beside the records only cursors move. -/
theorem Operation.Aside.ends {o : Operation} (h : o.Aside) (b : Books) :
    Ends o.action b fun _ b' => ∃ cursors, b' = b.withCursors cursors := by
  have hasks : ∀ {o : Operation}, o.Asks →
      Ends o.action b fun _ b' => ∃ cursors, b' = b.withCursors cursors := fun ho =>
    (ho.idle b).mono fun _ b' hb => ⟨b.tables.cursors, hb⟩
  cases o with
  | meanwhile elsewhere =>
    rintro s hs rfl
    exact ⟨⟨hs.storage, hs.outages⟩, elsewhere.tables.cursors, rfl⟩
  | _ => exact hasks h

/-! ### Turns -/

/-- What may be next: a step of one of the calls, or an operation that is done at once. -/
inductive Turn (ι : Type) where
  | call (i : ι)
  | other (o : Operation)

namespace Turn

variable {ι : Type}

/-- The call whose turn it is. -/
def caller? : Turn ι → Option ι
  | call i => some i
  | other _ => none

/-- All calls may make their steps; what else is done is of a kind. -/
def Within (Allowed : Operation → Prop) : Turn ι → Prop
  | call _ => True
  | other o => Allowed o

end Turn

/-- A registry, what is left of the calls that are under way, and what they were answered
when they asked for identifiers. -/
structure Traffic (ι α : Type) where
  state : State
  calls : ι → Procedure α
  answers : List Answer

namespace Traffic

variable {ι α σ : Type}

/-- Calls begin. -/
def start (s : State) (calls : ι → Procedure α) : Traffic ι α := ⟨s, calls, []⟩

section

variable [DecidableEq ι] {t : Traffic ι α} {i j : ι}

/-- A call makes its next step, if it has one. -/
def advance (t : Traffic ι α) (i : ι) : Traffic ι α :=
  match t.calls i with
  | .step c next =>
    { state := (c.perform.perform t.state).2
      calls := Function.update t.calls i (next (c.perform.perform t.state).1)
      answers := t.answers ++ c.asked (c.perform.perform t.state).1 }
  | _ => t

/-- The traffic after a turn. -/
def after (t : Traffic ι α) : Turn ι → Traffic ι α
  | .call i => t.advance i
  | .other o => { t with state := (o.action.perform t.state).2 }

/-- The traffic after some turns. -/
def run (t : Traffic ι α) (turns : List (Turn ι)) : Traffic ι α := turns.foldl after t

theorem run_append (t : Traffic ι α) (turns turns' : List (Turn ι)) :
    t.run (turns ++ turns') = (t.run turns).run turns' := List.foldl_append

theorem run_concat (t : Traffic ι α) (turns : List (Turn ι)) (turn : Turn ι) :
    t.run (turns ++ [turn]) = (t.run turns).after turn := run_append t turns [turn]

theorem advance_of_step {β : Type} {c : Step β} {next : Except ServiceError β → Procedure α}
    (h : t.calls i = .step c next) :
    t.advance i = ⟨(c.perform.perform t.state).2,
      Function.update t.calls i (next (c.perform.perform t.state).1),
      t.answers ++ c.asked (c.perform.perform t.state).1⟩ := by
  unfold advance
  rw [h]

theorem advance_of_over (h : (t.calls i).Over) : t.advance i = t := by
  unfold advance
  cases hc : t.calls i with
  | done a => rfl
  | fail e => rfl
  | step c next =>
    rw [hc] at h
    cases h

/-- Only the call whose turn it is goes on. -/
theorem calls_after (turn : Turn ι) (h : turn.caller? ≠ some i) :
    (t.after turn).calls i = t.calls i := by
  cases turn with
  | other o => rfl
  | call j =>
    have hne : i ≠ j := fun he => h (he ▸ rfl)
    show (t.advance j).calls i = t.calls i
    rcases (t.calls j).over_or_step with hover | ⟨β, c, next, hc⟩
    · rw [advance_of_over hover]
    · rw [advance_of_step hc]
      exact Function.update_of_ne hne _ _

theorem endsWithin_after {n : Nat} (h : (t.calls i).EndsWithin (n + 1)) :
    ((t.after (.call i)).calls i).EndsWithin n := by
  show ((t.advance i).calls i).EndsWithin n
  rcases (t.calls i).over_or_step with hover | ⟨β, c, next, hc⟩
  · rw [advance_of_over hover]
    exact hover.endsWithin n
  · rw [hc] at h
    obtain ⟨m, hm, hnext⟩ := h
    obtain rfl : n = m := Nat.succ.inj hm
    rw [advance_of_step hc]
    dsimp only
    rw [Function.update_self]
    exact hnext _

/-- A call whose steps are bounded comes to its end if it gets as many turns, whatever is
done in between. -/
theorem over_run : ∀ (turns : List (Turn ι)) {t : Traffic ι α} {n : Nat},
    (t.calls i).EndsWithin n → n ≤ (turns.filterMap Turn.caller?).count i →
      ((t.run turns).calls i).Over
  | [], t, n, h, hn => (h.mono hn).over
  | turn :: turns, t, n, h, hn => by
    by_cases hturn : turn.caller? = some i
    · have hcall : turn = .call i := by
        cases turn with
        | call j => exact congrArg Turn.call (Option.some.inj hturn)
        | other o => cases hturn
      subst hcall
      have hmore : (t.calls i).EndsWithin ((n - 1) + 1) := h.mono (by omega)
      refine over_run turns (endsWithin_after hmore) ?_
      rw [List.filterMap_cons_some hturn, List.count_cons_self] at hn
      omega
    · have hsame : (t.after turn).calls i = t.calls i := calls_after turn hturn
      refine over_run turns (t := t.after turn) (hsame ▸ h) ?_
      cases hcaller : turn.caller? with
      | none => rwa [List.filterMap_cons_none hcaller] at hn
      | some j =>
        have hne : j ≠ i := fun he => hturn (he ▸ hcaller)
        rwa [List.filterMap_cons_some hcaller, List.count_cons_of_ne hne] at hn

/-- The records are in memory, and every call obeys its rules from its stage on. -/
structure Staged (rules : ι → Procedure.Rules σ) (post : ι → σ → Except ServiceError α → Prop)
    (t : Traffic ι α) (stages : ι → σ) : Prop where
  memory : t.state.InMemory
  obeys : ∀ i, (t.calls i).Obeys (rules i) (post i) (stages i)

variable {rules : ι → Procedure.Rules σ} {post : ι → σ → Except ServiceError α → Prop}
  {stages : ι → σ}

/-- A turn of a call does nothing, or it is a step from its stage to another one. -/
theorem Staged.after_call (h : t.Staged rules post stages) (i : ι) :
    t.after (.call i) = t ∨
      ∃ (β : Type) (c : Step β) (r : Except ServiceError β) (y : σ), rules i (stages i) c r y ∧
        c.Does t.state.books r (t.after (.call i)).state.books ∧
        (t.after (.call i)).answers = t.answers ++ c.asked r ∧
        (t.after (.call i)).Staged rules post (Function.update stages i y) := by
  show t.advance i = t ∨ ∃ (β : Type) (c : Step β) (r : Except ServiceError β) (y : σ),
    rules i (stages i) c r y ∧ c.Does t.state.books r (t.advance i).state.books ∧
    (t.advance i).answers = t.answers ++ c.asked r ∧
    (t.advance i).Staged rules post (Function.update stages i y)
  rcases (t.calls i).over_or_step with hover | ⟨β, c, next, hc⟩
  · exact .inl (advance_of_over hover)
  · have hi := h.obeys i
    rw [hc] at hi
    obtain ⟨hmemory, hdoes⟩ := c.ends_does t.state.books t.state h.memory rfl
    obtain ⟨y, hy, hnext⟩ := hi t.state.books _ _ hdoes
    rw [advance_of_step hc]
    refine .inr ⟨_, c, _, y, hy, hdoes, rfl, hmemory, fun j => ?_⟩
    dsimp only
    by_cases hj : j = i
    · subst hj
      rw [Function.update_self, Function.update_self]
      exact hnext
    · rw [Function.update_of_ne hj, Function.update_of_ne hj]
      exact h.obeys j

theorem Staged.after_other (h : t.Staged rules post stages) (o : Operation) :
    (t.after (.other o)).Staged rules post stages :=
  ⟨(o.orderly t.state.books t.state h.memory rfl).1, h.obeys⟩

/-- Every turn keeps what is said of the stages of the calls, of what they were answered, and of
the books. -/
structure Keeps (rules : ι → Procedure.Rules σ) (Allowed : Operation → Prop)
    (Inv : (ι → σ) → List Answer → Books → Prop) : Prop where
  call : ∀ {stages l b} {i : ι} {β : Type} {c : Step β} {r y b'}, rules i (stages i) c r y →
    c.Does b r b' → Inv stages l b → Inv (Function.update stages i y) (l ++ c.asked r) b'
  other : ∀ {stages l b o}, Allowed o → Inv stages l b →
    Ends o.action b fun _ b' => Inv stages l b'

/-- What every turn keeps is kept by all traffic, and every call has a stage at its
end. -/
theorem Staged.run {Allowed : Operation → Prop} {Inv : (ι → σ) → List Answer → Books → Prop}
    (hkeeps : Keeps rules Allowed Inv) (h : t.Staged rules post stages)
    (hInv : Inv stages t.answers t.state.books) :
    ∀ turns : List (Turn ι), (∀ turn ∈ turns, turn.Within Allowed) →
      ∃ stages', (t.run turns).Staged rules post stages' ∧
        Inv stages' (t.run turns).answers (t.run turns).state.books := by
  intro turns
  induction turns using List.reverseRecOn with
  | nil => exact fun _ => ⟨stages, h, hInv⟩
  | append_singleton turns turn ih =>
    intro hturns
    obtain ⟨stages', hstaged, hInv'⟩ := ih fun x hx => hturns x (List.mem_append_left _ hx)
    rw [run_concat]
    cases turn with
    | call i =>
      rcases hstaged.after_call i with hsame | ⟨β, c, r, y, hrule, hdoes, hanswers, hstaged'⟩
      · rw [hsame]
        exact ⟨stages', hstaged, hInv'⟩
      · refine ⟨_, hstaged', ?_⟩
        rw [hanswers]
        exact hkeeps.call hrule hdoes hInv'
    | other o =>
      have hallowed : Allowed o := hturns (.other o) (List.mem_append_right _ List.mem_cons_self)
      exact ⟨stages', hstaged.after_other o,
        (hkeeps.other hallowed hInv' (t.run turns).state hstaged.memory rfl).2⟩

end

end Traffic
end AccessRegistry
