/-
# Procedures, step by step

Between two steps of a procedure others may take theirs, so that what a procedure does has to
be told step by step. Where the records are in memory, a step is answered from the books and
leaves books of its own (`Step.Does`). A procedure *obeys* rules if each of its steps,
whatever it is answered, leads from the stage at which the procedure is to another one, and
what it ends with fits the stage at its end. This is read off the text of the procedure, part
by part, without a word about others; what comes of it holds if the procedure runs without a
break (`Procedure.Obeys.run`), and among others, too.

Key definitions: `Step.Does`, `Step.asked`, `Procedure.answers`, `Procedure.Obeys`,
`Procedure.result?`, `Procedure.EndsWithin`.
Key theorems: `Step.ends_does`, `Procedure.obeys_bind`, `Procedure.Obeys.run`,
`Procedure.endsWithin_bind`.
-/
import AccessRegistry.Proofs.Authorization.Services

namespace AccessRegistry

/-- What is answered to who asks for an identifier. -/
abbrev Answer := Except ServiceError Identifier

/-- The books with another directory. -/
def Books.withDirectory (b : Books) (directory : Directory) : Books :=
  { b with tables := { b.tables with directory } }

/-- The books with other entries. -/
def Books.withPermissions (b : Books) (permissions : Permissions) : Books :=
  { b with tables := { b.tables with permissions } }

namespace Step

/-- What a step is answered on some books, and the books that it leaves. Who asks for an
identifier may be given any, or none. -/
def Does (b : Books) : {β : Type} → Step β → Except ServiceError β → Books → Prop
  | _, insertReservation r, answer, b' =>
    (∃ reservations, b.tables.reservations.insert? r = some reservations ∧
      answer = .ok (some r.id) ∧ b' = b.withReservations reservations) ∨
    b.tables.reservations.insert? r = none ∧ answer = .ok none ∧ b' = b
  | _, deleteIds ids, answer, b' =>
    answer = .ok (Reservations.deleteIds ids b.tables.reservations).1 ∧
      b' = b.withReservations (Reservations.deleteIds ids b.tables.reservations).2
  | _, freshId, _, b' => b' = b
  | _, lookup p, answer, b' => answer = .ok (b.tables.directory.find? p) ∧ b' = b
  | _, createPrincipal r, answer, b' =>
    answer = .ok (b.tables.directory.add r).1 ∧ b' = b.withDirectory (b.tables.directory.add r).2
  | _, deletePrincipal p, answer, b' =>
    answer = .ok (b.tables.directory.remove p).1 ∧
      b' = b.withDirectory (b.tables.directory.remove p).2
  | _, merge k s kind expiration, answer, b' =>
    answer = .ok () ∧
      b' = b.withPermissions (Permissions.mergeOne s kind expiration b.tables.permissions k)
  | _, record e, answer, b' => answer = .ok () ∧ b' = { b with trail := b.trail ++ [e] }
  | _, log _, answer, b' => answer = .ok () ∧ b' = b
  | _, pause _, answer, b' => answer = .ok () ∧ b' = b

/-- A step does what is told of it. -/
theorem ends_does (b : Books) : ∀ {β : Type} (c : Step β), Ends c.perform b (c.Does b)
  | _, insertReservation r => by
    cases h : b.tables.reservations.insert? r with
    | some reservations =>
      exact (Store.gives_insertReservation_free h).ends (.inl ⟨reservations, h, rfl, rfl⟩)
    | none => exact (Store.gives_insertReservation_taken h).ends (.inr ⟨h, rfl, rfl⟩)
  | _, deleteIds ids => (Store.gives_deleteIds ids).ends ⟨rfl, rfl⟩
  | _, freshId => Desk.idle_next .registry b
  | _, lookup p => (Store.gives_lookup? p).ends ⟨rfl, rfl⟩
  | _, createPrincipal _ => (Action.gives_change _ _).ends ⟨rfl, rfl⟩
  | _, deletePrincipal _ => (Action.gives_change _ _).ends ⟨rfl, rfl⟩
  | _, merge _ _ _ _ => (Action.gives_change _ _).ends ⟨rfl, rfl⟩
  | _, record e => (Action.gives_record e).ends ⟨rfl, rfl⟩
  | _, log r => (Action.gives_say r.level r.part r.message r.fields).ends ⟨rfl, rfl⟩
  | _, pause ms => (Action.gives_wait ms).ends ⟨rfl, rfl⟩

/-- What was answered, if a step asked for an identifier. -/
def asked : {β : Type} → Step β → Except ServiceError β → List Answer
  | _, freshId, answer => [answer]
  | _, _, _ => []

end Step

namespace Procedure

variable {σ α β : Type}

theorem perform_run_step (c : Step β) (next : Except ServiceError β → Procedure α) (s : State) :
    (step c next).run.perform s =
      (next (c.perform.perform s).1).run.perform (c.perform.perform s).2 := by
  show (Action.attempt c.perform >>= fun r => (next r).run).perform s = _
  rw [Action.perform_bind, Action.perform_attempt]

/-- What the steps of a procedure are answered when they ask for identifiers, if it is run
without a break. -/
def answers : Procedure α → State → List Answer
  | done _, _ => []
  | fail _, _ => []
  | step c next, s =>
    c.asked (c.perform.perform s).1 ++
      (next (c.perform.perform s).1).answers (c.perform.perform s).2

/-! ### Rules -/

/-- Rules say from which stage a step, by what it is answered, leads to which. -/
abbrev Rules (σ : Type) := σ → ⦃β : Type⦄ → Step β → Except ServiceError β → σ → Prop

/-- A procedure obeys rules from a stage on. -/
def Obeys (rules : Rules σ) (post : σ → Except ServiceError α → Prop) : Procedure α → σ → Prop
  | done a, x => post x (.ok a)
  | fail e, x => post x (.error e)
  | step c next, x => ∀ b r b', c.Does b r b' → ∃ y, rules x c r y ∧ (next r).Obeys rules post y

section

variable {rules rules' : Rules σ} {post : σ → Except ServiceError β → Prop} {x : σ}

theorem Obeys.mono {p : Procedure β} (h : p.Obeys rules post x)
    (hrules : ∀ {x γ} {c : Step γ} {r y}, rules x c r y → rules' x c r y) :
    p.Obeys rules' post x := by
  induction p generalizing x with
  | done a => exact h
  | fail e => exact h
  | step c next ih =>
    intro b r b' hdoes
    obtain ⟨y, hy, hnext⟩ := h b r b' hdoes
    exact ⟨y, hrules hy, ih r hnext⟩

/-- One procedure after the other obeys the rules if the second one does from where the
first one ends. -/
theorem obeys_bind {p : Procedure α} {f : α → Procedure β}
    {mid : σ → Except ServiceError α → Prop} (h : p.Obeys rules mid x)
    (hf : ∀ a y, mid y (.ok a) → (f a).Obeys rules post y)
    (he : ∀ e y, mid y (.error e) → post y (.error e)) : (p >>= f).Obeys rules post x := by
  induction p generalizing x with
  | done a => exact hf a x h
  | fail e => exact he e x h
  | step c next ih =>
    intro b r b' hdoes
    obtain ⟨y, hy, hnext⟩ := h b r b' hdoes
    exact ⟨y, hy, ih r hnext⟩

/-- What comes after an attempt goes on from where that ends, whether it fails or not. -/
theorem obeys_attempt {p : Procedure α} {f : Except ServiceError α → Procedure β}
    {mid : σ → Except ServiceError α → Prop} (h : p.Obeys rules mid x)
    (hf : ∀ r y, mid y r → (f r).Obeys rules post y) :
    (p.attempt >>= f).Obeys rules post x := by
  induction p generalizing x with
  | done a => exact hf _ x h
  | fail e => exact hf _ x h
  | step c next ih =>
    intro b r b' hdoes
    obtain ⟨y, hy, hnext⟩ := h b r b' hdoes
    exact ⟨y, hy, ih r hnext⟩

theorem obeys_attemptStep {c : Step α} {f : Except ServiceError α → Procedure β}
    (h : ∀ b r b', c.Does b r b' → ∃ y, rules x c r y ∧ (f r).Obeys rules post y) :
    (attemptStep c >>= f).Obeys rules post x := h

theorem obeys_perform {c : Step α} {f : α → Procedure β}
    (hok : ∀ b a b', c.Does b (.ok a) b' → ∃ y, rules x c (.ok a) y ∧ (f a).Obeys rules post y)
    (herror : ∀ b e b', c.Does b (.error e) b' → ∃ y, rules x c (.error e) y ∧ post y (.error e)) :
    (perform c >>= f).Obeys rules post x := by
  intro b r b' hdoes
  cases r with
  | ok a => exact hok b a b' hdoes
  | error e => exact herror b e b' hdoes

/-- Where the rules allow to tell the log something, nothing comes of it. -/
theorem obeys_say_last {post : σ → Except ServiceError Unit → Prop} {level : Log.Level}
    {part : Log.Part} {message : String} {fields : List (String × Log.Value)}
    (hlog : ∀ r, rules x (.log r) (.ok ()) x) (h : post x (.ok ())) :
    (say level part message fields).Obeys rules post x := by
  rintro b _ b' ⟨rfl, -⟩
  exact ⟨x, hlog _, h⟩

theorem obeys_say {f : Unit → Procedure β} {level : Log.Level} {part : Log.Part}
    {message : String} {fields : List (String × Log.Value)}
    (hlog : ∀ r, rules x (.log r) (.ok ()) x) (h : (f ()).Obeys rules post x) :
    (say level part message fields >>= f).Obeys rules post x := by
  rintro b _ b' ⟨rfl, -⟩
  exact ⟨x, hlog _, h⟩

/-- What the rules keep is kept by a procedure that obeys them, if it is run without a
break. -/
theorem Obeys.run {I : σ → List Answer → Books → Prop}
    (hrules : ∀ {x γ} {c : Step γ} {r y l b b'}, rules x c r y → c.Does b r b' → I x l b →
      I y (l ++ c.asked r) b') {p : Procedure β} {l : List Answer} (h : p.Obeys rules post x)
    {s : State} (hs : s.InMemory) (hI : I x l s.books) :
    ∃ y, post y (p.run.perform s).1 ∧ I y (l ++ p.answers s) (p.run.perform s).2.books := by
  induction p generalizing x l s with
  | done a => exact ⟨x, h, by rwa [answers, List.append_nil]⟩
  | fail e => exact ⟨x, h, by rwa [answers, List.append_nil]⟩
  | step c next ih =>
    obtain ⟨hs', hdoes⟩ := c.ends_does s.books s hs rfl
    obtain ⟨y, hy, hnext⟩ := h s.books _ _ hdoes
    rw [perform_run_step, answers, ← List.append_assoc]
    exact ih _ hnext hs' (hrules hy hdoes hI)

end

/-! ### How many steps there are -/

/-- What a procedure has come to, if it is at its end. -/
def result? : Procedure α → Option (Except ServiceError α)
  | done a => some (.ok a)
  | fail e => some (.error e)
  | step _ _ => none

/-- A procedure is at its end. -/
def Over (p : Procedure α) : Prop := p.result?.isSome

theorem over_of_result {p : Procedure α} {r : Except ServiceError α} (h : p.result? = some r) :
    p.Over := Option.isSome_of_eq_some h

theorem over_or_step (p : Procedure α) :
    p.Over ∨ ∃ (β : Type) (c : Step β) (next : Except ServiceError β → Procedure α),
      p = step c next := by
  cases p with
  | done a => exact .inl rfl
  | fail e => exact .inl rfl
  | step c next => exact .inr ⟨_, c, next, rfl⟩

/-- What a procedure has come to fits the stage at its end. -/
theorem Obeys.of_result {rules : Rules σ} {post : σ → Except ServiceError α → Prop} {x : σ}
    {p : Procedure α} {r : Except ServiceError α} (h : p.Obeys rules post x)
    (hr : p.result? = some r) : post x r := by
  cases p with
  | done a => exact Option.some.inj hr ▸ h
  | fail e => exact Option.some.inj hr ▸ h
  | step c next => cases hr

/-- However its steps are answered, a procedure ends after so many of them at the latest. -/
def EndsWithin : Procedure α → Nat → Prop
  | step _ next, n => ∃ m, n = m + 1 ∧ ∀ r, (next r).EndsWithin m
  | _, _ => True

theorem Over.endsWithin {p : Procedure α} (h : p.Over) (n : Nat) : p.EndsWithin n := by
  cases p with
  | done a => trivial
  | fail e => trivial
  | step c next => cases h

theorem EndsWithin.mono {p : Procedure α} {m n : Nat} (h : p.EndsWithin m) (hmn : m ≤ n) :
    p.EndsWithin n := by
  induction p generalizing m n with
  | done a => trivial
  | fail e => trivial
  | step c next ih =>
    obtain ⟨k, rfl, hk⟩ := h
    exact ⟨n - 1, by omega, fun r => ih r (hk r) (by omega)⟩

theorem endsWithin_bind {p : Procedure α} {f : α → Procedure β} {m n : Nat}
    (h : p.EndsWithin m) (hf : ∀ a, (f a).EndsWithin n) : (p >>= f).EndsWithin (m + n) := by
  induction p generalizing m with
  | done a => exact (hf a).mono (Nat.le_add_left n m)
  | fail e => trivial
  | step c next ih =>
    obtain ⟨k, rfl, hk⟩ := h
    exact ⟨k + n, by omega, fun r => ih r (hk r)⟩

theorem endsWithin_attempt {p : Procedure α} {f : Except ServiceError α → Procedure β}
    {m n : Nat} (h : p.EndsWithin m) (hf : ∀ r, (f r).EndsWithin n) :
    (p.attempt >>= f).EndsWithin (m + n) := by
  induction p generalizing m with
  | done a => exact (hf (.ok a)).mono (Nat.le_add_left n m)
  | fail e => exact (hf (.error e)).mono (Nat.le_add_left n m)
  | step c next ih =>
    obtain ⟨k, rfl, hk⟩ := h
    exact ⟨k + n, by omega, fun r => ih r (hk r)⟩

theorem endsWithin_attemptStep {c : Step α} {f : Except ServiceError α → Procedure β} {n : Nat}
    (hf : ∀ r, (f r).EndsWithin n) : (attemptStep c >>= f).EndsWithin (n + 1) := ⟨n, rfl, hf⟩

theorem endsWithin_perform {c : Step α} {f : α → Procedure β} {n : Nat}
    (hf : ∀ a, (f a).EndsWithin n) : (perform c >>= f).EndsWithin (n + 1) := by
  refine ⟨n, rfl, fun r => ?_⟩
  cases r with
  | ok a => exact hf a
  | error e => trivial

theorem endsWithin_say {f : Unit → Procedure β} {n : Nat} {level : Log.Level} {part : Log.Part}
    {message : String} {fields : List (String × Log.Value)} (hf : ∀ a, (f a).EndsWithin n) :
    (say level part message fields >>= f).EndsWithin (n + 1) := endsWithin_perform hf

theorem endsWithin_say_last {level : Log.Level} {part : Log.Part} {message : String}
    {fields : List (String × Log.Value)} : (say level part message fields).EndsWithin 1 := by
  refine ⟨0, rfl, fun r => ?_⟩
  cases r with
  | ok a => trivial
  | error e => trivial

theorem EndsWithin.over {p : Procedure α} (h : p.EndsWithin 0) : p.Over := by
  cases p with
  | done a => rfl
  | fail e => rfl
  | step c next =>
    obtain ⟨m, hm, -⟩ := h
    cases hm

end Procedure
end AccessRegistry
