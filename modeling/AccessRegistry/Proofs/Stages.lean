/-
# Stages of registrations and creations

How far a registration or the creation of a principal has come is its stage. Each step leads
from one stage to another, and by the stage at its end it is known what comes of it: a name
that was reserved is the object's, and a principal that was created is there with its
reservation, its registration and its owner's permissions. Who fails has reserved nothing, or
has given it back.

Key definitions: `Stage`, `Stage.IsGiven`, `Naming.Registering`, `Naming.EndsAs`,
`Authorization.Creating`, `Authorization.Settles`.
Key theorems: `Naming.obeys_register`, `Naming.Registering.spectator`,
`Naming.endsWithin_register`, `Authorization.obeys_createPrincipal`,
`Authorization.Creating.isGiven`, `Authorization.endsWithin_createPrincipal`.
-/
import AccessRegistry.Proofs.Procedures

namespace AccessRegistry

/-- How far a registration or a creation has come. -/
inductive Stage where
  /-- It has no identifier yet. -/
  | waiting
  /-- It is going to try an identifier. -/
  | trying (id : Identifier)
  /-- The identifier that it tried, or the name that goes with it, is bound to another. -/
  | taken (id : Identifier)
  /-- It failed. -/
  | failed (e : ServiceError)
  /-- The name is reserved for the identifier. -/
  | reserved (id : Identifier)
  /-- The principal is registered, too. -/
  | registered (id : Identifier)
  /-- The owner has every permission on the principal, too. -/
  | granted (id : Identifier)
  /-- All that is recorded. -/
  | created (id : Identifier)
  /-- The name is reserved for a principal that cannot be registered. -/
  | refused (id : Identifier)

namespace Stage

/-- The identifier that it has. -/
def id? : Stage → Option Identifier
  | waiting | failed _ => none
  | trying id | taken id | reserved id | registered id | granted id | created id
  | refused id => some id

/-- The identifier that it has is one of those that were given. -/
def IsGiven (x : Stage) (answers : List Answer) : Prop :=
  ∀ id, x.id? = some id → .ok id ∈ answers

/-- Whether a name is reserved for it. -/
def Holds : Stage → Prop
  | waiting | trying _ | taken _ | failed _ => False
  | _ => True

end Stage

open Procedure

/-! ### Registrations -/

namespace Naming

/-- The steps of a registration. -/
inductive Registering (o : NewObject) :
    Stage → ⦃β : Type⦄ → Step β → Except ServiceError β → Stage → Prop where
  | log (x : Stage) (r : Log.Record) : Registering o x (.log r) (.ok ()) x
  | pause (x : Stage) (ms : Nat) : Registering o x (.pause ms) (.ok ()) x
  | reserve (id : Identifier) :
    Registering o (.trying id) (.insertReservation (o.reservation id))
      (.ok (some (o.reservation id).id)) (.reserved id)
  | conflict (id : Identifier) :
    Registering o (.trying id) (.insertReservation (o.reservation id)) (.ok none) (.taken id)
  | given (old id : Identifier) : Registering o (.taken old) .freshId (.ok id) (.trying id)
  | notGiven (old : Identifier) (e : ServiceError) :
    Registering o (.taken old) .freshId (.error e) (.failed e)

/-- What comes of a registration by the stage at its end. Exactly those that have no attempts
end without having tried. -/
def EndsAs (retry : Retry.Policy) (o : NewObject) :
    Stage → Except ServiceError Identifier → Prop
  | .reserved id, result => 0 < retry.maxAttempts ∧ result = .ok id
  | .failed e, result => result = .error e
  | .taken id, result => result = .error (exhausted (o.nameOf id) retry.maxAttempts)
  | .trying id, result =>
    retry.maxAttempts = 0 ∧ result = .error (exhausted (o.nameOf id) retry.maxAttempts)
  | _, _ => False

theorem EndsAs.reserved {retry : Retry.Policy} {o : NewObject} {x : Stage} {id : Identifier}
    (h : EndsAs retry o x (.ok id)) : x = .reserved id := by
  cases x with
  | reserved id' => rw [Except.ok.inj h.2]
  | trying => cases h.2
  | taken => cases h
  | failed => cases h
  | _ => exact h.elim

/-- What the outcome of a registration is by the stage at its end. -/
def Concludes (retry : Retry.Policy) (o : NewObject) (x : Stage) :
    Except ServiceError Outcome → Prop
  | .ok out => EndsAs retry o x out.result
  | .error _ => False

theorem obeys_registerFrom (retry : Retry.Policy) (o : NewObject) :
    ∀ (left attempt : Nat) (id : Identifier), (left = 0 ↔ retry.maxAttempts = 0) →
      (registerFrom retry o attempt id left).Obeys (Registering o) (Concludes retry o) (.trying id)
  | 0, _, _, hleft => ⟨hleft.mp rfl, rfl⟩
  | left + 1, attempt, id, hleft => by
    have hsome : retry.maxAttempts ≠ 0 := fun h => Nat.succ_ne_zero left (hleft.mpr h)
    unfold registerFrom
    refine obeys_attemptStep fun b r b' hdoes => ?_
    rcases hdoes with ⟨reservations, -, rfl, -⟩ | ⟨-, rfl, -⟩
    · refine ⟨.reserved id, .reserve id, obeys_say (fun _ => .log _ _) ?_⟩
      exact ⟨Nat.pos_of_ne_zero hsome, congrArg Except.ok (o.reservation_id id)⟩
    · refine ⟨.taken id, .conflict id, obeys_say (fun _ => .log _ _) ?_⟩
      split
      · exact rfl
      · rename_i hmore
        refine obeys_attemptStep fun b r b' _ => ?_
        cases r with
        | error e => exact ⟨.failed e, .notGiven id e, rfl⟩
        | ok next =>
          refine ⟨.trying next, .given id next, ?_⟩
          have hrest :=
            obeys_registerFrom retry o left (attempt + 1) next (iff_of_false hmore hsome)
          dsimp only
          split
          · refine obeys_perform (fun _ _ _ _ => ⟨_, .pause _ _, hrest⟩) ?_
            rintro _ e _ ⟨he, -⟩
            cases he
          · exact hrest

/-- A registration goes from stage to stage, and its end goes by its last one. -/
theorem obeys_register (retry : Retry.Policy) (o : NewObject) (id : Identifier) :
    (register retry o id).Obeys (Registering o) (Concludes retry o) (.trying id) :=
  obeys_registerFrom retry o _ 0 id Iff.rfl

section

variable {o : NewObject} {x y : Stage} {β : Type} {c : Step β} {r : Except ServiceError β}
  {b b' : Books}

/-- Who has reserved nothing changes nothing while the names that go with its identifiers are
bound. -/
theorem Registering.spectator (hrule : Registering o x c r y) (hdoes : c.Does b r b')
    (hx : ¬ x.Holds) (hbound : ∀ id, b.tables.reservations.idOf? (o.nameOf id) ≠ none) :
    ¬ y.Holds ∧ b' = b := by
  cases hrule with
  | log => exact ⟨hx, hdoes.2⟩
  | pause => exact ⟨hx, hdoes.2⟩
  | reserve id =>
    rcases hdoes with ⟨reservations, hins, -, -⟩ | ⟨-, hr, -⟩
    · exact absurd (Reservations.insert?_eq_some hins).1.1 (hbound id)
    · cases hr
  | conflict id =>
    rcases hdoes with ⟨reservations, -, hr, -⟩ | ⟨-, -, hb⟩
    · cases hr
    · exact ⟨not_false, hb⟩
  | given => exact ⟨not_false, hdoes⟩
  | notGiven => exact ⟨not_false, hdoes⟩

theorem Registering.rests (hrule : Registering o x c r y) (hdoes : c.Does b r b') (hx : x.Holds) :
    y = x ∧ b' = b := by
  cases hrule with
  | log => exact ⟨rfl, hdoes.2⟩
  | pause => exact ⟨rfl, hdoes.2⟩
  | _ => exact hx.elim

/-- Whoever has an identifier after a step had it before or asked for it in the step. -/
theorem Registering.asked (hrule : Registering o x c r y) {id : Identifier}
    (hy : y.id? = some id) : x.id? = some id ∨ .ok id ∈ c.asked r := by
  cases hrule with
  | given old next =>
    obtain rfl := Option.some.inj hy
    exact .inr List.mem_cons_self
  | notGiven => cases hy
  | _ => exact .inl hy

end

/-- An attempt has four steps at most: it tries, tells the log, asks for an identifier and
waits. -/
theorem endsWithin_registerFrom (retry : Retry.Policy) (o : NewObject) :
    ∀ (left attempt : Nat) (id : Identifier),
      (registerFrom retry o attempt id left).EndsWithin (4 * left)
  | 0, _, _ => trivial
  | left + 1, attempt, id => by
    unfold registerFrom
    refine endsWithin_attemptStep (n := 4 * left + 3) fun r => ?_
    rcases r with e | _ | bound
    · trivial
    · refine endsWithin_say (n := 4 * left + 2) fun _ => ?_
      split
      · trivial
      · refine endsWithin_attemptStep (n := 4 * left + 1) fun r => ?_
        cases r with
        | error e => trivial
        | ok next =>
          have hrest := endsWithin_registerFrom retry o left (attempt + 1) next
          dsimp only
          split
          · exact endsWithin_perform fun _ => hrest
          · exact hrest.mono (by omega)
    · exact endsWithin_say (n := 4 * left + 2) fun _ => trivial

/-- A registration ends after four steps for each attempt, at the latest. -/
theorem endsWithin_register (retry : Retry.Policy) (o : NewObject) (id : Identifier) :
    (register retry o id).EndsWithin (4 * retry.maxAttempts) :=
  endsWithin_registerFrom retry o _ 0 id

end Naming

/-! ### Creations -/

namespace Authorization

/-- The steps of the creation of a principal. -/
inductive Creating (owner : Principal) (n : NewPrincipal) :
    Stage → ⦃β : Type⦄ → Step β → Except ServiceError β → Stage → Prop where
  | absent : Creating owner n .waiting (.lookup n.principal) (.ok none) .waiting
  | present (r : Registration) : Creating owner n .waiting (.lookup n.principal) (.ok (some r))
      (.failed (alreadyExists n.principal))
  | given (id : Identifier) : Creating owner n .waiting .freshId (.ok id) (.trying id)
  | notGiven (e : ServiceError) : Creating owner n .waiting .freshId (.error e) (.failed e)
  | registering {x : Stage} {β : Type} {c : Step β} {r : Except ServiceError β} {y : Stage}
      (h : Naming.Registering n.object x c r y) : Creating owner n x c r y
  | register (id : Identifier) :
    Creating owner n (.reserved id) (.createPrincipal (n.registration id)) (.ok true)
      (.registered id)
  | refuse (id : Identifier) :
    Creating owner n (.reserved id) (.createPrincipal (n.registration id)) (.ok false)
      (.refused id)
  | grant (id : Identifier) :
    Creating owner n (.registered id)
      (.merge ⟨(n.registration id).aclKey, owner⟩ .full (.ofPrincipal n.principal.kind)
        .neverExpires) (.ok ()) (.granted id)
  | record (id : Identifier) :
    Creating owner n (.granted id) (.record (creation owner (n.registration id))) (.ok ())
      (.created id)
  | release (id : Identifier) (count : Nat) :
    Creating owner n (.refused id) (.deleteIds [id]) (.ok count)
      (.failed (alreadyExists n.principal))

/-- What comes of a creation by the stage at its end. -/
def Settles (retry : Retry.Policy) (n : NewPrincipal) (x : Stage) :
    Except ServiceError Registration → Prop
  | .ok r => ∃ id, 0 < retry.maxAttempts ∧ x = .created id ∧ r = n.registration id
  | .error _ => ¬ x.Holds

/-- What comes of the registration of a principal for whom the name is reserved. -/
def Enters (id : Identifier) (x : Stage) : Except ServiceError Bool → Prop
  | .ok true => x = .created id
  | .ok false => x = .refused id
  | .error _ => False

variable {owner : Principal} {n : NewPrincipal}

theorem obeys_createIfAbsent (owner : Principal) (n : NewPrincipal) (id : Identifier) :
    (createIfAbsent owner (n.registration id)).Obeys (Creating owner n) (Enters id)
      (.reserved id) := by
  unfold createIfAbsent
  refine obeys_perform (fun b isNew b' _ => ?_) ?_
  · cases isNew with
    | false => exact ⟨.refused id, .refuse id, rfl⟩
    | true =>
      refine ⟨.registered id, .register id, ?_⟩
      refine obeys_perform (fun _ _ _ _ => ⟨.granted id, .grant id, ?_⟩) ?_
      · refine obeys_perform (fun _ _ _ _ => ⟨.created id, .record id, ?_⟩) ?_
        · exact obeys_say (fun _ => .registering (.log _ _)) rfl
        · rintro _ e _ ⟨he, -⟩
          cases he
      · rintro _ e _ ⟨he, -⟩
        cases he
  · rintro _ e _ ⟨he, -⟩
    cases he

theorem obeys_releaseIds (id : Identifier) {post : Stage → Except ServiceError Unit → Prop}
    (h : post (.failed (alreadyExists n.principal)) (.ok ())) :
    (Naming.releaseIds [id]).Obeys (Creating owner n) post (.refused id) := by
  unfold Naming.releaseIds
  refine obeys_perform (fun _ count _ _ => ⟨_, .release id count, ?_⟩) ?_
  · split
    · exact obeys_say_last (fun _ => Creating.registering (.log _ _)) h
    · exact h
  · rintro _ e _ ⟨he, -⟩
    cases he

/-- A creation goes from stage to stage, and its end goes by its last one. -/
theorem obeys_createPrincipal (retry : Retry.Policy) (owner : Principal) (n : NewPrincipal) :
    (createPrincipal retry owner n).Obeys (Creating owner n) (Settles retry n) .waiting := by
  unfold createPrincipal
  refine obeys_perform (fun _ found _ _ => ?_) ?_
  · cases found with
    | some r => exact ⟨_, .present r, not_false⟩
    | none =>
      refine ⟨.waiting, .absent, ?_⟩
      refine obeys_perform (fun _ first _ _ => ⟨.trying first, .given first, ?_⟩)
        fun _ e _ _ => ⟨.failed e, .notGiven e, not_false⟩
      have hreg : (Naming.register retry n.object first).Obeys (Creating owner n)
          (Naming.Concludes retry n.object) (.trying first) :=
        (Naming.obeys_register retry n.object first).mono Creating.registering
      refine obeys_bind hreg (fun out x hx => ?_) fun e x hx => hx.elim
      obtain ⟨a, result⟩ := out
      cases x with
      | reserved id =>
        obtain ⟨htries, rfl⟩ : 0 < retry.maxAttempts ∧ result = .ok id := hx
        refine obeys_attempt (obeys_createIfAbsent owner n id) fun r x hx => ?_
        match r with
        | .ok true => exact ⟨id, htries, hx, rfl⟩
        | .ok false =>
          obtain rfl : x = .refused id := hx
          have hback : (Naming.releaseIds [id]).Obeys (Creating owner n) (fun x _ => ¬ x.Holds)
              (.refused id) := obeys_releaseIds id not_false
          exact obeys_bind hback (fun _ _ hx => hx) fun _ _ hx => hx
        | .error e => exact hx.elim
      | failed e =>
        obtain rfl : result = .error e := hx
        exact not_false
      | taken id =>
        obtain rfl : result = _ := hx
        exact not_false
      | trying id =>
        obtain rfl : result = _ := hx.2
        exact not_false
      | _ => exact hx.elim
  · rintro _ e _ ⟨he, -⟩
    cases he

theorem Creating.asked {x y : Stage} {β : Type} {c : Step β} {r : Except ServiceError β}
    (hrule : Creating owner n x c r y) {id : Identifier} (hy : y.id? = some id) :
    x.id? = some id ∨ .ok id ∈ c.asked r := by
  cases hrule with
  | given next =>
    obtain rfl := Option.some.inj hy
    exact .inr List.mem_cons_self
  | registering h => exact h.asked hy
  | present => cases hy
  | notGiven => cases hy
  | release => cases hy
  | _ => exact .inl hy

/-- A creation has no identifier but those that it is given. -/
theorem Creating.isGiven {x y : Stage} {β : Type} {c : Step β} {r : Except ServiceError β}
    {answers : List Answer} (hrule : Creating owner n x c r y) (hx : x.IsGiven answers) :
    y.IsGiven (answers ++ c.asked r) := by
  intro id hy
  rcases hrule.asked hy with hold | hnow
  · exact List.mem_append_left _ (hx id hold)
  · exact List.mem_append_right _ hnow

theorem endsWithin_createIfAbsent (owner : Principal) (r : Registration) :
    (createIfAbsent owner r).EndsWithin 4 := by
  unfold createIfAbsent
  refine endsWithin_perform (n := 3) fun isNew => ?_
  cases isNew with
  | false => trivial
  | true =>
    refine endsWithin_perform (n := 2) fun _ => ?_
    refine endsWithin_perform (n := 1) fun _ => ?_
    exact endsWithin_say (n := 0) fun _ => trivial

theorem endsWithin_releaseIds (ids : List Identifier) :
    (Naming.releaseIds ids).EndsWithin 2 := by
  unfold Naming.releaseIds
  refine endsWithin_perform (n := 1) fun count => ?_
  split
  · exact endsWithin_say_last
  · trivial

theorem endsWithin_discard (r : Registration) (id : Identifier) :
    (discard r id).EndsWithin 6 := by
  unfold discard
  refine endsWithin_attemptStep (n := 5) fun found => ?_
  -- on every path the release of the name comes last, and what is told of it if it fails
  have hback : ∀ {next : Except ServiceError Unit → Procedure Unit} {k : Nat}, 3 ≤ k →
      (next (.ok ())).EndsWithin 0 → (∀ e, (next (.error e)).EndsWithin 1) →
        ((Naming.releaseIds [id]).attempt >>= next).EndsWithin k := by
    intro next k hk hok herror
    refine (endsWithin_attempt (n := 1) (endsWithin_releaseIds [id]) fun released => ?_).mono hk
    cases released with
    | ok => exact hok.mono (Nat.zero_le 1)
    | error e => exact herror e
  split
  · split
    · refine endsWithin_attemptStep (n := 4) fun removed => ?_
      cases removed with
      | ok => exact hback (by omega) trivial fun _ => endsWithin_say_last
      | error e =>
        exact endsWithin_say fun _ => hback (by omega) trivial fun _ => endsWithin_say_last
    · exact hback (by omega) trivial fun _ => endsWithin_say_last
  · exact hback (by omega) trivial fun _ => endsWithin_say_last
  · exact endsWithin_say (n := 4) fun _ => hback (by omega) trivial fun _ => endsWithin_say_last

/-- A creation ends after four steps for each attempt to register its name, and a dozen
more at the latest. -/
theorem endsWithin_createPrincipal (retry : Retry.Policy) (owner : Principal) (n : NewPrincipal) :
    (createPrincipal retry owner n).EndsWithin (4 * retry.maxAttempts + 12) := by
  unfold createPrincipal
  refine endsWithin_perform (n := 4 * retry.maxAttempts + 11) fun found => ?_
  split
  · trivial
  · refine endsWithin_perform (n := 4 * retry.maxAttempts + 10) fun first => ?_
    refine endsWithin_bind (Naming.endsWithin_register retry n.object first) fun out => ?_
    split
    · trivial
    · rename_i id _
      refine endsWithin_attempt (n := 6) (endsWithin_createIfAbsent owner _) fun made => ?_
      match made with
      | .ok true => trivial
      | .ok false =>
        have hfail : ∀ _ : Unit,
            (.fail (alreadyExists n.principal) : Procedure Registration).EndsWithin 0 :=
          fun _ => trivial
        exact (endsWithin_bind (endsWithin_releaseIds [id]) hfail).mono (by omega)
      | .error e =>
        have hfail : ∀ _ : Unit, (.fail e : Procedure Registration).EndsWithin 0 := fun _ => trivial
        exact endsWithin_bind (endsWithin_discard _ id) hfail

end Authorization
end AccessRegistry
