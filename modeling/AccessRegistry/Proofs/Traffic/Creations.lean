/-
# Who creates a principal

Any number of calls may want to create the same principal at the same time. Whatever the
order of their steps, at most one of them holds its name at a time, and what it has done
until then is all that was done: the others find the name taken and change nothing, and who
cannot register the principal gives the name back. So at most one of them creates it, and
when all have come to their ends nothing else is left of them.

Key definitions: `Authorization.Standing`, `Authorization.OneStands`.
Key theorems: `Authorization.Standing.step`, `Authorization.spectator`,
`Authorization.keeps_oneStands`, `Authorization.perform_createPrincipal_alone`,
`Authorization.created_of_result`, `Authorization.one_creation_wins`.
-/
import AccessRegistry.Proofs.Bindings
import AccessRegistry.Proofs.Stages
import AccessRegistry.Proofs.Supply.HandingOut
import AccessRegistry.Proofs.Traffic

namespace AccessRegistry

open AccessRegistry.Action

variable {b b' b'' : Books}

namespace Authorization

variable {owner : Principal} {n : NewPrincipal} {x y : Stage}

/-- What the books are when one creation that began with some books is at a stage, and nobody
else did anything. -/
def Standing (owner : Principal) (n : NewPrincipal) (b : Books) : Stage → Books → Prop
  | .reserved id, b' => Naming.Registered n.object b b' (.ok id)
  | .refused id, b' => Naming.Registered n.object b b' (.ok id)
  | .registered id, b' => ∃ b₁, Naming.Registered n.object b b₁ (.ok id) ∧
      (b.tables.directory.add (n.registration id)).1 = true ∧
      b' = b₁.withDirectory (b.tables.directory.add (n.registration id)).2
  | .granted id, b' => ∃ b₁, Naming.Registered n.object b b₁ (.ok id) ∧
      (b.tables.directory.add (n.registration id)).1 = true ∧
      b' = ⟨b₁.tables.created owner (n.registration id), b.trail⟩
  | .created id, b' => Created owner n b b' (n.registration id)
  | _, b' => b' = b

theorem standing_of_not_holds (h : ¬ x.Holds) : Standing owner n b x b' ↔ b' = b := by
  cases x <;> first | exact Iff.rfl | exact absurd trivial h

/-- A step of a creation leads to the books of its next stage. -/
theorem Standing.step {β : Type} {c : Step β} {r : Except ServiceError β}
    (h : Standing owner n b x b') (hrule : Creating owner n x c r y) (hdoes : c.Does b' r b'') :
    Standing owner n b y b'' := by
  cases hrule with
  | absent => exact hdoes.2.trans h
  | present => exact hdoes.2.trans h
  | given => exact hdoes.trans h
  | notGiven => exact hdoes.trans h
  | registering hreg =>
    cases hreg with
    | log => exact hdoes.2 ▸ h
    | pause => exact hdoes.2 ▸ h
    | reserve id =>
      obtain rfl : b' = b := h
      rcases hdoes with ⟨reservations, hins, -, rfl⟩ | ⟨-, hr, -⟩
      · exact ⟨reservations, hins, rfl⟩
      · cases hr
    | conflict id =>
      obtain rfl : b' = b := h
      rcases hdoes with ⟨reservations, -, hr, -⟩ | ⟨-, -, rfl⟩
      · cases hr
      · rfl
    | given => exact hdoes.trans h
    | notGiven => exact hdoes.trans h
  | register id =>
    obtain ⟨reservations, hins, rfl⟩ := h
    obtain ⟨hnew, rfl⟩ := hdoes
    exact ⟨_, ⟨reservations, hins, rfl⟩, (Except.ok.inj hnew).symm, rfl⟩
  | refuse id =>
    obtain ⟨reservations, hins, rfl⟩ := h
    obtain ⟨hold, rfl⟩ := hdoes
    refine ⟨reservations, hins, ?_⟩
    rw [Directory.add_of_fst_eq_false (Except.ok.inj hold).symm]
    rfl
  | grant id =>
    obtain ⟨_, ⟨reservations, hins, rfl⟩, hnew, rfl⟩ := h
    obtain ⟨-, rfl⟩ := hdoes
    exact ⟨_, ⟨reservations, hins, rfl⟩, hnew, rfl⟩
  | record id =>
    obtain ⟨_, ⟨reservations, hins, rfl⟩, hnew, rfl⟩ := h
    obtain ⟨-, rfl⟩ := hdoes
    exact ⟨id, reservations, rfl, hins, hnew, rfl⟩
  | release id count =>
    obtain ⟨reservations, hins, rfl⟩ := h
    obtain ⟨-, rfl⟩ := hdoes
    have hback := Reservations.deleteIds_insert hins
    rw [n.object.reservation_id] at hback
    show b.withReservations (Reservations.deleteIds [id] reservations).2 = b
    rw [hback]
    rfl

/-- Who holds a name has bound it. -/
theorem Standing.bound (h : Standing owner n b x b') (hx : x.Holds) :
    b'.tables.reservations.idOf? n.principal.toText ≠ none := by
  have hins : ∀ {id b₁}, Naming.Registered n.object b b₁ (.ok id) →
      b₁.tables.reservations.idOf? n.principal.toText ≠ none := by
    rintro id _ ⟨reservations, hins, rfl⟩
    have hname : (n.object.reservation id).name = n.principal.toText := rfl
    show reservations.idOf? _ ≠ none
    rw [Reservations.idOf?_insert hins, if_pos hname]
    exact Option.some_ne_none _
  cases x with
  | reserved id => exact hins h
  | refused id => exact hins h
  | registered id =>
    obtain ⟨b₁, hreg, -, rfl⟩ := h
    have hname := hins hreg
    exact hname
  | granted id =>
    obtain ⟨b₁, hreg, -, rfl⟩ := h
    have hname := hins hreg
    exact hname
  | created id =>
    obtain ⟨id', reservations, -, hreg, -, rfl⟩ := h
    have hreg' : Naming.Registered n.object b (b.withReservations reservations) (.ok id') :=
      ⟨reservations, hreg, rfl⟩
    have hname := hins hreg'
    exact hname
  | _ => exact absurd hx not_false

theorem Standing.withCursors (h : Standing owner n b x b') (cursors : Cursors) :
    Standing owner n (b.withCursors cursors) x (b'.withCursors cursors) := by
  cases x with
  | reserved id =>
    obtain ⟨reservations, hins, rfl⟩ := h
    exact ⟨reservations, hins, rfl⟩
  | refused id =>
    obtain ⟨reservations, hins, rfl⟩ := h
    exact ⟨reservations, hins, rfl⟩
  | registered id =>
    obtain ⟨_, ⟨reservations, hins, rfl⟩, hnew, rfl⟩ := h
    exact ⟨_, ⟨reservations, hins, rfl⟩, hnew, rfl⟩
  | granted id =>
    obtain ⟨_, ⟨reservations, hins, rfl⟩, hnew, rfl⟩ := h
    exact ⟨_, ⟨reservations, hins, rfl⟩, hnew, rfl⟩
  | created id =>
    obtain ⟨id', reservations, hr, hins, hnew, rfl⟩ := h
    exact ⟨id', reservations, hr, hins, hnew, rfl⟩
  | _ => exact congrArg (Books.withCursors · cursors) h

/-! ### One among others -/

/-- Who holds nothing changes nothing while the name is bound. -/
theorem spectator {β : Type} {c : Step β} {r : Except ServiceError β} (hx : ¬ x.Holds)
    (hrule : Creating owner n x c r y) (hdoes : c.Does b r b')
    (hbound : b.tables.reservations.idOf? n.principal.toText ≠ none) : ¬ y.Holds ∧ b' = b := by
  cases hrule with
  | absent => exact ⟨hx, hdoes.2⟩
  | present => exact ⟨not_false, hdoes.2⟩
  | given => exact ⟨not_false, hdoes⟩
  | notGiven => exact ⟨not_false, hdoes⟩
  | registering hreg => exact hreg.spectator hdoes hx fun _ => hbound
  | _ => exact absurd trivial hx

variable {ι : Type} {owners : ι → Principal} {ns : ι → NewPrincipal}

/-- At most one of some creations holds a name, and the books are as if it were alone, but for
the cursors. -/
def OneStands (owners : ι → Principal) (ns : ι → NewPrincipal) (b : Books) (stages : ι → Stage)
    (b' : Books) : Prop :=
  ∃ cursors, ((∀ i, ¬ (stages i).Holds) ∧ b' = b.withCursors cursors) ∨
    ∃ w, Standing (owners w) (ns w) (b.withCursors cursors) (stages w) b' ∧
      ∀ i, i ≠ w → ¬ (stages i).Holds

/-- If nobody holds the name, anybody may be taken for the one that does. -/
theorem OneStands.nominate {stages : ι → Stage} (h : OneStands owners ns b stages b') (i : ι) :
    ∃ cursors w, Standing (owners w) (ns w) (b.withCursors cursors) (stages w) b' ∧
      ∀ j, j ≠ w → ¬ (stages j).Holds := by
  obtain ⟨cursors, ⟨hnone, hb⟩ | ⟨w, hstands, hothers⟩⟩ := h
  · exact ⟨cursors, i, (standing_of_not_holds (hnone i)).mpr hb, fun j _ => hnone j⟩
  · exact ⟨cursors, w, hstands, hothers⟩

/-- At most one of the creations of a principal holds its name, whoever's turn it is. -/
theorem keeps_oneStands [DecidableEq ι] {p : Principal} (hp : ∀ i, (ns i).principal = p)
    (b : Books) :
    Traffic.Keeps (fun i => Creating (owners i) (ns i)) Operation.Aside
      fun stages _ b' => OneStands owners ns b stages b' where
  call := by
    intro stages _ b₁ i β c r y b₂ hrule hdoes hone
    obtain ⟨cursors, w, hstands, hothers⟩ := hone.nominate i
    by_cases hi : i = w
    · subst hi
      refine ⟨cursors, .inr ⟨i, ?_, fun j hj => ?_⟩⟩
      · rw [Function.update_self]
        exact hstands.step hrule hdoes
      · rw [Function.update_of_ne hj]
        exact hothers j hj
    · by_cases hw : (stages w).Holds
      · -- the name is held, and bound
        have hbound := hstands.bound hw
        rw [hp w, ← hp i] at hbound
        obtain ⟨hy, rfl⟩ := spectator (hothers i hi) hrule hdoes hbound
        refine ⟨cursors, .inr ⟨w, ?_, fun j hj => ?_⟩⟩
        · rw [Function.update_of_ne (Ne.symm hi)]
          exact hstands
        · by_cases hj' : j = i
          · rw [hj', Function.update_self]
            exact hy
          · rw [Function.update_of_ne hj']
            exact hothers j hj
      · -- nobody holds the name, and the call whose turn it is may become the one that does
        have hb := (standing_of_not_holds hw).mp hstands
        have hbefore : Standing (owners i) (ns i) (b.withCursors cursors) (stages i) b₁ :=
          (standing_of_not_holds (hothers i hi)).mpr hb
        refine ⟨cursors, .inr ⟨i, ?_, fun j hj => ?_⟩⟩
        · rw [Function.update_self]
          exact hbefore.step hrule hdoes
        · rw [Function.update_of_ne hj]
          by_cases hj' : j = w
          · exact hj' ▸ hw
          · exact hothers j hj'
  other := by
    rintro stages _ b₁ o ho ⟨cursors, hone⟩
    refine (ho.ends b₁).mono fun _ b₂ ⟨cursors', hb⟩ => ?_
    subst hb
    refine ⟨cursors', ?_⟩
    rcases hone with ⟨hnone, rfl⟩ | ⟨w, hstands, hothers⟩
    · exact .inl ⟨hnone, rfl⟩
    · exact .inr ⟨w, hstands.withCursors cursors', hothers⟩

theorem perform_next_buffered {s : State} (hs : s.InMemory) {id : Identifier}
    {ids : List Identifier} (h : s.registry.buffer = id :: ids) :
    ∃ s' : State, Step.freshId.perform.perform s = (.ok id, s') ∧ s'.InMemory ∧
      s'.books = s.books :=
  ⟨_, Desk.perform_next_buffered (d := .registry) h, ⟨hs.storage, hs.outages⟩, rfl⟩

theorem perform_lookup_absent {s : State} (hs : s.InMemory) {p : Principal}
    (h : s.tables.directory.find? p = none) :
    ∃ s' : State, (Step.lookup p).perform.perform s = (.ok none, s') ∧ s'.InMemory ∧
      s'.books = s.books ∧ s'.registry = s.registry := by
  obtain ⟨log, hlookup⟩ := Store.reads_lookup? hs p
  rw [h] at hlookup
  exact ⟨_, hlookup, hs.withLog log, rfl, rfl⟩

/-- A registration whose identifier and name are free succeeds at once. -/
theorem gives_register {retry : Retry.Policy} (htries : 0 < retry.maxAttempts)
    {o : Naming.NewObject} {id : Identifier} (h : Naming.Registered o b b' (.ok id)) :
    Gives (Naming.register retry o id).run b ⟨id, .ok id⟩ b' := by
  obtain ⟨reservations, hins, rfl⟩ := h
  obtain ⟨left, hleft⟩ := Nat.exists_eq_succ_of_ne_zero (Nat.ne_of_gt htries)
  have hstep := Store.gives_insertReservation_free hins
  rw [o.reservation_id] at hstep
  unfold Naming.register
  rw [hleft]
  unfold Naming.registerFrom
  rw [Procedure.run_then, Procedure.run_attemptStep]
  refine gives_bind (gives_attempt hstep) ?_
  dsimp only
  rw [Procedure.run_then, Procedure.run_say]
  exact gives_bind (gives_say _ _ _ _) (ends_pure ⟨rfl, rfl⟩)

/-- Who is alone creates the principal with the identifier that waits at the desk. -/
theorem perform_createPrincipal_alone {s : State} (hs : s.InMemory) {retry : Retry.Policy}
    (htries : 0 < retry.maxAttempts) {r : Registration} {ids : List Identifier}
    (hid : s.registry.buffer = r.id :: ids) (h : Created owner n s.books b' r) :
    ∃ s', (createPrincipal retry owner n).run.perform s = (.ok r, s') ∧ s'.books = b' := by
  obtain ⟨id, reservations, rfl, hins, hnew, rfl⟩ := h
  rw [show (n.registration id).id = id from AclKey.leaf_under n.path id] at hid
  obtain ⟨s₁, hlookup, hs₁, hbooks₁, hdesk⟩ :=
    perform_lookup_absent (p := n.principal) hs (Directory.fst_add.mp hnew).1
  obtain ⟨s₂, hnext, hs₂, hbooks₂⟩ := perform_next_buffered hs₁ (hdesk ▸ hid)
  unfold createPrincipal
  rw [Procedure.run_then, Procedure.run_perform, perform_bind, hlookup]
  simp only [Option.isSome_none, Bool.false_eq_true, if_false]
  rw [Procedure.run_then, Procedure.run_perform, perform_bind, hnext]
  dsimp only
  suffices hgives : Gives _ s₂.books _ _ by
    obtain ⟨s', hperform, -, hbooks⟩ := perform_of_gives hs₂ hgives
    exact ⟨s', hperform, hbooks⟩
  rw [hbooks₂, hbooks₁, Procedure.run_then]
  refine gives_bind (gives_register htries ⟨reservations, hins, rfl⟩) ?_
  dsimp only
  rw [Procedure.run_then, Procedure.run_attempt]
  have hcreate := gives_createIfAbsent (b := s.books.withReservations reservations) owner
    (n.registration id)
  have hnew' : ((s.books.withReservations reservations).tables.directory.add
    (n.registration id)).1 = true := hnew
  simp only [hnew', if_true] at hcreate
  exact gives_bind (gives_attempt hcreate) (ends_pure ⟨rfl, rfl⟩)

/-! ### All together -/

/-- Whoever has succeeded is the one that holds the name, and what it created is all that was
done. -/
theorem created_of_result {retries : ι → Retry.Policy} {t : Traffic ι Registration}
    {stages : ι → Stage}
    (h : t.Staged (fun i => Creating (owners i) (ns i)) (fun i => Settles (retries i) (ns i))
      stages)
    (hone : OneStands owners ns b stages t.state.books) {i : ι} {r : Registration}
    (hr : (t.calls i).result? = some (.ok r)) :
    0 < (retries i).maxAttempts ∧ (stages i).Holds ∧ (∀ j, j ≠ i → ¬ (stages j).Holds) ∧
      ∃ cursors, Created (owners i) (ns i) (b.withCursors cursors) t.state.books r := by
  obtain ⟨id, htries, hstage, rfl⟩ := (h.obeys i).of_result hr
  have hholds : (stages i).Holds := hstage ▸ trivial
  obtain ⟨cursors, ⟨hnone, -⟩ | ⟨w, hstands, hothers⟩⟩ := hone
  · exact absurd hholds (hnone i)
  · have hi : i = w := by_contra fun hne => hothers i hne hholds
    subst hi
    rw [hstage] at hstands
    exact ⟨htries, hholds, hothers, cursors, hstands⟩

/-- If all are at their ends and none has succeeded, nothing was done. -/
theorem withCursors_of_results {retries : ι → Retry.Policy} {t : Traffic ι Registration}
    {stages : ι → Stage}
    (h : t.Staged (fun i => Creating (owners i) (ns i)) (fun i => Settles (retries i) (ns i))
      stages)
    (hone : OneStands owners ns b stages t.state.books) (hover : ∀ i, (t.calls i).Over)
    (hnone : ∀ i r, (t.calls i).result? ≠ some (.ok r)) :
    t.state.books = b.withCursors t.state.tables.cursors := by
  obtain ⟨cursors, ⟨-, hb⟩ | ⟨w, hstands, -⟩⟩ := hone
  · exact Books.eq_withCursors hb
  · obtain ⟨result, hresult⟩ := Option.isSome_iff_exists.mp (hover w)
    cases result with
    | ok r => exact absurd hresult (hnone w r)
    | error e =>
      have hw : ¬ (stages w).Holds := (h.obeys w).of_result hresult
      exact Books.eq_withCursors ((standing_of_not_holds hw).mp hstands)

/-- **One creation wins.** Of the calls that create the same principal, whatever the order of
their steps, at most one succeeds. When all have come to their ends the books are what that
one would have made of them alone, with the identifier that it got, or what they were if none
succeeded; and each call comes to its end after a number of turns. -/
theorem one_creation_wins [DecidableEq ι] {s : State} (hs : s.InMemory)
    (retries : ι → Retry.Policy) (owners : ι → Principal) (ns : ι → NewPrincipal) {p : Principal}
    (hp : ∀ i, (ns i).principal = p) (turns : List (Turn ι))
    (hturns : ∀ turn ∈ turns, turn.Within Operation.Aside) {t : Traffic ι Registration}
    (ht : t = (Traffic.start s fun i =>
      createPrincipal (retries i) (owners i) (ns i)).run turns) :
    (∀ i j r r', (t.calls i).result? = some (.ok r) → (t.calls j).result? = some (.ok r') →
      i = j) ∧
    ((∀ i, (t.calls i).Over) →
      (∀ i r, (t.calls i).result? = some (.ok r) →
        ∃ s', (createPrincipal (retries i) (owners i) (ns i)).run.perform
            { s with registry := { s.registry with buffer := [r.id] } } = (.ok r, s') ∧
          t.state.books = s'.books.withCursors t.state.tables.cursors) ∧
      ((∀ i r, (t.calls i).result? ≠ some (.ok r)) →
        t.state.books = s.books.withCursors t.state.tables.cursors)) ∧
    ∀ i, 4 * (retries i).maxAttempts + 12 ≤ (turns.filterMap Turn.caller?).count i →
      (t.calls i).Over := by
  have hstart : (Traffic.start s fun i => createPrincipal (retries i) (owners i) (ns i)).Staged
      (fun i => Creating (owners i) (ns i)) (fun i => Settles (retries i) (ns i))
      fun _ => .waiting :=
    ⟨hs, fun i => obeys_createPrincipal (retries i) (owners i) (ns i)⟩
  obtain ⟨stages, hstaged, hone⟩ := hstart.run (keeps_oneStands hp s.books)
    ⟨s.tables.cursors, .inl ⟨fun _ => not_false, rfl⟩⟩ turns hturns
  rw [← ht] at hstaged hone
  refine ⟨fun i j r r' hi hj => ?_, fun hover => ⟨fun i r hr => ?_, fun hnone => ?_⟩,
    fun i hi => ?_⟩
  · obtain ⟨-, -, hothers, -⟩ := created_of_result hstaged hone hi
    obtain ⟨-, hholds, -⟩ := created_of_result hstaged hone hj
    exact by_contra fun hne => hothers j (Ne.symm hne) hholds
  · obtain ⟨htries, -, -, cursors, id, reservations, hr', hins, hnew, hb⟩ :=
      created_of_result hstaged hone hr
    -- alone it would have begun with the cursors of that time
    have hcreated : Created (owners i) (ns i) s.books
        (t.state.books.withCursors s.tables.cursors) r :=
      ⟨id, reservations, hr', hins, hnew, congrArg (Books.withCursors · s.tables.cursors) hb⟩
    obtain ⟨s', hperform, hb'⟩ := perform_createPrincipal_alone
      (s := { s with registry := { s.registry with buffer := [r.id] } }) ⟨hs.storage, hs.outages⟩
      htries rfl hcreated
    refine ⟨s', hperform, ?_⟩
    rw [hb']
    rfl
  · exact withCursors_of_results hstaged hone hover hnone
  · rw [ht]
    exact Traffic.over_run turns (endsWithin_createPrincipal _ _ _) hi

/-- Two calls that take turns: the one that is a step ahead creates the principal, and nothing
is left of the other one, which finds the name taken twice. -/
theorem step_ahead_creates :
    let owner : Principal := ⟨.user, "owner"⟩
    let ns : Bool → NewPrincipal := fun first =>
      ⟨⟨.role, "editor"⟩, if first then "First" else "Second", "", none⟩
    let s := State.start { mode := .random } ⟨0, 0⟩
    let turns : List (Turn Bool) := (List.replicate 20 [.call true, .call false]).flatten
    let t := (Traffic.start s fun i => createPrincipal (.immediate 2) owner (ns i)).run turns
    ∃ r s', (t.calls true).result? = some (.ok r) ∧ r.title = "First" ∧
      (t.calls false).result? = some (.error (Naming.exhausted "role:editor" 2)) ∧
      (createPrincipal (.immediate 2) owner (ns true)).run.perform
        { s with registry := { s.registry with buffer := [r.id] } } = (.ok r, s') ∧
      t.state.books = s'.books.withCursors t.state.tables.cursors := by
  intro owner ns s turns t
  have hs : s.InMemory := ⟨rfl, rfl⟩
  have hturns : ∀ turn ∈ turns, turn.Within Operation.Aside := by
    intro turn hturn
    obtain ⟨pair, hpair, hturn⟩ := List.mem_flatten.mp hturn
    rw [List.eq_of_mem_replicate hpair, List.mem_pair] at hturn
    rcases hturn with rfl | rfl <;> trivial
  have hsame : ∀ i, (ns i).principal = ⟨.role, "editor"⟩ := fun _ => rfl
  have hfirst : (t.calls true).result? =
      some (.ok ((ns true).registration (.ofRandomBits 0))) := by decide +kernel
  have hsecond : (t.calls false).result? = some (.error (Naming.exhausted "role:editor" 2)) := by
    decide +kernel
  obtain ⟨-, hends, -⟩ := one_creation_wins hs (fun _ => .immediate 2) (fun _ => owner) ns hsame
    turns hturns (t := t) rfl
  have hover : ∀ i, (t.calls i).Over := by
    intro i
    cases i with
    | true => exact Procedure.over_of_result hfirst
    | false => exact Procedure.over_of_result hsecond
  obtain ⟨s', halone, hbooks⟩ := (hends hover).1 true _ hfirst
  exact ⟨_, s', hfirst, rfl, hsecond, halone, hbooks⟩

end Authorization
end AccessRegistry
