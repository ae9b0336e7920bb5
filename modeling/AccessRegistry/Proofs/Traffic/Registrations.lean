/-
# Names that were given stay given

Any number of calls may register objects at the same time, while names are changed and
released. Whoever is told that a name is theirs has it from the turn at which it was reserved
until an operation that is aimed at it takes it away, whatever the others do. Where all ask
for one name that is free, and nobody changes or releases names, exactly one of them gets it.

Key definitions: `Reservations.Binds`, `Operation.Targets`, `Naming.Lasts`, `Naming.Race`.
Key theorems: `Reservations.binds_apply`, `Naming.lasts_of_binds`, `Naming.reserved_lasts`,
`Naming.race_begins`, `Naming.keeps_race`, `Naming.registrations_are_exclusive`.
-/
import AccessRegistry.Proofs.Bindings
import AccessRegistry.Proofs.Stages
import AccessRegistry.Proofs.Traffic

namespace AccessRegistry

namespace Reservations

variable {t t' : Reservations} {r : Reservation}

/-- The name and the identifier of a reservation are bound to each other, by the reservation as
it was made. -/
def Binds (t : Reservations) (r : Reservation) : Prop :=
  t.idOf? r.name = some r.id ∧ t.find? r.id = some r

/-- A change is aimed at a name or at an identifier. -/
def Change.Targets (name : String) (id : Identifier) : Change → Prop
  | reserve _ => False
  | renameByName old _ => old = name
  | renameById x _ => x = id
  | deleteNames names => name ∈ names
  | deleteIds ids => id ∈ ids

theorem binds_insert (h : t.insert? r = some t') : t'.Binds r := by
  refine ⟨?_, ?_⟩
  · rw [idOf?_insert h, if_pos rfl]
  · rw [find?_insert h, if_pos rfl]

theorem Binds.insert (hr : t.Binds r) {other : Reservation} (h : t.insert? other = some t') :
    t'.Binds r := by
  obtain ⟨hname, hid⟩ := (insert?_eq_some h).1
  have hname' : other.name ≠ r.name := fun he => by
    rw [he, hr.1] at hname
    cases hname
  have hid' : other.id ≠ r.id := fun he => by
    rw [he, hr.2] at hid
    cases hid
  refine ⟨?_, ?_⟩
  · rw [idOf?_insert h, if_neg hname', hr.1]
  · rw [find?_insert h, if_neg hid', hr.2]

theorem Binds.rename (ht : t.OneToOne) (hr : t.Binds r) {id : Identifier} (hne : id ≠ r.id)
    (new : String) : (t.answered (t.rename id new)).Binds r := by
  rcases rename_cases ht id new with ⟨found, h⟩ | h | ⟨r', t', -, hfree, h, hrenamed⟩
  · rw [h]
    exact hr
  · rw [h]
    exact hr
  · rw [h]
    have hname : new ≠ r.name := fun he => by
      rw [he, hr.1] at hfree
      cases hfree
    have hid : t.idOf? r.name ≠ some id := fun he => hne (Option.some.inj (he.symm.trans hr.1))
    refine ⟨?_, ?_⟩
    · show t'.idOf? r.name = some r.id
      rw [hrenamed.idOf?, if_neg hname, if_neg hid, hr.1]
    · show t'.find? r.id = some r
      rw [hrenamed.find?, if_neg hne, hr.2]

/-- A binding stays unless a change is aimed at its name or its identifier. -/
theorem binds_apply (ht : t.OneToOne) (hr : t.Binds r) (c : Change)
    (hc : ¬ c.Targets r.name r.id) : (c.apply t).Binds r := by
  cases c with
  | reserve other =>
    show ((t.insert? other).getD t).Binds r
    cases h : t.insert? other with
    | none => exact hr
    | some t' => exact hr.insert h
  | renameByName old new =>
    show (t.answered (t.renameByName old new)).Binds r
    cases hold : t.idOf? old with
    | none =>
      rw [renameByName_unbound hold]
      exact hr
    | some id =>
      rw [renameByName_bound hold]
      refine hr.rename ht (fun he => hc ?_) new
      have hname := (name_eq_iff ht hr.2).mpr (he ▸ hold)
      exact hname.symm
  | renameById id new => exact hr.rename ht hc new
  | deleteNames names =>
    have hkept : r.name ∉ names := hc
    refine ⟨?_, ?_⟩
    · rw [Change.apply, idOf?_deleteNames names ht, if_neg hkept, hr.1]
    · rw [Change.apply, find?_deleteNames names ht, hr.2, Option.filter_some]
      simp only [hkept, not_false_eq_true, decide_true, if_true]
  | deleteIds ids =>
    have hkept : r.id ∉ ids := hc
    refine ⟨?_, ?_⟩
    · rw [Change.apply, idOf?_deleteIds ids ht, hr.1, Option.filter_some]
      simp only [hkept, not_false_eq_true, decide_true, if_true]
    · rw [Change.apply, find?_deleteIds, if_neg hkept, hr.2]

end Reservations

namespace Operation

/-- Names are changed or released, or the records are left to others. -/
def OfNames (o : Operation) : Prop := o.naming?.isSome ∨ o.Aside

/-- An operation is aimed at a name or at an identifier: it renames or releases one of them. -/
def Targets (o : Operation) (name : String) (id : Identifier) : Prop :=
  ∃ c, o.naming? = some c ∧ c.Targets name id

variable {o : Operation} {b : Books}

/-- What is not aimed at a binding leaves it alone. -/
theorem OfNames.ends (h : o.OfNames) (hone : b.tables.reservations.OneToOne) :
    Ends o.action b fun _ b' => b'.tables.reservations.OneToOne ∧
      ∀ r, b.tables.reservations.Binds r → ¬ o.Targets r.name r.id →
        b'.tables.reservations.Binds r := by
  rcases h with hnaming | haside
  · obtain ⟨c, hc⟩ := Option.isSome_iff_exists.mp hnaming
    refine (ends_naming hc b).mono fun _ b' hb => ?_
    subst hb
    refine ⟨Reservations.oneToOne_apply hone c, fun r hr haim => ?_⟩
    exact Reservations.binds_apply hone hr c fun hat => haim ⟨c, hc, hat⟩
  · refine (haside.ends b).mono fun _ b' ⟨cursors, hb⟩ => ?_
    subst hb
    exact ⟨hone, fun r hr _ => hr⟩

end Operation

namespace Naming

variable {b b' : Books} {x y : Stage}

/-- The steps of a registration remove no binding. -/
theorem Registering.keeps {o : NewObject} {β : Type} {c : Step β} {a : Except ServiceError β}
    (hrule : Registering o x c a y) (hdoes : c.Does b a b')
    (hone : b.tables.reservations.OneToOne) :
    b'.tables.reservations.OneToOne ∧
      ∀ r, b.tables.reservations.Binds r → b'.tables.reservations.Binds r := by
  have hsame : b' = b → b'.tables.reservations.OneToOne ∧
      ∀ r, b.tables.reservations.Binds r → b'.tables.reservations.Binds r := by
    rintro rfl
    exact ⟨hone, fun _ hr => hr⟩
  cases hrule with
  | log => exact hsame hdoes.2
  | pause => exact hsame hdoes.2
  | reserve id =>
    rcases hdoes with ⟨reservations, hins, -, rfl⟩ | ⟨-, ha, -⟩
    · exact ⟨Reservations.oneToOne_insert hone hins, fun r hr => hr.insert hins⟩
    · cases ha
  | conflict id =>
    rcases hdoes with ⟨reservations, -, ha, -⟩ | ⟨-, -, hb⟩
    · cases ha
    · exact hsame hb
  | given => exact hsame hdoes
  | notGiven => exact hsame hdoes

/-! ### Until it is taken away -/

variable {ι : Type} {os : ι → NewObject} {t : Traffic ι Outcome}
  {post : ι → Stage → Except ServiceError Outcome → Prop} {stages : ι → Stage}

section

variable [DecidableEq ι]

/-- Whatever comes, a binding is there, or it was taken away by an operation that was aimed
at it. -/
def Lasts (t : Traffic ι Outcome) (r : Reservation) : Prop :=
  ∀ more : List (Turn ι), (∀ turn ∈ more, turn.Within Operation.OfNames) →
    (t.run more).state.tables.reservations.Binds r ∨
    ∃ before o rest, more = before ++ .other o :: rest ∧ o.Targets r.name r.id ∧
      (t.run before).state.tables.reservations.Binds r ∧
      ¬ (t.run (before ++ [.other o])).state.tables.reservations.Binds r

theorem keeps_oneToOne : Traffic.Keeps (fun i => Registering (os i)) Operation.OfNames
    fun _ _ b => b.tables.reservations.OneToOne where
  call hrule hdoes hone := (hrule.keeps hdoes hone).1
  other ho hone := (ho.ends hone).mono fun _ _ h => h.1

theorem lasts_of_binds (h : t.Staged (fun i => Registering (os i)) post stages)
    (hone : t.state.tables.reservations.OneToOne) {r : Reservation}
    (hr : t.state.tables.reservations.Binds r) : Lasts t r := by
  intro more
  induction more using List.reverseRecOn with
  | nil => exact fun _ => .inl hr
  | append_singleton more turn ih =>
    intro hmore
    have hmore' : ∀ x ∈ more, x.Within Operation.OfNames :=
      fun x hx => hmore x (List.mem_append_left _ hx)
    obtain ⟨stages', hstaged, hone'⟩ := h.run keeps_oneToOne hone more hmore'
    rcases ih hmore' with hr' | ⟨before, o, rest, rfl, haim, hthere, hgone⟩
    · cases turn with
      | call i =>
        left
        rw [Traffic.run_concat]
        rcases hstaged.after_call i with hsame | ⟨β, c, a, y, hrule, hdoes, -, -⟩
        · rw [hsame]
          exact hr'
        · exact (hrule.keeps hdoes hone').2 r hr'
      | other o =>
        by_cases hleft : (t.run (more ++ [.other o])).state.tables.reservations.Binds r
        · exact .inl hleft
        · refine .inr ⟨more, o, [], rfl, by_contra fun haim => hleft ?_, hr', hleft⟩
          have ho : o.OfNames := hmore (.other o) (List.mem_append_right _ List.mem_cons_self)
          rw [Traffic.run_concat]
          exact (ho.ends hone' (t.run more).state hstaged.memory rfl).2.2 r hr' haim
    · exact .inr ⟨before, o, rest ++ [turn], by simp, haim, hthere, hgone⟩

/-- What was reserved lasts from the turn on at which it was reserved. -/
theorem reserved_lasts (h : t.Staged (fun i => Registering (os i)) post stages)
    (hone : t.state.tables.reservations.OneToOne) (hbegin : ∀ i id, stages i ≠ .reserved id) :
    ∀ turns : List (Turn ι), (∀ turn ∈ turns, turn.Within Operation.OfNames) →
      ∃ stages', (t.run turns).Staged (fun i => Registering (os i)) post stages' ∧
        ∀ i id, stages' i = .reserved id →
          ∃ made rest, turns = made ++ rest ∧ Lasts (t.run made) ((os i).reservation id) := by
  intro turns
  induction turns using List.reverseRecOn with
  | nil => exact fun _ => ⟨stages, h, fun i id hi => absurd hi (hbegin i id)⟩
  | append_singleton turns turn ih =>
    intro hturns
    obtain ⟨stages', hstaged, hmade⟩ := ih fun x hx => hturns x (List.mem_append_left _ hx)
    have hlater : ∀ i id, stages' i = .reserved id → ∃ made rest, turns ++ [turn] = made ++ rest ∧
        Lasts (t.run made) ((os i).reservation id) := by
      intro i id hi
      obtain ⟨made, rest, rfl, hlasts⟩ := hmade i id hi
      exact ⟨made, rest ++ [turn], List.append_assoc .., hlasts⟩
    cases turn with
    | other o =>
      rw [Traffic.run_concat]
      exact ⟨stages', hstaged.after_other o, hlater⟩
    | call i =>
      have hnext := Traffic.run_concat t turns (.call i)
      rcases hstaged.after_call i with hsame | ⟨β, c, a, y, hrule, hdoes, -, hstaged'⟩
      · rw [hnext, hsame]
        exact ⟨stages', hstaged, hlater⟩
      · rw [← hnext] at hstaged' hdoes
        refine ⟨_, hstaged', fun j id hj => ?_⟩
        by_cases hji : j = i
        · rw [hji, Function.update_self] at hj
          subst hj
          rw [hji]
          obtain ⟨-, -, hone'⟩ := h.run keeps_oneToOne hone _ hturns
          generalize hx : stages' i = x at hrule
          cases hrule with
          | log => exact hlater i id hx
          | pause => exact hlater i id hx
          | reserve =>
            rcases hdoes with ⟨reservations, hins, -, hb⟩ | ⟨-, ha, -⟩
            · have hthere : (t.run (turns ++ [.call i])).state.tables.reservations =
                  reservations := congrArg (fun b : Books => b.tables.reservations) hb
              refine ⟨turns ++ [.call i], [], (List.append_nil _).symm, ?_⟩
              exact lasts_of_binds hstaged' hone' (hthere ▸ Reservations.binds_insert hins)
            · cases ha
        · rw [Function.update_of_ne hji] at hj
          exact hlater j id hj

/-! ### One name for all -/

/-- All ask for one name. Either nobody has done anything, and the name is free as well as all
identifiers; or one of them has the name, and the others have reserved nothing. Who failed was
not given another identifier. -/
def Race (ids : ι → Identifier) (name : String) (stages : ι → Stage) (l : List Answer)
    (b : Books) : Prop :=
  (∀ i e, stages i = .failed e → .error e ∈ l) ∧
    (((∀ i, stages i = .trying (ids i)) ∧ b.tables.reservations.idOf? name = none ∧
        ∀ i, b.tables.reservations.find? (ids i) = none) ∨
      b.tables.reservations.idOf? name ≠ none ∧
        ∃ w id, stages w = .reserved id ∧ ∀ i, i ≠ w → ¬ (stages i).Holds)

section

variable {ids : ι → Identifier} {name : String} {stages : ι → Stage} {i : ι} {β : Type}
  {c : Step β} {a : Except ServiceError β}

/-- Who has failed had failed before the step, or was given no identifier in it. -/
theorem Registering.failed {o : NewObject} {e : ServiceError}
    (hrule : Registering o x c a (.failed e)) : x = .failed e ∨ .error e ∈ c.asked a := by
  cases hrule with
  | log => exact .inl rfl
  | pause => exact .inl rfl
  | notGiven => exact .inr List.mem_cons_self

omit [DecidableEq ι] in
/-- Where nobody has tried, whoever tries gets the name. -/
theorem race_begins (hname : ∀ i id, (os i).nameOf id = name)
    (hrule : Registering (os i) (stages i) c a y) (hdoes : c.Does b a b')
    (htrying : ∀ i, stages i = .trying (ids i)) (hfree : b.tables.reservations.idOf? name = none)
    (hids : ∀ i, b.tables.reservations.find? (ids i) = none) :
    (y = stages i ∧ b' = b) ∨
      b'.tables.reservations.idOf? name ≠ none ∧ ∃ id, y = .reserved id := by
  have hreserved : ∀ i id, ((os i).reservation id).name = name := hname
  rw [htrying i] at hrule ⊢
  cases hrule with
  | log => exact .inl ⟨rfl, hdoes.2⟩
  | pause => exact .inl ⟨rfl, hdoes.2⟩
  | reserve =>
    rcases hdoes with ⟨reservations, hins, -, rfl⟩ | ⟨-, ha, -⟩
    · refine .inr ⟨?_, ids i, rfl⟩
      show reservations.idOf? name ≠ none
      rw [Reservations.idOf?_insert hins, if_pos (hreserved i (ids i))]
      exact Option.some_ne_none _
    · cases ha
  | conflict =>
    rcases hdoes with ⟨reservations, -, ha, -⟩ | ⟨hnone, -, -⟩
    · cases ha
    · -- the name is free, and so is the identifier
      have hins : (b.tables.reservations.insert? ((os i).reservation (ids i))).isSome := by
        rw [Reservations.isSome_insert?, hreserved, (os i).reservation_id]
        exact ⟨hfree, hids i⟩
      rw [hnone] at hins
      cases hins

/-- Where one has the name, neither it nor anybody else gets any further. -/
theorem race_is_over (hname : ∀ i id, (os i).nameOf id = name)
    (hrule : Registering (os i) (stages i) c a y) (hdoes : c.Does b a b')
    (hbound : b.tables.reservations.idOf? name ≠ none) {w : ι} {id : Identifier}
    (hw : stages w = .reserved id) (hothers : ∀ i, i ≠ w → ¬ (stages i).Holds) :
    b' = b ∧ (i = w → y = .reserved id) ∧ (i ≠ w → ¬ y.Holds) := by
  by_cases hi : i = w
  · subst hi
    obtain ⟨rfl, hb⟩ := hrule.rests hdoes (hw ▸ trivial)
    exact ⟨hb, fun _ => hw, fun hne => absurd rfl hne⟩
  · have hbound' : ∀ id, b.tables.reservations.idOf? ((os i).nameOf id) ≠ none :=
      fun id => (hname i id).symm ▸ hbound
    obtain ⟨hy, hb⟩ := hrule.spectator hdoes (hothers i hi) hbound'
    exact ⟨hb, fun he => absurd he hi, fun _ => hy⟩

end

/-- One of them gets the name, as soon as one has tried. -/
theorem keeps_race {ids : ι → Identifier} {name : String}
    (hname : ∀ i id, (os i).nameOf id = name) :
    Traffic.Keeps (fun i => Registering (os i)) Operation.Aside (Race ids name) where
  call := by
    rintro stages l b i β c a y b' hrule hdoes ⟨hfailed, hphase⟩
    have hfailed' : ∀ j e, Function.update stages i y j = .failed e →
        .error e ∈ l ++ c.asked a := by
      refine (Function.forall_update_iff stages
        (p := fun _ x => ∀ e, x = .failed e → .error e ∈ l ++ c.asked a)).mpr ⟨?_, ?_⟩
      · rintro e rfl
        rcases hrule.failed with hold | hnow
        · exact List.mem_append_left _ (hfailed i e hold)
        · exact List.mem_append_right _ hnow
      · exact fun j _ e hj => List.mem_append_left _ (hfailed j e hj)
    refine ⟨hfailed', ?_⟩
    rcases hphase with ⟨htrying, hfree, hids⟩ | ⟨hbound, w, id, hw, hothers⟩
    · rcases race_begins hname hrule hdoes htrying hfree hids with ⟨rfl, rfl⟩ | ⟨hbound, id, rfl⟩
      · rw [Function.update_eq_self]
        exact .inl ⟨htrying, hfree, hids⟩
      · refine .inr ⟨hbound, i, id, Function.update_self .., fun j hj => ?_⟩
        rw [Function.update_of_ne hj, htrying j]
        exact not_false
    · obtain ⟨rfl, hwinner, hloser⟩ := race_is_over hname hrule hdoes hbound hw hothers
      refine .inr ⟨hbound, w, id, ?_, ?_⟩
      · exact (Function.forall_update_iff stages (p := fun j x => j = w → x = .reserved id)).mpr
          ⟨hwinner, fun j _ hj => hj ▸ hw⟩ w rfl
      · exact (Function.forall_update_iff stages (p := fun j x => j ≠ w → ¬ x.Holds)).mpr
          ⟨hloser, fun j _ hj => hothers j hj⟩
  other := by
    rintro stages l b o ho hrace
    refine (ho.ends b).mono fun _ b' ⟨cursors, hb⟩ => ?_
    subst hb
    exact hrace

end

/-! ### All together -/

theorem staged_register {s : State} (hs : s.InMemory) (retries : ι → Retry.Policy)
    (os : ι → NewObject) (ids : ι → Identifier) :
    (Traffic.start s fun i => register (retries i) (os i) (ids i)).Staged
      (fun i => Registering (os i)) (fun i => Concludes (retries i) (os i))
      fun i => .trying (ids i) :=
  ⟨hs, fun i => obeys_register (retries i) (os i) (ids i)⟩

/-- Whoever is alone in having a name has it, and the others are told so: of those who asked
for one name, when all have come to their ends. -/
theorem race_result {retries : ι → Retry.Policy} {ids : ι → Identifier} {name : String}
    (h : t.Staged (fun i => Registering (os i)) (fun i => Concludes (retries i) (os i)) stages)
    (hrace : Race ids name stages t.answers t.state.books)
    (hname : ∀ i id, (os i).nameOf id = name) (htries : ∀ i, 0 < (retries i).maxAttempts)
    (hgiven : ∀ answer ∈ t.answers, ∃ id, answer = .ok id) (hover : ∀ i, (t.calls i).Over)
    (hsome : Nonempty ι) :
    ∃ w out id, (t.calls w).result? = some (.ok ⟨out, .ok id⟩) ∧ ∀ i, i ≠ w →
      ∃ out, (t.calls i).result? =
        some (.ok ⟨out, .error (exhausted name (retries i).maxAttempts)⟩) := by
  -- every call has come to what its stage says
  have hends : ∀ i, ∃ out : Outcome, (t.calls i).result? = some (.ok out) ∧
      EndsAs (retries i) (os i) (stages i) out.result := by
    intro i
    obtain ⟨result, hresult⟩ := Option.isSome_iff_exists.mp (hover i)
    have hconcludes := (h.obeys i).of_result hresult
    cases result with
    | ok out => exact ⟨out, hresult, hconcludes⟩
    | error e => exact hconcludes.elim
  obtain ⟨hfailed, ⟨htrying, -, -⟩ | ⟨-, w, id, hw, hothers⟩⟩ := hrace
  · -- somebody has tried
    obtain ⟨i⟩ := hsome
    obtain ⟨out, -, hend⟩ := hends i
    rw [htrying i] at hend
    exact absurd hend.1 (Nat.ne_of_gt (htries i))
  · obtain ⟨⟨out, result⟩, hresult, hend⟩ := hends w
    rw [hw] at hend
    obtain rfl : result = .ok id := hend.2
    refine ⟨w, out, id, hresult, fun i hi => ?_⟩
    obtain ⟨⟨out, result⟩, hresult, hend⟩ := hends i
    have hnot := hothers i hi
    cases hx : stages i with
    | trying id =>
      rw [hx] at hend
      exact absurd hend.1 (Nat.ne_of_gt (htries i))
    | taken id =>
      rw [hx] at hend
      obtain rfl : result = .error (exhausted ((os i).nameOf id) _) := hend
      exact ⟨out, hname i id ▸ hresult⟩
    | failed e =>
      obtain ⟨id, hid⟩ := hgiven _ (hfailed i e hx)
      cases hid
    | waiting =>
      rw [hx] at hend
      exact hend.elim
    | _ => exact absurd (hx ▸ trivial) hnot

/-- **Registrations are exclusive.** In every store that a registry comes to, and whatever the
order in which calls make their steps and names are changed and released: who has been told
that a name is theirs keeps it until an operation that is aimed at it takes it away; names and
identifiers are bound one to one at every time; and of calls that ask for the same free name
exactly one gets it and the others are told that they cannot. Each call comes to its end after
a number of turns. -/
theorem registrations_are_exclusive [DecidableEq ι] {s₀ : State} (h₀ : s₀.InMemory)
    (hempty : s₀.tables.reservations = .empty) (hs : List Happening)
    (retries : ι → Retry.Policy) (os : ι → NewObject) (ids : ι → Identifier)
    {start t : Traffic ι Outcome}
    (hstart : start =
      Traffic.start (s₀.afterAll hs) fun i => register (retries i) (os i) (ids i))
    (turns : List (Turn ι)) (hturns : ∀ turn ∈ turns, turn.Within Operation.OfNames)
    (ht : t = start.run turns) :
    (∀ i out id, (t.calls i).result? = some (.ok ⟨out, .ok id⟩) →
      ∃ made rest, turns = made ++ rest ∧ Lasts (start.run made) ((os i).reservation id)) ∧
    t.state.tables.reservations.OneToOne ∧
    (∀ name, (∀ i id, (os i).nameOf id = name) →
      start.state.tables.reservations.idOf? name = none →
      (∀ i, start.state.tables.reservations.find? (ids i) = none) →
      (∀ i, 0 < (retries i).maxAttempts) → (∀ turn ∈ turns, turn.Within Operation.Aside) →
      (∀ answer ∈ t.answers, ∃ id, answer = .ok id) → (∀ i, (t.calls i).Over) → Nonempty ι →
      ∃ w out id, (t.calls w).result? = some (.ok ⟨out, .ok id⟩) ∧ ∀ i, i ≠ w →
        ∃ out, (t.calls i).result? =
          some (.ok ⟨out, .error (exhausted name (retries i).maxAttempts)⟩)) ∧
    ∀ i, 4 * (retries i).maxAttempts ≤ (turns.filterMap Turn.caller?).count i →
      (t.calls i).Over := by
  obtain ⟨hmemory, hone⟩ :=
    State.oneToOne_afterAll hs h₀ (hempty ▸ Reservations.oneToOne_empty)
  have hstaged := staged_register hmemory retries os ids
  rw [← hstart] at hstaged
  have hone' : start.state.tables.reservations.OneToOne := hstart ▸ hone
  refine ⟨fun i out id hi => ?_, ?_, ?_, fun i hi => ?_⟩
  · obtain ⟨stages, hlast, hmade⟩ := reserved_lasts hstaged hone' (fun _ _ h => by cases h) turns
      hturns
    rw [← ht] at hlast
    have hend : EndsAs (retries i) (os i) (stages i) (.ok id) := (hlast.obeys i).of_result hi
    exact hmade i id hend.reserved
  · obtain ⟨-, -, hlast⟩ := hstaged.run keeps_oneToOne hone' turns hturns
    rw [ht]
    exact hlast
  · intro name hname hfree hids htries haside hgiven hover hsome
    have hrace : Race ids name (fun i => .trying (ids i)) start.answers start.state.books :=
      ⟨fun _ _ h => (by cases h), .inl ⟨fun _ => rfl, hfree, hids⟩⟩
    obtain ⟨stages, hlast, hrace'⟩ := hstaged.run (keeps_race hname) hrace turns haside
    rw [← ht] at hlast hrace'
    exact race_result hlast hrace' hname htries hgiven hover hsome
  · rw [ht]
    refine Traffic.over_run turns ?_ hi
    rw [hstart]
    exact endsWithin_register (retries i) (os i) (ids i)

deriving instance DecidableEq for Outcome

/-- Two calls ask for one name, each with its own identifier, and take turns: the one that tries
first has the name for good, and the other one is told so after its second attempt. -/
theorem first_has_the_name :
    let os : Bool → NewObject := fun _ => ⟨.study, [], fun _ => "trial"⟩
    let ids : Bool → Identifier := fun first => .ofParts 1 (if first then 0 else 1)
    let start := Traffic.start ((State.start { mode := .random } ⟨0, 0⟩).afterAll [])
      fun i => register (.immediate 2) (os i) (ids i)
    let turns : List (Turn Bool) := (List.replicate 8 [.call true, .call false]).flatten
    (∃ made rest, turns = made ++ rest ∧
        Lasts (start.run made) ((os true).reservation (ids true))) ∧
      ∃ w out id, ((start.run turns).calls w).result? = some (.ok ⟨out, .ok id⟩) ∧
        ∀ i, i ≠ w → ∃ out, ((start.run turns).calls i).result? =
          some (.ok ⟨out, .error (exhausted "trial" 2)⟩) := by
  intro os ids start turns
  have hturns : ∀ turn ∈ turns, ∃ i, turn = .call i := by
    intro turn hturn
    obtain ⟨pair, hpair, hturn⟩ := List.mem_flatten.mp hturn
    rw [List.eq_of_mem_replicate hpair, List.mem_pair] at hturn
    rcases hturn with rfl | rfl
    · exact ⟨true, rfl⟩
    · exact ⟨false, rfl⟩
  have hwithin : ∀ (Allowed : Operation → Prop) (turn), turn ∈ turns → turn.Within Allowed := by
    intro Allowed turn hturn
    obtain ⟨i, rfl⟩ := hturns turn hturn
    trivial
  have hfirst : ((start.run turns).calls true).result? =
      some (.ok ⟨.ofParts 1 0, .ok (.ofParts 1 0)⟩) := by decide +kernel
  have hsecond : ((start.run turns).calls false).result?.isSome := by decide +kernel
  have hanswers : (start.run turns).answers = [.ok (.ofRandomBits 0)] := by decide +kernel
  have hmemory : (State.start { mode := .random } ⟨0, 0⟩).InMemory := ⟨rfl, rfl⟩
  obtain ⟨hlasts, -, hrace, -⟩ := registrations_are_exclusive hmemory rfl []
    (fun _ => .immediate 2) os ids rfl turns (hwithin _) (t := start.run turns) rfl
  refine ⟨hlasts true _ _ hfirst, hrace "trial" ?_ ?_ ?_ ?_ (hwithin _) ?_ ?_ ⟨true⟩⟩
  · exact fun _ _ => rfl
  · decide +kernel
  · decide +kernel
  · exact fun _ => Nat.zero_lt_two
  · rw [hanswers]
    intro answer hanswer
    exact ⟨_, List.mem_singleton.mp hanswer⟩
  · intro i
    cases i with
    | true => exact Procedure.over_of_result hfirst
    | false => exact hsecond

end Naming
end AccessRegistry
