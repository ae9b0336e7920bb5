/-
# Procedures whose calls may fail

A call that is out of service fails and leaves the books alone, and who waits at the queue in
vain leaves them alone, too. So a step of a procedure does what is told of it, or it fails and
does nothing (`Step.May`). As long as the records are in memory, and nothing is out of service
that a procedure needs in order to undo what it did, what the procedure comes to can be read
off its text, part by part, for every way in which its steps are answered
(`Procedure.Comes`), and holds of every run (`Procedure.Comes.run`).

Key definitions: `State.Alike`, `State.Mends`, `Step.May`, `Procedure.Comes`.
Key theorems: `Desk.harmless_next`, `Step.perform_may`, `Procedure.comes_bind`,
`Procedure.Comes.run`.
-/
import AccessRegistry.Proofs.Procedures

namespace AccessRegistry

open AccessRegistry.Action

namespace Outages

/-- A call wears an outage out, but takes none away. -/
theorem keys_check (c : Call) (os : Outages) : (check c os).2.map Prod.fst = os.map Prod.fst := by
  induction os with
  | nil => rfl
  | cons o os ih =>
    unfold check
    split
    · rfl
    · exact congrArg (o.1 :: ·) ih

theorem check_of_not_mem {c : Call} {os : Outages} (h : c ∉ os.map Prod.fst) :
    check c os = (false, os) := by
  induction os with
  | nil => rfl
  | cons o os ih =>
    rw [List.map_cons, List.mem_cons, not_or] at h
    unfold check
    rw [if_neg (Ne.symm h.1), ih h.2]

end Outages

/-- The books are as they were, and so is what may be out of service. -/
structure State.Alike (s s' : State) : Prop where
  books : s'.books = s.books
  storage : s'.storage = s.storage
  outages : s'.outages.map Prod.fst = s.outages.map Prod.fst

namespace State.Alike

variable {s s' s'' : State}

theorem refl (s : State) : Alike s s := ⟨rfl, rfl, rfl⟩

theorem trans (h : Alike s s') (h' : Alike s' s'') : Alike s s'' :=
  ⟨h'.books.trans h.books, h'.storage.trans h.storage, h'.outages.trans h.outages⟩

end State.Alike

open State (Alike)

variable {α β : Type}

/-- An action leaves the books alone, whatever is out of service. -/
def Action.Harmless (x : Action α) : Prop := ∀ s, Alike s (x.perform s).2

namespace Action

variable {x : Action α} {f : α → Action β}

theorem harmless_pure (a : α) : Harmless (pure a) := Alike.refl

theorem harmless_throw (e : ServiceError) : Harmless (throw e : Action α) := Alike.refl

theorem harmless_bind (hx : Harmless x) (hf : ∀ a, Harmless (f a)) : Harmless (x >>= f) := by
  intro s
  have hx := hx s
  rw [perform_bind]
  rcases h : x.perform s with ⟨e | a, s'⟩
  · rw [h] at hx
    exact hx
  · rw [h] at hx
    exact hx.trans (hf a s')

theorem harmless_get_bind {f : State → Action β} (hf : ∀ s, Alike s ((f s).perform s).2) :
    Harmless (get >>= f) := hf

theorem harmless_modify {f : State → State} (hf : ∀ s, Alike s (f s)) :
    Harmless (modify f : Action PUnit) := hf

theorem harmless_say (level : Log.Level) (part : Log.Part) (message : String)
    (fields : List (String × Log.Value)) : Harmless (say level part message fields) :=
  harmless_modify fun _ => ⟨rfl, rfl, rfl⟩

theorem harmless_call (c : Call) : Harmless (call c) := by
  refine harmless_get_bind fun s => ?_
  have hkeys := Outages.keys_check c s.outages
  rcases hcheck : s.outages.check c with ⟨fails, outages⟩
  rw [hcheck] at hkeys
  cases fails <;> exact ⟨rfl, rfl, hkeys⟩

end Action

namespace Desk

theorem harmless_pop? (patience : Nat) : Harmless (Store.pop? patience) := by
  refine harmless_bind (harmless_call .pop) fun _ => harmless_get_bind fun s => ?_
  split
  · exact ⟨rfl, rfl, rfl⟩
  · exact ⟨rfl, rfl, rfl⟩

theorem harmless_timedOut (timeout : Nat) : Harmless (timedOut timeout) :=
  harmless_bind (harmless_say _ _ _ _) fun _ => harmless_throw _

theorem harmless_popOr {again : Action Identifier} (h : Harmless again) (timeout deadline : Nat) :
    Harmless (popOr again timeout deadline) := by
  refine harmless_get_bind fun s => harmless_bind (harmless_pop? _) (fun found => ?_) s
  cases found with
  | none => exact harmless_timedOut timeout
  | some id =>
    dsimp only
    split
    · exact harmless_bind (harmless_say _ _ _ _) fun _ => h
    · exact harmless_pure id

theorem harmless_popUnreserved (timeout deadline : Nat) :
    ∀ waiting, Harmless (popUnreserved timeout deadline waiting)
  | [] => harmless_popOr (harmless_timedOut timeout) timeout deadline
  | _ :: waiting =>
    harmless_popOr (harmless_popUnreserved timeout deadline waiting) timeout deadline

theorem alike_setAllocator (s : State) (d : Desk) (a : Allocator) :
    Alike s (s.setAllocator d a) := by
  unfold State.setAllocator
  split <;> exact ⟨rfl, rfl, rfl⟩

/-- Who asks for an identifier leaves the books alone, given one or not. -/
theorem harmless_next (d : Desk) : Harmless (next d) := by
  refine harmless_get_bind fun s => ?_
  dsimp only
  split
  · exact alike_setAllocator s d _
  · split
    · exact ⟨rfl, rfl, rfl⟩
    · exact harmless_popUnreserved _ _ _ s

end Desk

/-! ### Steps that may fail -/

/-- The calls that undo what was done. -/
def Call.undoing : List Call := [.lookup, .deletePrincipal, .deleteByIds]

/-- The records are in memory, and whatever may be out of service, what was done can be
undone. -/
structure State.Mends (s : State) : Prop where
  storage : s.storage = .memory
  works : ∀ c ∈ Call.undoing, c ∉ s.outages.map Prod.fst

theorem State.Mends.of_alike {s s' : State} (hs : s.Mends) (h : Alike s s') : s'.Mends :=
  ⟨h.storage.trans hs.storage, h.outages ▸ hs.works⟩

namespace Action

variable {s : State}

theorem perform_reach_of_storage (hs : s.storage = .memory) : reach.perform s = (.ok (), s) := by
  unfold reach
  rw [perform_bind, perform_get]
  simp only [hs, reduceCtorEq, if_false]
  rfl

/-- A call that gets at the records works, or it fails and nothing is changed. -/
theorem perform_callRecords_cases (hs : s.storage = .memory) (c : Call) :
    ∃ s', Alike s s' ∧
      ((∃ e, (callRecords c).perform s = (.error e, s')) ∨
        (callRecords c).perform s = (.ok (), s')) := by
  have halike := harmless_call c s
  unfold callRecords
  rw [perform_bind]
  rcases hcall : (call c).perform s with ⟨e | _, s'⟩
  · rw [hcall] at halike
    exact ⟨s', halike, .inl ⟨e, rfl⟩⟩
  · rw [hcall] at halike
    exact ⟨s', halike, .inr (perform_reach_of_storage (halike.storage.trans hs))⟩

theorem perform_callRecords_undoing (hs : s.Mends) {c : Call} (hc : c ∈ Call.undoing) :
    (callRecords c).perform s = (.ok (), s) := by
  have hcheck := Outages.check_of_not_mem (hs.works c hc)
  have hcall : (call c).perform s = (.ok (), s) := by
    unfold call
    rw [perform_bind, perform_get]
    dsimp only
    rw [hcheck]
    rfl
  unfold callRecords
  rw [perform_bind, hcall]
  exact perform_reach_of_storage hs.storage

end Action

namespace Step

/-- The steps that may fail, besides asking for an identifier. -/
def Unsure : {β : Type} → Step β → Prop
  | _, insertReservation _ | _, createPrincipal _ | _, merge _ _ _ _ => True
  | _, _ => False

/-- What a step may be answered on some books, and the books that it leaves: it does what it
does, or it fails and does nothing. -/
def May (b : Books) {β : Type} (c : Step β) (r : Except ServiceError β) (b' : Books) : Prop :=
  c.Does b r b' ∨ c.Unsure ∧ (∃ e, r = .error e) ∧ b' = b

variable {s : State}

/-- A change that is called for is made, or the call fails and nothing is changed. -/
theorem perform_change_cases (hs : s.Mends) {β : Type} (c : Call) (f : Tables → β × Tables) :
    let x : Action β := do callRecords c; change f
    (x.perform s).2.Mends ∧
      ((x.perform s).1 = .ok (f s.tables).1 ∧
          (x.perform s).2.books = { s.books with tables := (f s.tables).2 } ∨
        (∃ e, (x.perform s).1 = .error e) ∧ (x.perform s).2.books = s.books) := by
  intro x
  obtain ⟨s', halike, ⟨e, hcall⟩ | hcall⟩ := perform_callRecords_cases hs.storage c
  · have hx : x.perform s = (.error e, s') := by rw [perform_bind, hcall]
    rw [hx]
    exact ⟨hs.of_alike halike, .inr ⟨⟨e, rfl⟩, halike.books⟩⟩
  · have hx : x.perform s = (.ok (f s'.tables).1, { s' with tables := (f s'.tables).2 }) := by
      rw [perform_bind, hcall]
      rfl
    have htables : s'.tables = s.tables := congrArg Books.tables halike.books
    have htrail : s'.trail = s.trail := congrArg Books.trail halike.books
    rw [hx, htables]
    refine ⟨⟨halike.storage.trans hs.storage, halike.outages ▸ hs.works⟩, .inl ⟨rfl, ?_⟩⟩
    show Books.mk _ s'.trail = Books.mk _ s.trail
    rw [htrail]

theorem perform_change_undoing (hs : s.Mends) {β : Type} {c : Call} (hc : c ∈ Call.undoing)
    (f : Tables → β × Tables) :
    (do callRecords c; change f : Action β).perform s =
      (.ok (f s.tables).1, { s with tables := (f s.tables).2 }) := by
  rw [perform_bind, perform_callRecords_undoing hs hc]
  rfl

/-- A step does what is told of it, or it fails and does nothing. -/
theorem perform_may (hs : s.Mends) : ∀ {β : Type} (c : Step β),
    (c.perform.perform s).2.Mends ∧
      c.May s.books (c.perform.perform s).1 (c.perform.perform s).2.books
  | _, insertReservation r => by
    have hcases : ((Store.insertReservation r).perform s).2.Mends ∧ (_ ∨ _) :=
      perform_change_cases hs .insertReservation _
    obtain ⟨hs', ⟨hanswer, hbooks⟩ | hfailed⟩ := hcases
    · refine ⟨hs', .inl ?_⟩
      cases hins : s.tables.reservations.insert? r with
      | some reservations =>
        rw [hins] at hanswer hbooks
        exact .inl ⟨reservations, hins, hanswer, hbooks⟩
      | none =>
        rw [hins] at hanswer hbooks
        exact .inr ⟨hins, hanswer, hbooks⟩
    · exact ⟨hs', .inr ⟨trivial, hfailed⟩⟩
  | _, deleteIds ids => by
    rw [show (deleteIds ids).perform.perform s = _ from
      perform_change_undoing hs (by decide) _]
    exact ⟨⟨hs.storage, hs.works⟩, .inl ⟨rfl, rfl⟩⟩
  | _, freshId => ⟨hs.of_alike (Desk.harmless_next .registry s),
      .inl (Desk.harmless_next .registry s).books⟩
  | _, lookup p => by
    have hlookup : (lookup p).perform.perform s = (.ok (s.tables.directory.find? p), s) := by
      show (callRecords .lookup >>= fun _ => _ : Action _).perform s = _
      rw [perform_bind, perform_callRecords_undoing hs (by decide)]
      rfl
    rw [hlookup]
    exact ⟨hs, .inl ⟨rfl, rfl⟩⟩
  | _, createPrincipal r => by
    obtain ⟨hs', hdone | hfailed⟩ := perform_change_cases hs .createPrincipal
      fun t => ((t.directory.add r).1, { t with directory := (t.directory.add r).2 })
    · exact ⟨hs', .inl hdone⟩
    · exact ⟨hs', .inr ⟨trivial, hfailed⟩⟩
  | _, deletePrincipal p => by
    rw [show (deletePrincipal p).perform.perform s = _ from
      perform_change_undoing hs (by decide) _]
    exact ⟨⟨hs.storage, hs.works⟩, .inl ⟨rfl, rfl⟩⟩
  | _, merge k set kind expiration => by
    obtain ⟨hs', hdone | hfailed⟩ := perform_change_cases hs .merge
      fun t => ((), { t with permissions := t.permissions.merge [k] set kind expiration })
    · exact ⟨hs', .inl hdone⟩
    · exact ⟨hs', .inr ⟨trivial, hfailed⟩⟩
  | _, record e => ⟨⟨hs.storage, hs.works⟩, .inl ⟨rfl, rfl⟩⟩
  | _, log r => ⟨⟨hs.storage, hs.works⟩, .inl ⟨rfl, rfl⟩⟩
  | _, pause ms => ⟨⟨hs.storage, hs.works⟩, .inl ⟨rfl, rfl⟩⟩

end Step

/-! ### Procedures -/

namespace Procedure

/-- However its steps are answered, what a procedure comes to, begun on some books, meets a
postcondition, if all identifiers that it is given are of a kind. -/
def Comes (F : Identifier → Prop) (Q : Except ServiceError α → Books → Prop) :
    Procedure α → Books → Prop
  | done a, b => Q (.ok a) b
  | fail e, b => Q (.error e) b
  | step c next, b =>
    ∀ r b', c.May b r b' → (∀ id, .ok id ∈ c.asked r → F id) → (next r).Comes F Q b'

section

variable {F : Identifier → Prop} {P : Except ServiceError α → Books → Prop}
  {Q : Except ServiceError β → Books → Prop} {b : Books}

/-- The second procedure begins where the first one ends, if it does not fail. -/
theorem comes_bind {p : Procedure α} {f : α → Procedure β} (h : p.Comes F P b)
    (hf : ∀ a b', P (.ok a) b' → (f a).Comes F Q b')
    (he : ∀ e b', P (.error e) b' → Q (.error e) b') : (p >>= f).Comes F Q b := by
  induction p generalizing b with
  | done a => exact hf a b h
  | fail e => exact he e b h
  | step c next ih => exact fun r b' hmay hfree => ih r (h r b' hmay hfree)

theorem comes_attempt {p : Procedure α} {f : Except ServiceError α → Procedure β}
    (h : p.Comes F P b) (hf : ∀ r b', P r b' → (f r).Comes F Q b') :
    (p.attempt >>= f).Comes F Q b := by
  induction p generalizing b with
  | done a => exact hf _ b h
  | fail e => exact hf _ b h
  | step c next ih => exact fun r b' hmay hfree => ih r (h r b' hmay hfree)

theorem comes_attemptStep {c : Step α} {f : Except ServiceError α → Procedure β}
    (h : ∀ r b', c.May b r b' → (∀ id, .ok id ∈ c.asked r → F id) →
      (f r).Comes F Q b') : (attemptStep c >>= f).Comes F Q b := h

/-- A step that fails the procedure if it fails. -/
theorem comes_perform {c : Step α} {f : α → Procedure β}
    (hok : ∀ a b', c.May b (.ok a) b' → (∀ id, .ok id ∈ c.asked (.ok a) → F id) →
      (f a).Comes F Q b')
    (herror : ∀ e b', c.May b (.error e) b' → Q (.error e) b') :
    (perform c >>= f).Comes F Q b := by
  intro r b' hmay hfree
  cases r with
  | ok a => exact hok a b' hmay hfree
  | error e => exact herror e b' hmay

/-- A step that always does what it does, and is answered with a value. -/
theorem comes_perform_sure {c : Step α} {f : α → Procedure β} (hsure : ¬ c.Unsure)
    (h : ∀ r b', c.Does b r b' → ∃ a, r = .ok a ∧ (f a).Comes F Q b') :
    (perform c >>= f).Comes F Q b := by
  rintro r b' (hdoes | ⟨hunsure, -⟩) -
  · obtain ⟨a, rfl, hf⟩ := h r b' hdoes
    exact hf
  · exact absurd hunsure hsure

theorem comes_say {f : Unit → Procedure β} {level : Log.Level} {part : Log.Part}
    {message : String} {fields : List (String × Log.Value)} (h : (f ()).Comes F Q b) :
    (say level part message fields >>= f).Comes F Q b := by
  refine comes_perform_sure not_false ?_
  rintro _ _ ⟨rfl, rfl⟩
  exact ⟨(), rfl, h⟩

theorem comes_say_last {P : Except ServiceError Unit → Books → Prop} {level : Log.Level}
    {part : Log.Part} {message : String} {fields : List (String × Log.Value)}
    (h : P (.ok ()) b) : (say level part message fields).Comes F P b := by
  rintro _ _ (⟨rfl, rfl⟩ | ⟨hunsure, -⟩) -
  · exact h
  · exact hunsure.elim

/-- What a procedure comes to is what its run comes to, whatever is out of service that it
does not need to undo what it did. -/
theorem Comes.run {p : Procedure α} {s : State} (hs : s.Mends) (h : p.Comes F P s.books)
    (hfree : ∀ id, .ok id ∈ p.answers s → F id) :
    P (p.run.perform s).1 (p.run.perform s).2.books := by
  induction p generalizing s with
  | done a => exact h
  | fail e => exact h
  | step c next ih =>
    obtain ⟨hs', hmay⟩ := c.perform_may hs
    rw [perform_run_step]
    refine ih _ hs' (h _ _ hmay fun id hid => hfree id ?_) fun id hid => hfree id ?_
    · exact List.mem_append_left _ hid
    · exact List.mem_append_right _ hid

end

end Procedure
end AccessRegistry
