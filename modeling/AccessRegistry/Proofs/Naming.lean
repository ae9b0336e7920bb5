/-
# What the naming service leaves on the books

Registering an object binds one name to one identifier, or fails and binds nothing, however
often it was tried. Renaming goes as the table of reservations says, a refusal is a conflict,
and what is released is removed from the table.

Key theorems: `Naming.ends_register`, `Naming.perform_rename`, `Naming.perform_renameById`,
`Naming.gives_releaseIds`, `Naming.gives_releaseNames`, `Naming.whole_reserveWellKnown`.
-/
import AccessRegistry.Naming
import AccessRegistry.Proofs.Steps

namespace AccessRegistry

open AccessRegistry.Action

/-- The books with other reservations. -/
def Books.withReservations (b : Books) (reservations : Reservations) : Books :=
  { b with tables := { b.tables with reservations } }

theorem Books.advances_naming (b : Books) (c : Reservations.Change) :
    b.Advances (b.withReservations (c.apply b.tables.reservations)) :=
  .of_silent (.naming c)

/-- The state with other reservations. -/
def State.withReservations (s : State) (reservations : Reservations) : State :=
  { s with tables := { s.tables with reservations } }

variable {b : Books} {s : State}

namespace Store

theorem gives_insertReservation_free {r : Reservation} {reservations : Reservations}
    (h : b.tables.reservations.insert? r = some reservations) :
    Gives (insertReservation r) b (some r.id) (b.withReservations reservations) := by
  have hgives : Gives (insertReservation r) b _ _ := gives_change _ _
  simp only [h] at hgives
  exact hgives

theorem gives_insertReservation_taken {r : Reservation}
    (h : b.tables.reservations.insert? r = none) : Gives (insertReservation r) b none b := by
  have hgives : Gives (insertReservation r) b _ _ := gives_change _ _
  simp only [h] at hgives
  exact hgives

theorem perform_insertReservation (h : s.InMemory) (r : Reservation) :
    (insertReservation r).perform s =
      match s.tables.reservations.insert? r with
      | some t' => (.ok (some r.id), s.withReservations t')
      | none => (.ok none, s) := by
  refine (perform_change h _ _).trans ?_
  cases s.tables.reservations.insert? r <;> rfl

theorem gives_reservation? (id : Identifier) :
    Gives (reservation? id) b (b.tables.reservations.find? id) b :=
  gives_of_reads (f := fun t => t.reservations.find? id) fun _ hs => reads_callRecords hs _ _

theorem gives_deleteIds (ids : List Identifier) :
    Gives (deleteIds ids) b (Reservations.deleteIds ids b.tables.reservations).1
      (b.withReservations (Reservations.deleteIds ids b.tables.reservations).2) :=
  gives_change _ _

theorem gives_deleteNames (names : List String) :
    Gives (deleteNames names) b (Reservations.deleteNames names b.tables.reservations).1
      (b.withReservations (Reservations.deleteNames names b.tables.reservations).2) :=
  gives_change _ _

/-- A renaming that is refused is refused by the store; any other one is taken over. -/
theorem perform_renamed (h : s.InMemory) (c : Call)
    (f : Reservations → Except StoreError (Bool × Reservations)) :
    (do callRecords c; renamed f).perform s =
      match f s.tables.reservations with
      | .ok (found, reservations) => (.ok found, s.withReservations reservations)
      | .error e => (.error (.store e), s) := by
  rw [perform_bind, perform_callRecords h]
  unfold renamed
  dsimp only
  rw [perform_bind, perform_get]
  dsimp only
  rcases f s.tables.reservations with e | ⟨found, reservations⟩ <;> rfl

end Store

namespace Naming

theorem idle_reservation? (name : String) : Idle (Naming.reservation? name) :=
  idle_bind (idle_records .findByNames fun t => t.reservations.findByNames [name]) fun _ =>
    idle_pure _

theorem idle_nameOf? (id : Identifier) : Idle (nameOf? id) :=
  idle_bind (idle_records .findById fun t => t.reservations.find? id) fun _ => idle_pure _

/-! ### Registering -/

theorem NewObject.reservation_id (o : NewObject) (id : Identifier) : (o.reservation id).id = id :=
  AclKey.leaf_under o.path id

/-- What the books are after a registration. -/
def Registered (o : NewObject) (b b' : Books) : Except ServiceError Identifier → Prop
  | .ok id => ∃ reservations, b.tables.reservations.insert? (o.reservation id) = some reservations ∧
      b' = b.withReservations reservations
  | .error _ => b' = b

/-- A registration comes to its end whichever attempt succeeds. -/
theorem ends_registerFrom (retry : Retry.Policy) (o : NewObject) :
    ∀ (left attempt : Nat) (id : Identifier),
      Ends (registerFrom retry o attempt id left).run b fun r b' =>
        ∃ out : Outcome, r = .ok out ∧ Registered o b b' out.result
  | 0, _, _ => ends_pure ⟨_, rfl, rfl⟩
  | left + 1, attempt, id => by
    unfold registerFrom
    rw [Procedure.run_then, Procedure.run_attemptStep]
    cases hins : b.tables.reservations.insert? (o.reservation id) with
    | some reservations =>
      have hstep := Store.gives_insertReservation_free hins
      rw [o.reservation_id] at hstep
      refine gives_bind (gives_attempt hstep) ?_
      dsimp only
      rw [Procedure.run_then, Procedure.run_say]
      exact gives_bind (gives_say _ _ _ _) (ends_pure ⟨_, rfl, reservations, hins, rfl⟩)
    | none =>
      -- the attempt failed: what comes next begins with the same books
      have hstep := Store.gives_insertReservation_taken hins
      refine gives_bind (gives_attempt hstep) ?_
      dsimp only
      rw [Procedure.run_then, Procedure.run_say]
      refine gives_bind (gives_say _ _ _ _) ?_
      split
      · exact ends_pure ⟨_, rfl, rfl⟩
      · rw [Procedure.run_then, Procedure.run_attemptStep]
        refine ends_attempt_bind (Desk.idle_next .registry b) ?_
        intro next b' hb
        rw [hb]
        cases next with
        | error e => exact ends_pure ⟨_, rfl, rfl⟩
        | ok id =>
          dsimp only
          split
          · rw [Procedure.run_then, Procedure.run_perform]
            exact gives_bind (gives_wait _) (ends_registerFrom retry o left _ id)
          · exact ends_registerFrom retry o left _ id

/-- A registration binds one name to one identifier, or fails and binds none. -/
theorem ends_register (retry : Retry.Policy) (o : NewObject) (id : Identifier) :
    Ends (register retry o id).run b fun r b' =>
      ∃ out : Outcome, r = .ok out ∧ Registered o b b' out.result :=
  ends_registerFrom retry o _ _ id

theorem orderly_register (retry : Retry.Policy) (o : NewObject) (id : Identifier) :
    Orderly (register retry o id).run := fun b =>
  (ends_register retry o id).mono fun _ b' ⟨out, _, h⟩ => by
    cases hout : out.result with
    | error e =>
      rw [hout] at h
      exact h ▸ .refl b'
    | ok id =>
      rw [hout] at h
      obtain ⟨reservations, hins, rfl⟩ := h
      have hadv := b.advances_naming (.reserve (o.reservation id))
      rwa [Reservations.Change.apply, hins] at hadv

/-- A well-known name is reserved, or it is bound as it has to be, or nothing happens. -/
theorem whole_reserveWellKnown (r : Reservation) : Whole (reserveWellKnown r) := by
  intro b
  unfold reserveWellKnown
  cases hins : b.tables.reservations.insert? r with
  | some reservations =>
    refine gives_bind (Store.gives_insertReservation_free hins) (ends_pure ?_)
    have hadv := b.advances_naming (.reserve r)
    rwa [Reservations.Change.apply, hins] at hadv
  | none =>
    refine gives_bind (Store.gives_insertReservation_taken hins) ?_
    refine gives_bind (Store.gives_reservation? r.id) ?_
    cases b.tables.reservations.find? r.id with
    | none => exact ends_throw rfl
    | some bound =>
      dsimp only
      split
      · exact ends_pure (.refl b)
      · exact ends_throw rfl

/-! ### Renaming and releasing -/

/-- What is told of a renaming that found nothing. -/
def missingRecord (fields : List (String × Log.Value)) : Log.Record :=
  { level := .warn, part := .naming, message := "Rename of missing reservation ignored", fields }

/-- What a renaming comes to, and the state that it leaves. -/
def renamedTo (s : State) (fields : List (String × Log.Value)) :
    Except StoreError (Bool × Reservations) → Except ServiceError Unit × State
  | .ok (true, reservations) => (.ok (), s.withReservations reservations)
  | .ok (false, reservations) =>
    (.ok (), { s.withReservations reservations with log := s.log ++ [missingRecord fields] })
  | .error e => (.error (renameError (.store e)), s)

theorem perform_renaming (h : s.InMemory) (c : Call)
    (f : Reservations → Except StoreError (Bool × Reservations))
    (fields : List (String × Log.Value)) :
    (do
      match ← attempt (do callRecords c; Store.renamed f) with
      | .error e => throw (renameError e)
      | .ok true => return
      | .ok false => sayMissing fields : Action Unit).perform s =
      renamedTo s fields (f s.tables.reservations) := by
  rw [perform_bind, perform_attempt, Store.perform_renamed h]
  rcases f s.tables.reservations with e | ⟨_ | _, reservations⟩ <;> rfl

/-- Renaming by name goes as the table says. -/
theorem perform_rename (h : s.InMemory) (old new : String) :
    (rename old new).perform s =
      renamedTo s [("old_name", .text old), ("new_name", .text new)]
        (s.tables.reservations.renameByName old new) :=
  perform_renaming h _ _ _

theorem perform_renameById (h : s.InMemory) (id : Identifier) (new : String) :
    (renameById id new).perform s =
      renamedTo s [("id", .text id.toText), ("new_name", .text new)]
        (s.tables.reservations.rename id new) :=
  perform_renaming h _ _ _

theorem whole_of_renamedTo {x : Action Unit} {fields : List (String × Log.Value)}
    {f : Reservations → Except StoreError (Bool × Reservations)} {c : Reservations.Change}
    (hx : ∀ s : State, s.InMemory → x.perform s = renamedTo s fields (f s.tables.reservations))
    (hc : ∀ t, c.apply t = t.answered (f t)) : Whole x := by
  rintro b s hs rfl
  have hout : outcome x s = _ := hx s hs
  have hadv := s.books.advances_naming c
  rw [hc, show s.books.tables.reservations = s.tables.reservations from rfl] at hadv
  rw [hout]
  rcases hf : f s.tables.reservations with e | ⟨_ | _, reservations⟩
  · exact ⟨hs, rfl⟩
  · rw [hf] at hadv
    exact ⟨⟨hs.storage, hs.outages⟩, hadv⟩
  · rw [hf] at hadv
    exact ⟨⟨hs.storage, hs.outages⟩, hadv⟩

theorem ends_of_renamedTo {x : Action Unit} {fields : List (String × Log.Value)}
    {f : Reservations → Except StoreError (Bool × Reservations)}
    (hx : ∀ s : State, s.InMemory → x.perform s = renamedTo s fields (f s.tables.reservations)) :
    Ends x b fun _ b' => b' =
      b.withReservations (b.tables.reservations.answered (f b.tables.reservations)) := by
  rintro s hs rfl
  have hout : outcome x s = _ := hx s hs
  rw [hout, show s.books.tables.reservations = s.tables.reservations from rfl]
  rcases f s.tables.reservations with e | ⟨_ | _, reservations⟩
  · exact ⟨hs, rfl⟩
  · exact ⟨⟨hs.storage, hs.outages⟩, rfl⟩
  · exact ⟨⟨hs.storage, hs.outages⟩, rfl⟩

theorem whole_rename (old new : String) : Whole (rename old new) :=
  whole_of_renamedTo (c := .renameByName old new) (fun _ hs => perform_rename hs old new)
    fun _ => rfl

theorem whole_renameById (id : Identifier) (new : String) : Whole (renameById id new) :=
  whole_of_renamedTo (c := .renameById id new) (fun _ hs => perform_renameById hs id new)
    fun _ => rfl

/-- Exactly the bindings of the identifiers are removed, and the release does not fail. -/
theorem gives_releaseIds (ids : List Identifier) :
    Gives (releaseIds ids).run b ()
      (b.withReservations (Reservations.deleteIds ids b.tables.reservations).2) := by
  unfold releaseIds
  rw [Procedure.run_then, Procedure.run_perform]
  refine gives_bind (Store.gives_deleteIds ids) ?_
  split
  · rw [Procedure.run_say]
    exact gives_say _ _ _ _
  · exact ends_pure ⟨rfl, rfl⟩

theorem gives_releaseNames (names : List String) :
    Gives (releaseNames names) b ()
      (b.withReservations (Reservations.deleteNames names b.tables.reservations).2) := by
  unfold releaseNames
  refine gives_bind (Store.gives_deleteNames names) ?_
  split
  · exact gives_say _ _ _ _
  · exact ends_pure ⟨rfl, rfl⟩

theorem whole_releaseIds (ids : List Identifier) : Whole (releaseIds ids).run := fun b =>
  (gives_releaseIds ids).ends (b.advances_naming (.deleteIds ids))

theorem whole_releaseNames (names : List String) : Whole (releaseNames names) := fun b =>
  (gives_releaseNames names).ends (b.advances_naming (.deleteNames names))

end Naming
end AccessRegistry
