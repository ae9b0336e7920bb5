/-
# Names are bound as they were asked to be

Whatever happens to a registry, call by call or service by service, names and identifiers
are bound one to one, and in every state that it comes to each naming operation does to the
bindings exactly what it is asked to do: it adds, renames or removes the ones it names, and
leaves the others as they are.

Key definitions: `Happening`, `State.afterAll`, `Naming.Exact`.
Key theorems: `State.oneToOne_afterAll`, `Naming.exact_of_oneToOne`,
`Naming.names_are_exact`.
-/
import AccessRegistry.Proofs.Operations

namespace AccessRegistry

open AccessRegistry.Action

/-- A single call to the stores, or a service as a whole. -/
inductive Happening where
  | call (c : Tables.Change)
  | operation (o : Operation)

/-- What is done. -/
def Happening.action : Happening → Action Unit
  | call c => c.call
  | operation o => o.action

/-- The state after some things happened. -/
def State.afterAll (s : State) (hs : List Happening) : State :=
  hs.foldl (fun s x => (x.action.perform s).2) s

theorem State.afterAll_calls : ∀ (cs : List Tables.Change) {s : State}, s.InMemory →
    s.afterAll (cs.map .call) = { s with tables := cs.foldl Tables.Change.apply s.tables }
  | [], _, _ => rfl
  | c :: cs, s, hs => by
    show State.afterAll (c.call.perform s).2 (cs.map .call) = _
    rw [Tables.Change.perform_call hs c]
    exact afterAll_calls cs ⟨hs.storage, hs.outages⟩

theorem Tables.reservations_renamed (t : Tables)
    (answer : Except StoreError (Bool × Reservations)) :
    (Change.renamed t answer).reservations = t.reservations.answered answer := by
  rcases answer with e | ⟨found, reservations⟩ <;> rfl

/-- A change of the tables changes the reservations as one of their own changes, if at all. -/
theorem Tables.oneToOne_apply {t : Tables} (h : t.reservations.OneToOne) (c : Tables.Change) :
    (c.apply t).reservations.OneToOne := by
  cases c with
  | reserve r => exact Reservations.oneToOne_apply h (.reserve r)
  | renameByName old new =>
    rw [Change.apply, reservations_renamed]
    exact Reservations.oneToOne_apply h (.renameByName old new)
  | renameById id new =>
    rw [Change.apply, reservations_renamed]
    exact Reservations.oneToOne_apply h (.renameById id new)
  | deleteNames names => exact Reservations.oneToOne_apply h (.deleteNames names)
  | deleteIds ids => exact Reservations.oneToOne_apply h (.deleteIds ids)
  | _ => exact h

theorem Tables.oneToOne_foldl_apply : ∀ (cs : List Tables.Change) {t : Tables},
    t.reservations.OneToOne → (cs.foldl Tables.Change.apply t).reservations.OneToOne
  | [], _, h => h
  | c :: cs, _, h => oneToOne_foldl_apply cs (oneToOne_apply h c)

/-- In all tables that changes lead to names and identifiers are bound one to one. -/
theorem Tables.oneToOne_after (cs : List Tables.Change) : (after cs).reservations.OneToOne :=
  oneToOne_foldl_apply cs Reservations.oneToOne_empty

namespace State

theorem oneToOne_action {s : State} (hs : s.InMemory) (h : s.tables.reservations.OneToOne)
    (x : Happening) : (x.action.perform s).2.InMemory ∧
      (x.action.perform s).2.tables.reservations.OneToOne := by
  cases x with
  | call c =>
    show (c.call.perform s).2.InMemory ∧ (c.call.perform s).2.tables.reservations.OneToOne
    rw [Tables.Change.perform_call hs]
    exact ⟨⟨hs.storage, hs.outages⟩, Tables.oneToOne_apply h c⟩
  | operation o =>
    obtain ⟨hs', events, hrun, -⟩ := o.orderly s.books s hs rfl
    refine ⟨hs', hrun.keeps (P := fun t => t.reservations.OneToOne) (E := fun _ => True) ?_ ?_ h⟩
    · exact fun hstep _ => Tables.oneToOne_step hstep
    · exact fun _ _ => trivial

/-- Names and identifiers are bound one to one in every state that a registry comes to. -/
theorem oneToOne_afterAll : ∀ (hs : List Happening) {s : State}, s.InMemory →
    s.tables.reservations.OneToOne →
    (s.afterAll hs).InMemory ∧ (s.afterAll hs).tables.reservations.OneToOne
  | [], _, hs, h => ⟨hs, h⟩
  | x :: xs, _, hs, h => by
    obtain ⟨hs', h'⟩ := oneToOne_action hs h x
    exact oneToOne_afterAll xs hs' h'

end State

/-! ### What the naming operations do -/

namespace Naming

/-- What the naming operations do in a state, in which `t` are the reservations. -/
structure Exact (s : State) (t : Reservations) : Prop where
  /-- A name is bound to an identifier if and only if the record under the identifier has
  both. -/
  idOf_iff : ∀ name id, t.idOf? name = some id ↔
    ∃ r, t.find? id = some r ∧ r.name = name ∧ r.id = id
  /-- Every record lies under its own identifier, and its name is bound to it. -/
  record : ∀ id r, t.find? id = some r → r.id = id ∧ t.idOf? r.name = some id
  /-- A reservation of which neither the name nor the identifier is bound is added. -/
  insert_free : ∀ r, t.idOf? r.name = none → t.find? r.id = none →
    ∃ t', (Store.insertReservation r).perform s = (.ok (some r.id), s.withReservations t') ∧
      (∀ id, t'.find? id = if r.id = id then some r else t.find? id) ∧
      ∀ name, t'.idOf? name = if r.name = name then some r.id else t.idOf? name
  /-- Any other one is not. -/
  insert_bound : ∀ r, ¬ (t.idOf? r.name = none ∧ t.find? r.id = none) →
    (Store.insertReservation r).perform s = (.ok none, s)
  /-- An identifier that is not bound can be renamed to anything: nothing happens. -/
  rename_missing : ∀ id new, t.find? id = none →
    (Store.renameById id new).perform s = (.ok false, s) ∧ (renameById id new).Reads s ()
  /-- Nothing happens either if it has that name. -/
  rename_own : ∀ id r, t.find? id = some r →
    (Store.renameById id r.name).perform s = (.ok true, s) ∧
      (renameById id r.name).perform s = (.ok (), s)
  /-- A name of another identifier is a conflict, and nothing happens. -/
  rename_taken : ∀ id r new other, t.find? id = some r → t.idOf? new = some other → other ≠ id →
    (Store.renameById id new).perform s = (.error (.store (.nameTaken new)), s) ∧
      (renameById id new).perform s =
        (.error (.conflict s!"name '{new}' is already reserved"), s)
  /-- A name that nobody has is given: only the record's name changes. -/
  rename_free : ∀ id r new, t.find? id = some r → t.idOf? new = none →
    ∃ t', t.Renamed t' id new ∧
      (Store.renameById id new).perform s = (.ok true, s.withReservations t') ∧
      (renameById id new).perform s = (.ok (), s.withReservations t')
  /-- A name that is bound is renamed as its identifier is. -/
  rename_bound : ∀ old id new, t.idOf? old = some id → (Naming.idOf? old).Reads s (some id) ∧
    (Store.renameByName old new).perform s = (Store.renameById id new).perform s ∧
    (rename old new).perform s = (renameById id new).perform s
  /-- One that is not bound can be renamed to anything: nothing happens. -/
  rename_unbound : ∀ old new, t.idOf? old = none → (Naming.idOf? old).Reads s none ∧
    (Store.renameByName old new).perform s = (.ok false, s) ∧ (rename old new).Reads s ()
  /-- Renaming twice comes to the same as renaming once. -/
  rename_twice : ∀ old new,
    ((rename old new).perform ((rename old new).perform s).2).1 =
        ((rename old new).perform s).1 ∧
      ((rename old new).perform ((rename old new).perform s).2).2.tables =
        ((rename old new).perform s).2.tables
  /-- The bindings of some identifiers, and no others, are removed and counted. -/
  releaseIds : ∀ ids, ∃ t', (∀ id, t'.find? id = if id ∈ ids then none else t.find? id) ∧
    (∀ name, t'.idOf? name = (t.idOf? name).filter (· ∉ ids)) ∧
    (Store.deleteIds ids).perform s =
      (.ok (t.byId.toList.countP fun e => e.1 ∈ ids), s.withReservations t') ∧
    ∃ s', (Naming.releaseIds ids).run.perform s = (.ok (), s') ∧
      s'.books = s.books.withReservations t'
  /-- The bindings of some names, and no others, are removed and counted. -/
  releaseNames : ∀ names, ∃ t',
    (∀ name, t'.idOf? name = if name ∈ names then none else t.idOf? name) ∧
    (∀ id, t'.find? id = (t.find? id).filter fun r => r.name ∉ names) ∧
    (Store.deleteNames names).perform s =
      (.ok (t.byId.toList.countP fun e => e.2.name ∈ names), s.withReservations t') ∧
    ∃ s', (Naming.releaseNames names).perform s = (.ok (), s') ∧
      s'.books = s.books.withReservations t'

variable {s : State}

theorem perform_storeRename (hs : s.InMemory) (id : Identifier) (new : String) :
    (Store.renameById id new).perform s =
      match s.tables.reservations.rename id new with
      | .ok (found, t') => (.ok found, s.withReservations t')
      | .error e => (.error (.store e), s) :=
  Store.perform_renamed hs .renameById fun t => t.rename id new

theorem perform_storeRenameByName (hs : s.InMemory) (old new : String) :
    (Store.renameByName old new).perform s =
      match s.tables.reservations.renameByName old new with
      | .ok (found, t') => (.ok found, s.withReservations t')
      | .error e => (.error (.store e), s) :=
  Store.perform_renamed hs .renameByName fun t => t.renameByName old new

theorem reads_idOf? (hs : s.InMemory) (h : s.tables.reservations.OneToOne) (name : String) :
    (Naming.idOf? name).Reads s (s.tables.reservations.idOf? name) := by
  have hone : (s.tables.reservations.findByNames [name]).getLast?.map Reservation.id =
      s.tables.reservations.idOf? name := by
    unfold Reservations.findByNames Reservations.findByName?
    cases hid : s.tables.reservations.idOf? name with
    | none => simp [hid]
    | some id =>
      obtain ⟨r, hr, -, hrid⟩ := (Reservations.idOf?_eq_some_iff h).mp hid
      simp [hid, hr, hrid]
  rw [← hone]
  refine reads_bind (reads_bind
    (reads_callRecords hs .findByNames fun t => t.reservations.findByNames [name]) fun _ =>
      reads_pure _ _) fun _ => reads_pure _ _

/-- A renaming that is not refused takes over what the table says, and tells the log at
most. -/
theorem renamedTo_ok (s : State) (fields : List (String × Log.Value)) (found : Bool)
    (t' : Reservations) :
    ∃ log, renamedTo s fields (.ok (found, t')) = (.ok (), { s.withReservations t' with log }) := by
  cases found <;> exact ⟨_, rfl⟩

/-- A second renaming begins with what the first one left, and leaves that. -/
theorem rename_twice (hs : s.InMemory) (h : s.tables.reservations.OneToOne) (old new : String) :
    ((rename old new).perform ((rename old new).perform s).2).1 =
        ((rename old new).perform s).1 ∧
      ((rename old new).perform ((rename old new).perform s).2).2.tables =
        ((rename old new).perform s).2.tables := by
  have honce := perform_rename hs old new
  rcases hanswer : s.tables.reservations.renameByName old new with e | ⟨found, t'⟩
  · -- a conflict is the same conflict again
    rw [hanswer] at honce
    have hsame : (rename old new).perform s = (_, s) := honce
    rw [hsame]
    exact ⟨congrArg Prod.fst hsame, by rw [hsame]⟩
  · obtain ⟨found', hagain⟩ := Reservations.renameByName_twice h hanswer
    obtain ⟨log, hto⟩ := renamedTo_ok s [("old_name", .text old), ("new_name", .text new)] found t'
    rw [hanswer, hto] at honce
    have hs' : ({ s.withReservations t' with log } : State).InMemory := ⟨hs.storage, hs.outages⟩
    have htwice := perform_rename hs' old new
    obtain ⟨log', hto'⟩ := renamedTo_ok { s.withReservations t' with log }
      [("old_name", .text old), ("new_name", .text new)] found' t'
    rw [show ({ s.withReservations t' with log } : State).tables.reservations = t' from rfl, hagain,
      hto'] at htwice
    rw [honce, htwice]
    exact ⟨rfl, rfl⟩

/-- Where names and identifiers are bound one to one, the naming operations are exact. -/
theorem exact_of_oneToOne (hs : s.InMemory) (h : s.tables.reservations.OneToOne) :
    Exact s s.tables.reservations where
  idOf_iff _ _ := Reservations.idOf?_eq_some_iff h
  record := h.byId
  insert_free r hname hid := by
    obtain ⟨t', ht'⟩ := Option.isSome_iff_exists.mp (Reservations.isSome_insert?.mpr ⟨hname, hid⟩)
    refine ⟨t', ?_, Reservations.find?_insert ht', Reservations.idOf?_insert ht'⟩
    rw [Store.perform_insertReservation hs, ht']
  insert_bound r hbound := by
    have hnone := mt Reservations.isSome_insert?.mp hbound
    rw [Option.not_isSome_iff_eq_none] at hnone
    rw [Store.perform_insertReservation hs, hnone]
  rename_missing id new hid := by
    have hanswer : s.tables.reservations.rename id new = .ok (false, s.tables.reservations) :=
      Reservations.rename_missing hid
    refine ⟨?_, ?_⟩
    · rw [perform_storeRename hs, hanswer]
      rfl
    · obtain ⟨log, hto⟩ := renamedTo_ok s [("id", .text id.toText), ("new_name", .text new)] false
        s.tables.reservations
      exact ⟨log, by rw [perform_renameById hs, hanswer, hto]; rfl⟩
  rename_own id r hid := by
    have hanswer := Reservations.rename_same hid rfl
    rw [perform_storeRename hs, perform_renameById hs, hanswer]
    exact ⟨rfl, rfl⟩
  rename_taken id r new other hid hother hne := by
    have hanswer := Reservations.rename_taken h hid hother hne
    rw [perform_storeRename hs, perform_renameById hs, hanswer]
    exact ⟨rfl, rfl⟩
  rename_free id r new hid hfree := by
    obtain ⟨t', hanswer, hrenamed⟩ := Reservations.renamed_rename h hid hfree
    refine ⟨t', hrenamed, ?_⟩
    rw [perform_storeRename hs, perform_renameById hs, hanswer]
    exact ⟨rfl, rfl⟩
  rename_bound old id new hid := by
    have hanswer := Reservations.renameByName_bound hid new
    refine ⟨hid ▸ reads_idOf? hs h old, ?_, ?_⟩
    · rw [perform_storeRenameByName hs, perform_storeRename hs, hanswer]
    · obtain ⟨r, hr, -⟩ := h.byName old id hid
      rw [perform_rename hs, perform_renameById hs, hanswer]
      rcases Reservations.rename_bound hr new with ⟨t', ht'⟩ | ⟨e, he⟩
      · rw [ht']
        rfl
      · rw [he]
        rfl
  rename_unbound old new hid := by
    have hanswer := Reservations.renameByName_unbound hid new
    refine ⟨hid ▸ reads_idOf? hs h old, ?_, ?_⟩
    · rw [perform_storeRenameByName hs, hanswer]
      rfl
    · obtain ⟨log, hto⟩ := renamedTo_ok s [("old_name", .text old), ("new_name", .text new)] false
        s.tables.reservations
      exact ⟨log, by rw [perform_rename hs, hanswer, hto]; rfl⟩
  rename_twice := rename_twice hs h
  releaseIds ids := by
    obtain ⟨s', hperform, -, hbooks⟩ := perform_of_gives hs (gives_releaseIds ids)
    refine ⟨(Reservations.deleteIds ids s.tables.reservations).2,
      Reservations.find?_deleteIds ids _, Reservations.idOf?_deleteIds ids h, ?_,
      s', hperform, hbooks⟩
    rw [← Reservations.fst_deleteIds]
    exact perform_change hs _ _
  releaseNames names := by
    obtain ⟨s', hperform, -, hbooks⟩ := perform_of_gives hs (gives_releaseNames names)
    refine ⟨(Reservations.deleteNames names s.tables.reservations).2,
      Reservations.idOf?_deleteNames names h, Reservations.find?_deleteNames names h, ?_,
      s', hperform, hbooks⟩
    rw [← Reservations.fst_deleteNames names h]
    exact perform_change hs _ _

/-- **Names are bound as they were asked to be.** Wherever a registry comes to from a state
without reservations, by whichever calls and services, names and identifiers are bound one to
one, and what is done next to a name is exactly what is asked for. -/
theorem names_are_exact {s₀ : State} (h : s₀.InMemory)
    (hempty : s₀.tables.reservations = .empty) (hs : List Happening) :
    (s₀.afterAll hs).InMemory ∧
      Exact (s₀.afterAll hs) (s₀.afterAll hs).tables.reservations := by
  obtain ⟨hmemory, hone⟩ :=
    State.oneToOne_afterAll hs h (hempty ▸ Reservations.oneToOne_empty)
  exact ⟨hmemory, exact_of_oneToOne hmemory hone⟩

/-- Who was renamed and whose old name went to somebody else keeps the new name when the old
one is released, twice for good measure: one binding is removed. -/
theorem released_name_is_the_others :
    let a : Reservation := ⟨.single (.system 1), .study, .system 1, "a"⟩
    let b : Reservation := ⟨.single (.system 2), .study, .system 2, "a"⟩
    let s := (State.start {} ⟨0, 0⟩).afterAll
      [.call (.reserve a), .operation (.rename "a" "b"), .operation (.reserveWellKnown b)]
    ∃ (t' : Reservations), (Store.deleteNames ["a", "a"]).perform s =
        (.ok 1, s.withReservations t') ∧
      t'.find? a.id = some { a with name := "b" } ∧ t'.idOf? "a" = none := by
  intro a b s
  have hstart : (State.start {} ⟨0, 0⟩).InMemory := ⟨rfl, rfl⟩
  obtain ⟨-, hexact⟩ := names_are_exact hstart rfl
    [.call (.reserve a), .operation (.rename "a" "b"), .operation (.reserveWellKnown b)]
  obtain ⟨t', hname, hid, hperform, -⟩ := hexact.releaseNames ["a", "a"]
  have hcount : (s.tables.reservations.byId.toList.countP fun e => e.2.name ∈ ["a", "a"]) = 1 := by
    decide +kernel
  have hkept : s.tables.reservations.find? a.id = some { a with name := "b" } := by decide +kernel
  refine ⟨t', ?_, ?_, ?_⟩
  · rw [← hcount]
    exact hperform
  · rw [hid, hkept]
    decide
  · rw [hname, if_pos List.mem_cons_self]

end Naming
end AccessRegistry
