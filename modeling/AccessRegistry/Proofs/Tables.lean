/-
# The tables that a registry can have

The records are changed by some of the calls to the stores only, and each of these calls
changes the tables as one change says (`Tables.Change.perform_call`). What holds without
records and is kept by every change holds of all tables that a registry can have.

Key definitions: `Tables.Change`, `Tables.after`.
Key theorems: `Tables.Change.perform_call`, `Tables.directory_after`,
`Tables.tidy_memberships_after`.
-/
import AccessRegistry.Proofs.Actions
import AccessRegistry.Proofs.Directory
import AccessRegistry.Proofs.Graph.Edges
import AccessRegistry.Proofs.Permissions.Indexed

namespace AccessRegistry
namespace Tables

/-- The ways in which the tables are changed. -/
inductive Change where
  | ensureCursors (count : Nat)
  | saveCursor (c : Cursor)
  | scroll (ps : List Partition) (count : Nat)
  | reserve (r : Reservation)
  | renameByName (old new : String)
  | renameById (id : Identifier) (new : String)
  | deleteNames (names : List String)
  | deleteIds (ids : List Identifier)
  | permissions (c : Permissions.Change)
  | addEdge (child parent : AclKey)
  | removeEdge (child parent : AclKey)
  | removeAllEdges (key : AclKey)
  | directory (c : Directory.Change)

namespace Change

/-- The reservations after a renaming, which changes nothing if it is refused. -/
def renamed (t : Tables) (answer : Except StoreError (Bool × Reservations)) : Tables :=
  match answer with
  | .ok (_, reservations) => { t with reservations }
  | .error _ => t

theorem directory_renamed (t : Tables) (answer : Except StoreError (Bool × Reservations)) :
    (renamed t answer).directory = t.directory := by
  rcases answer with e | ⟨found, reservations⟩ <;> rfl

theorem memberships_renamed (t : Tables) (answer : Except StoreError (Bool × Reservations)) :
    (renamed t answer).memberships = t.memberships := by
  rcases answer with e | ⟨found, reservations⟩ <;> rfl

/-- The tables after a change. -/
def apply (t : Tables) : Change → Tables
  | ensureCursors count => { t with cursors := t.cursors.ensure count }
  | saveCursor c => { t with cursors := t.cursors.save c }
  | scroll ps count => { t with cursors := (Cursors.scroll count ps t.cursors).2 }
  | reserve r => { t with reservations := (t.reservations.insert? r).getD t.reservations }
  | renameByName old new => renamed t (t.reservations.renameByName old new)
  | renameById id new => renamed t (t.reservations.rename id new)
  | deleteNames names =>
    { t with reservations := (Reservations.deleteNames names t.reservations).2 }
  | deleteIds ids => { t with reservations := (Reservations.deleteIds ids t.reservations).2 }
  | permissions c => { t with permissions := c.apply t.permissions }
  | addEdge child parent => { t with memberships := (Memberships.add t.memberships child parent).2 }
  | removeEdge child parent =>
    { t with memberships := (Memberships.remove t.memberships child parent).2 }
  | removeAllEdges key => { t with memberships := (Memberships.removeAll t.memberships key).2 }
  | directory c => { t with directory := c.apply t.directory }

/-- The call that changes the entries. -/
def callEntries : Permissions.Change → Action Unit
  | .merge ks s kind expiration => Store.merge ks s kind expiration
  | .subtract ks s => Store.subtract ks s
  | .updateKind k kind => discard (Store.updateKind k kind)
  | .deleteOn key => discard (Store.deleteOn key)
  | .deleteOf p => discard (Store.deleteOf p)

/-- The call that changes the directory. -/
def callDirectory : Directory.Change → Action Unit
  | .add r => discard (Store.createPrincipal r)
  | .retitle key title => discard (Store.retitle key title)
  | .remove p => discard (Store.deletePrincipal p)

/-- The call that makes a change. -/
def call : Change → Action Unit
  | ensureCursors count => Store.ensureCursors count
  | saveCursor c => Store.saveCursor c
  | scroll ps count => discard (Store.scroll ps count)
  | reserve r => discard (Store.insertReservation r)
  | renameByName old new => discard (Store.renameByName old new)
  | renameById id new => discard (Store.renameById id new)
  | deleteNames names => discard (Store.deleteNames names)
  | deleteIds ids => discard (Store.deleteIds ids)
  | permissions c => callEntries c
  | addEdge child parent => discard (Store.addEdge child parent)
  | removeEdge child parent => discard (Store.removeEdge child parent)
  | removeAllEdges key => discard (Store.removeAllEdges key)
  | directory c => callDirectory c

variable {s : State}

theorem perform_change (h : s.InMemory) (c : Call) {α : Type} (f : Tables → α × Tables) :
    ((discard (do Action.callRecords c; Action.change f) : Action Unit).perform s).2 =
      { s with tables := (f s.tables).2 } := by
  rw [Action.snd_perform_discard, Action.perform_change h]

theorem perform_callEntries (h : s.InMemory) (c : Permissions.Change) :
    ((callEntries c).perform s).2 =
      { s with tables := { s.tables with permissions := c.apply s.tables.permissions } } := by
  cases c with
  | merge => exact congrArg Prod.snd (Action.perform_change h _ _)
  | subtract => exact congrArg Prod.snd (Action.perform_change h _ _)
  | updateKind => exact perform_change h _ _
  | deleteOn => exact perform_change h _ _
  | deleteOf => exact perform_change h _ _

theorem perform_callDirectory (h : s.InMemory) (c : Directory.Change) :
    ((callDirectory c).perform s).2 =
      { s with tables := { s.tables with directory := c.apply s.tables.directory } } := by
  cases c <;> exact perform_change h _ _

theorem perform_renamed (h : s.InMemory) (c : Call)
    (f : Reservations → Except StoreError (Bool × Reservations)) :
    ((discard (do Action.callRecords c; Store.renamed f) : Action Unit).perform s).2 =
      { s with tables := renamed s.tables (f s.tables.reservations) } := by
  rw [Action.snd_perform_discard, Action.perform_bind, Action.perform_callRecords h]
  unfold Store.renamed renamed
  dsimp only
  rw [Action.perform_bind, Action.perform_get]
  dsimp only
  rcases f s.tables.reservations with e | ⟨found, reservations⟩ <;> rfl

/-- A call to the stores changes the tables as its change says, and nothing else. -/
theorem perform_call (h : s.InMemory) (c : Change) :
    (c.call.perform s).2 = { s with tables := c.apply s.tables } := by
  cases c with
  | ensureCursors => exact congrArg Prod.snd (Action.perform_change h _ _)
  | saveCursor => exact congrArg Prod.snd (Action.perform_change h _ _)
  | reserve r =>
    refine (perform_change h _ _).trans ?_
    simp only [apply]
    cases s.tables.reservations.insert? r <;> rfl
  | renameByName => exact perform_renamed h _ _
  | renameById => exact perform_renamed h _ _
  | permissions c => exact perform_callEntries h c
  | directory c => exact perform_callDirectory h c
  | _ => exact perform_change h _ _

end Change

/-- The tables after a sequence of changes, beginning without records. -/
def after (changes : List Change) : Tables := changes.foldl Change.apply empty

/-- What a change has to do with the directory. -/
def Change.directory? : Change → Option Directory.Change
  | directory c => some c
  | _ => none

theorem directory_apply (t : Tables) (c : Change) :
    (c.apply t).directory = c.directory?.elim t.directory (Directory.Change.apply t.directory) := by
  cases c with
  | renameByName => exact Change.directory_renamed t _
  | renameById => exact Change.directory_renamed t _
  | _ => rfl

theorem directory_foldl_apply : ∀ (cs : List Change) (t : Tables),
    (cs.foldl Change.apply t).directory =
      (cs.filterMap Change.directory?).foldl Directory.Change.apply t.directory
  | [], _ => rfl
  | c :: cs, t => by
    rw [List.foldl_cons, directory_foldl_apply cs, directory_apply, List.filterMap_cons]
    cases c.directory? <;> rfl

theorem directory_after (cs : List Change) :
    (after cs).directory = Directory.after (cs.filterMap Change.directory?) :=
  directory_foldl_apply cs empty

/-- In all tables that changes lead to the two sides of the directory agree. -/
theorem consistent_directory_after (cs : List Change) : (after cs).directory.Consistent := by
  rw [directory_after]
  exact Directory.consistent_after _

/-- What a change has to do with the entries. -/
def Change.permissions? : Change → Option Permissions.Change
  | permissions c => some c
  | _ => none

theorem Change.permissions_renamed (t : Tables)
    (answer : Except StoreError (Bool × Reservations)) :
    (renamed t answer).permissions = t.permissions := by
  rcases answer with e | ⟨found, reservations⟩ <;> rfl

theorem permissions_apply (t : Tables) (c : Change) :
    (c.apply t).permissions =
      c.permissions?.elim t.permissions (Permissions.Change.apply t.permissions) := by
  cases c with
  | renameByName => exact Change.permissions_renamed t _
  | renameById => exact Change.permissions_renamed t _
  | _ => rfl

theorem permissions_foldl_apply : ∀ (cs : List Change) (t : Tables),
    (cs.foldl Change.apply t).permissions =
      (cs.filterMap Change.permissions?).foldl Permissions.Change.apply t.permissions
  | [], _ => rfl
  | c :: cs, t => by
    rw [List.foldl_cons, permissions_foldl_apply cs, permissions_apply, List.filterMap_cons]
    cases c.permissions? <;> rfl

theorem tidy_memberships_apply {t : Tables} (h : t.memberships.Tidy) (c : Change) :
    (c.apply t).memberships.Tidy := by
  cases c with
  | addEdge child parent => exact Index.tidy_add h child parent
  | removeEdge child parent => exact Index.tidy_drop h child parent
  | removeAllEdges key => exact Graph.tidy_removeAll t.memberships key
  | renameByName old new => exact (Change.memberships_renamed t _).symm ▸ h
  | renameById id new => exact (Change.memberships_renamed t _).symm ▸ h
  | _ => exact h

theorem tidy_memberships_foldl_apply : ∀ (cs : List Change) {t : Tables}, t.memberships.Tidy →
    (cs.foldl Change.apply t).memberships.Tidy
  | [], _, h => h
  | c :: cs, _, h => tidy_memberships_foldl_apply cs (tidy_memberships_apply h c)

/-- In all tables that changes lead to the memberships have no empty rows. -/
theorem tidy_memberships_after (cs : List Change) : (after cs).memberships.Tidy :=
  tidy_memberships_foldl_apply cs Index.tidy_empty

end Tables
end AccessRegistry
