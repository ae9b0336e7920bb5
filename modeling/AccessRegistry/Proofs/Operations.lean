/-
# Operations

What a registry is asked to do is an operation of a few kinds: the authorization and the
naming services have theirs, a request over HTTP is one more, and in between time passes and
identifiers are minted. Each operation takes the books further by steps that are recorded, so
that what the steps keep holds after every sequence of operations (`State.sound_after`).

Key definitions: `Operation`, `Operation.action`, `Operation.Asks`, `State.Blank`, `State.after`.
Key theorems: `Operation.Asks.idle`, `Operation.ends_naming`, `Operation.orderly`,
`State.preserves_after`, `State.advances_after`, `State.sound_after`.
-/
import AccessRegistry.Proofs.Http.Answers

namespace AccessRegistry

/-- Something else happens: whatever is not on the books becomes what it is elsewhere, and so
do the cursors. -/
def State.meanwhile (s elsewhere : State) : State :=
  { elsewhere with
    tables := { s.tables with cursors := elsewhere.tables.cursors }
    trail := s.trail
    storage := s.storage
    outages := s.outages }

/-- What a registry may be asked to do. -/
inductive Operation where
  | bootstrap
  | create (retry : Retry.Policy) (owner : Principal) (n : Authorization.NewPrincipal)
  | createIfAbsent (owner : Principal) (r : Registration)
  | delete (p : Principal)
  | grant (key : AclKey) (p : Principal) (s : PermissionSet) (kind : ObjectKind)
      (expiration : Option Instant)
  | revoke (key : AclKey) (p : Principal) (s : PermissionSet)
  | addMember (child parent : AclKey)
  | removeMember (child parent : AclKey)
  | updateTitle (p : Principal) (title : String)
  | updateKind (k : Entry.Key) (kind : ObjectKind)
  | lookup (p : Principal)
  | closure (p : Principal)
  | permissions (p : Principal) (keys : List AclKey)
  | check (p : Principal) (key : AclKey) (needed : PermissionSet)
  | has (p : Principal) (key : AclKey) (x : Permission)
  | query (q : Entry.Query)
  | ancestors (r : Registration)
  | closures (rs : List Registration)
  | register (retry : Retry.Policy) (o : Naming.NewObject) (id : Identifier)
  | reserveWellKnown (r : Reservation)
  | rename (old new : String)
  | renameById (id : Identifier) (new : String)
  | releaseIds (ids : List Identifier)
  | releaseNames (names : List String)
  | reservation (name : String)
  | idOf (name : String)
  | idsOf (names : List String)
  | nameOf (id : Identifier)
  | isReserved (name : String)
  /-- Somebody sends a request. -/
  | request (c : Config) (r : Http.Request)
  /-- Time passes, identifiers are minted and handed out, and the log is told something. -/
  | meanwhile (elsewhere : State)

namespace Operation

/-- What is done. What it gives is not looked at. -/
def action : Operation → Action Unit
  | bootstrap => Authorization.bootstrap
  | create retry owner n => discard (Authorization.createPrincipal retry owner n).run
  | createIfAbsent owner r => discard (Authorization.createIfAbsent owner r).run
  | delete p => Authorization.deletePrincipal p
  | grant key p s kind expiration => Authorization.grant key p s kind expiration
  | revoke key p s => Authorization.revoke key p s
  | addMember child parent => Authorization.addMember child parent
  | removeMember child parent => Authorization.removeMember child parent
  | updateTitle p title => Authorization.updateTitle p title
  | updateKind k kind => Authorization.updateKind k kind
  | lookup p => discard (Authorization.lookup p)
  | closure p => discard (Authorization.closure p)
  | permissions p keys => discard (Authorization.permissions p keys)
  | check p key needed => discard (Authorization.check p key needed)
  | has p key x => discard (Authorization.has p key x)
  | query q => discard (Store.query q)
  | ancestors r => discard (Graph.ancestors r)
  | closures rs => discard (Graph.closures rs)
  | register retry o id => discard (Naming.register retry o id).run
  | reserveWellKnown r => Naming.reserveWellKnown r
  | rename old new => Naming.rename old new
  | renameById id new => Naming.renameById id new
  | releaseIds ids => (Naming.releaseIds ids).run
  | releaseNames names => Naming.releaseNames names
  | reservation name => discard (Naming.reservation? name)
  | idOf name => discard (Naming.idOf? name)
  | idsOf names => discard (Naming.idsOf names)
  | nameOf id => discard (Naming.nameOf? id)
  | isReserved name => discard (Naming.isReserved name)
  | request c r => discard (ExceptT.lift (Http.answer c r))
  | meanwhile elsewhere => modify fun s => s.meanwhile elsewhere

variable {α : Type}

theorem orderly_discard {x : Action α} (h : Orderly x) : Orderly (discard x) :=
  orderly_bind h fun _ => (idle_pure ()).orderly

theorem idle_discard {x : Action α} (h : Idle x) : Idle (discard x) :=
  idle_bind h fun _ => idle_pure ()

/-- The operations that only ask. -/
def Asks : Operation → Prop
  | lookup _ | closure _ | permissions _ _ | check _ _ _ | has _ _ _ | query _ | ancestors _
  | closures _ | reservation _ | idOf _ | idsOf _ | nameOf _ | isReserved _ => True
  | _ => False

/-- Questions leave the books alone. -/
theorem Asks.idle {o : Operation} (h : o.Asks) : Idle o.action := by
  cases o with
  | lookup p => exact idle_discard (Authorization.idle_lookup p)
  | closure p =>
    exact idle_discard (Action.idle_of_reads fun _ hs => Authorization.reads_closure hs p)
  | permissions p keys =>
    exact idle_discard (Action.idle_of_reads fun _ hs => Authorization.reads_permissions hs p keys)
  | check p key needed =>
    exact idle_discard (Action.idle_of_reads fun _ hs => Authorization.reads_check hs p key needed)
  | has p key x =>
    exact idle_discard
      (Action.idle_of_reads fun _ hs => Authorization.reads_check hs p key (.ofList [x]))
  | query q => exact idle_discard (Action.idle_records .query fun t => t.permissions.query q)
  | ancestors r => exact idle_discard (Action.idle_of_reads fun _ hs => Graph.reads_ancestors hs r)
  | closures rs => exact idle_discard (Action.idle_of_reads fun _ hs => Graph.reads_closures hs rs)
  | reservation name => exact idle_discard (Naming.idle_reservation? name)
  | idOf name =>
    exact idle_discard (idle_bind (Naming.idle_reservation? name) fun _ => idle_pure _)
  | idsOf names =>
    exact idle_discard (idle_bind (Action.idle_records .findByNames fun t =>
      t.reservations.findByNames names) fun _ => idle_pure _)
  | nameOf id => exact idle_discard (Naming.idle_nameOf? id)
  | isReserved name =>
    exact idle_discard (idle_bind (Action.idle_records .countByName fun t =>
      t.reservations.count name) fun _ => idle_pure _)
  | _ => exact h.elim

/-- What the operations that only rename and release do to the reservations. -/
def naming? : Operation → Option Reservations.Change
  | rename old new => some (.renameByName old new)
  | renameById id new => some (.renameById id new)
  | releaseIds ids => some (.deleteIds ids)
  | releaseNames names => some (.deleteNames names)
  | _ => none

/-- Renaming and releasing change the reservations as the table says, and nothing else. -/
theorem ends_naming {o : Operation} {c : Reservations.Change} (h : o.naming? = some c)
    (b : Books) :
    Ends o.action b fun _ b' => b' = b.withReservations (c.apply b.tables.reservations) := by
  cases o with
  | rename old new =>
    obtain rfl := Option.some.inj h
    exact Naming.ends_of_renamedTo (f := fun t => t.renameByName old new)
      fun _ hs => Naming.perform_rename hs old new
  | renameById id new =>
    obtain rfl := Option.some.inj h
    exact Naming.ends_of_renamedTo (f := fun t => t.rename id new)
      fun _ hs => Naming.perform_renameById hs id new
  | releaseIds ids =>
    obtain rfl := Option.some.inj h
    exact (Naming.gives_releaseIds ids).ends rfl
  | releaseNames names =>
    obtain rfl := Option.some.inj h
    exact (Naming.gives_releaseNames names).ends rfl
  | _ => cases h

theorem orderly_request (c : Config) (r : Http.Request) :
    Orderly (ExceptT.lift (Http.answer c r) : Action Http.Response) := by
  rintro b s hs rfl
  obtain ⟨hs', hadv, -⟩ := Http.lossless_reply c r s hs
  exact ⟨hs', hadv⟩

theorem orderly_meanwhile (elsewhere : State) :
    Orderly (modify fun s => s.meanwhile elsewhere : Action PUnit) := by
  rintro b s hs rfl
  exact ⟨⟨hs.storage, hs.outages⟩, .of_silent (.cursors elsewhere.tables.cursors)⟩

/-- Every operation takes the books further by steps that are recorded. -/
theorem orderly (o : Operation) : Orderly o.action := by
  cases o with
  | bootstrap => exact Authorization.orderly_bootstrap
  | create retry owner n =>
    exact orderly_discard (Authorization.whole_createPrincipal retry owner n).orderly
  | createIfAbsent owner r =>
    exact orderly_discard (Authorization.whole_createIfAbsent owner r).orderly
  | delete p => exact (Authorization.whole_deletePrincipal p).orderly
  | grant key p s kind expiration =>
    exact (Authorization.whole_grant key p s kind expiration).orderly
  | revoke key p s => exact (Authorization.whole_revoke key p s).orderly
  | addMember child parent => exact (Authorization.whole_addMember child parent).orderly
  | removeMember child parent => exact (Authorization.whole_removeMember child parent).orderly
  | updateTitle p title => exact (Authorization.whole_updateTitle p title).orderly
  | updateKind k kind => exact (Authorization.whole_updateKind k kind).orderly
  | register retry o id => exact orderly_discard (Naming.orderly_register retry o id)
  | reserveWellKnown r => exact (Naming.whole_reserveWellKnown r).orderly
  | rename old new => exact (Naming.whole_rename old new).orderly
  | renameById id new => exact (Naming.whole_renameById id new).orderly
  | releaseIds ids => exact (Naming.whole_releaseIds ids).orderly
  | releaseNames names => exact (Naming.whole_releaseNames names).orderly
  | request c r => exact orderly_discard (orderly_request c r)
  | meanwhile elsewhere => exact orderly_meanwhile elsewhere
  | _ => exact Idle.orderly (Asks.idle (by trivial))

end Operation

/-! ### Sequences of operations -/

namespace State

/-- Nothing is on the books, and the records are in memory. -/
structure Blank (s : State) : Prop extends s.InMemory where
  tables : s.tables = { Tables.empty with cursors := s.tables.cursors }
  trail : s.trail = []

theorem blank_start (ids : IdSettings) (today : Instant) : (start ids today).Blank :=
  ⟨⟨rfl, rfl⟩, rfl, rfl⟩

/-- The state after some operations, whether they failed or not. -/
def after (s : State) (ops : List Operation) : State :=
  ops.foldl (fun s o => (o.action.perform s).2) s

variable {s : State}

/-- What every operation of a sequence keeps is kept by the sequence. -/
theorem preserves_after {P : State → Prop} : ∀ {ops : List Operation} {s : State},
    (∀ o ∈ ops, Preserves P o.action) → P s → P (s.after ops)
  | [], _, _, hs => hs
  | o :: ops, s, hops, hs => by
    obtain ⟨ho, hrest⟩ := List.forall_mem_cons.mp hops
    show P ((o.action.perform s).2.after ops)
    exact preserves_after hrest (ho s hs)

/-- Sequences of operations take the books further, as each of them does. -/
theorem advances_after (ops : List Operation) (hs : s.InMemory) :
    (s.after ops).InMemory ∧ s.books.Advances (s.after ops).books := by
  refine preserves_after (P := fun s' => s'.InMemory ∧ s.books.Advances s'.books)
    (fun o _ s' hs' => ?_) ⟨hs, .refl s.books⟩
  obtain ⟨hinMemory, hadv⟩ := hs'
  obtain ⟨hafter, hadv'⟩ := o.orderly s'.books s' hinMemory rfl
  exact ⟨hafter, hadv.trans hadv'⟩

theorem Blank.sound (h : s.Blank) : s.tables.Sound :=
  Tables.sound_of_empty (h.tables ▸ rfl) (h.tables ▸ rfl) (h.tables ▸ rfl) (h.tables ▸ rfl)

/-- After every sequence of operations the tables are sound. -/
theorem sound_after (h : s.Blank) (ops : List Operation) : (s.after ops).tables.Sound := by
  obtain ⟨events, hrun, -⟩ := (advances_after ops h.toInMemory).2
  exact Tables.sound_run hrun h.sound

end State
end AccessRegistry
