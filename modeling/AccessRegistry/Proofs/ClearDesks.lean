/-
# No operation puts a reserved identifier at a desk

Of all that the services do, only the creation of principals and the registration of objects ask
a desk for identifiers, and so does who wants some over HTTP; what is given back there was handed
out before. Everything else leaves the desks alone, whether the records are in reach or not. So
where nothing reserved waits at a desk, this stays so whatever operations follow.

Key theorems: `Http.Command.preserves_clear`, `Operation.preserves_clear`, `State.clear_after`.
-/
import AccessRegistry.Proofs.Operations
import AccessRegistry.Proofs.Supply.Unreserved

namespace AccessRegistry

open AccessRegistry.Action

variable {α β : Type}

namespace Action

theorem quiet_tables : Quiet tables := State.Unmoved.refl

theorem quiet_record (e : AuditEvent) : Quiet (record e) :=
  quiet_modify fun _ => ⟨rfl, rfl, rfl, rfl⟩

theorem preserves_clear_change (c : Call) {f : Tables → α × Tables}
    (hf : ∀ t, (f t).2.cursors = t.cursors) :
    Preserves State.Clear (do callRecords c; change f) := (quiet_change c hf).preserves_clear

theorem quiet_records (c : Call) (f : Tables → α) :
    Quiet (do callRecords c; return f (← tables)) :=
  quiet_bind (quiet_callRecords c) fun _ => State.Unmoved.refl

/-- A question that need not get at the records if it is about nothing. -/
theorem quiet_callUnless (c : Call) (idle : Bool) (none : α) (f : Tables → α) :
    Quiet (do
      call c
      if idle then return none
      reach
      return f (← tables)) := by
  refine quiet_bind (quiet_call c) fun _ => ?_
  split
  · exact quiet_pure none
  · exact quiet_bind quiet_reach fun _ => State.Unmoved.refl

theorem quiet_forIn {f : β → PUnit → Action (ForInStep PUnit)} (hf : ∀ b, Quiet (f b ⟨⟩)) :
    ∀ l : List β, Quiet (forIn l PUnit.unit f)
  | [] => quiet_pure _
  | b :: l => by
    rw [List.forIn_cons]
    refine quiet_bind (hf b) fun r => ?_
    cases r with
    | done => exact quiet_pure _
    | yield => exact quiet_forIn hf l

end Action

namespace Store

theorem quiet_lookup? (p : Principal) : Quiet (lookup? p) :=
  quiet_records .lookup fun t => t.directory.find? p

theorem quiet_lookupAt (keys : List AclKey) : Quiet (lookupAt keys) :=
  quiet_callUnless .lookupAt keys.isEmpty ∅ fun t => t.directory.findMany keys

theorem quiet_parents (keys : List AclKey) : Quiet (parents keys) :=
  quiet_callUnless .getParents keys.isEmpty ∅ fun t => Memberships.parents t.memberships keys

theorem quiet_query (q : Entry.Query) : Quiet (query q) :=
  quiet_records .query fun t => t.permissions.query q

theorem quiet_renamed (c : Call) (f : Reservations → Except StoreError (Bool × Reservations)) :
    Quiet (do callRecords c; renamed f) := by
  refine quiet_bind (quiet_callRecords c) fun _ => quiet_get_bind fun s => ?_
  split <;> exact ⟨rfl, rfl, rfl, rfl⟩

end Store

/-! ### Services -/

namespace Naming

theorem quiet_reserveWellKnown (r : Reservation) : Quiet (reserveWellKnown r) := by
  refine quiet_bind (Step.quiet_perform (.insertReservation r) fun _ => rfl) fun bound => ?_
  split
  · exact quiet_pure _
  · refine quiet_bind (quiet_records .findById fun t => t.reservations.find? r.id) fun found => ?_
    split
    · split
      · exact quiet_pure _
      · exact quiet_throw _
    · exact quiet_throw _

theorem quiet_reservation? (name : String) : Quiet (Naming.reservation? name) :=
  quiet_bind (quiet_records .findByNames fun t => t.reservations.findByNames [name]) fun _ =>
    quiet_pure _

theorem quiet_nameOf? (id : Identifier) : Quiet (nameOf? id) :=
  quiet_bind (quiet_records .findById fun t => t.reservations.find? id) fun _ => quiet_pure _

theorem quiet_rename (old new : String) : Quiet (rename old new) := by
  refine quiet_bind (quiet_attempt (Store.quiet_renamed .renameByName _)) fun result => ?_
  split
  · exact quiet_throw _
  · exact quiet_pure ()
  · exact quiet_say _ _ _ _

theorem quiet_renameById (id : Identifier) (new : String) : Quiet (renameById id new) := by
  refine quiet_bind (quiet_attempt (Store.quiet_renamed .renameById _)) fun result => ?_
  split
  · exact quiet_throw _
  · exact quiet_pure ()
  · exact quiet_say _ _ _ _

theorem quiet_releaseNames (names : List String) : Quiet (releaseNames names) := by
  refine quiet_bind (quiet_change .deleteByNames fun _ => rfl) fun deleted => ?_
  split
  · exact quiet_say _ _ _ _
  · exact quiet_pure ()

end Naming

namespace Graph

theorem quiet_sayDropped (fields : List (String × Log.Value)) (dropped : AclKey → Prop)
    [DecidablePred dropped] (keys : List AclKey) :
    Quiet (forIn keys PUnit.unit fun key _ => do
      if dropped key then sayDropped fields key
      return .yield ⟨⟩) := by
  refine quiet_forIn (fun key => ?_) keys
  split
  · exact quiet_bind (quiet_say _ _ _ _) fun _ => quiet_pure _
  · exact quiet_pure _

theorem quiet_climb : ∀ (more : Nat) (seen frontier : Keys), Quiet (climb seen frontier more)
  | 0, _, _ => quiet_pure _
  | more + 1, seen, frontier => by
    have hlayer : Quiet (layer frontier) := by
      unfold layer
      split
      · exact quiet_pure _
      · exact quiet_bind (Store.quiet_parents _) fun _ => quiet_pure _
    refine quiet_bind hlayer fun found => ?_
    dsimp only
    split
    · exact quiet_pure _
    · exact quiet_climb more _ _

theorem quiet_ancestors (r : Registration) : Quiet (ancestors r) := by
  refine quiet_bind quiet_tables fun _ => quiet_bind (quiet_climb _ _ _) fun _ => ?_
  refine quiet_bind (Store.quiet_lookupAt _) fun _ => ?_
  exact quiet_bind (quiet_sayDropped _ _ _) fun _ => quiet_pure _

theorem quiet_load : ∀ (more : Nat) (l : Loaded) (frontier : Keys), Quiet (load l frontier more)
  | 0, _, _ => quiet_pure _
  | more + 1, l, frontier => by
    unfold load
    split
    · exact quiet_pure _
    · exact quiet_bind (Store.quiet_parents _) fun _ => quiet_load more _ _

theorem quiet_closures (roots : List Registration) : Quiet (closures roots) := by
  refine quiet_bind quiet_tables fun _ => quiet_bind (quiet_load _ _ _) fun _ => ?_
  refine quiet_bind (Store.quiet_lookupAt _) fun _ => ?_
  refine quiet_bind (quiet_forIn (fun w => ?_) _) fun _ => ?_
  · exact quiet_bind (quiet_sayDropped _ _ _) fun _ => quiet_pure _
  · exact quiet_bind (quiet_say _ _ _ _) fun _ => quiet_pure _

end Graph

namespace Authorization

theorem quiet_closure (p : Principal) : Quiet (closure p) := by
  refine quiet_bind (Store.quiet_lookup? p) fun found => ?_
  cases found with
  | none => exact quiet_pure _
  | some r => exact quiet_bind (Graph.quiet_closures [r]) fun _ => quiet_pure _

theorem quiet_permissions (p : Principal) (keys : List AclKey) : Quiet (permissions p keys) := by
  unfold permissions
  split
  · exact quiet_pure _
  · refine quiet_bind (quiet_closure p) fun _ => ?_
    refine quiet_bind (quiet_callUnless .getEntries _ ∅ fun t => t.permissions.findMany _) ?_
    exact fun _ => quiet_bind quiet_get fun _ => quiet_pure _

theorem quiet_check (p : Principal) (key : AclKey) (needed : PermissionSet) :
    Quiet (check p key needed) :=
  quiet_bind (quiet_permissions p [key]) fun _ => quiet_pure _

theorem quiet_grant (key : AclKey) (p : Principal) (s : PermissionSet) (kind : ObjectKind)
    (expiration : Option Instant) : Quiet (grant key p s kind expiration) := by
  unfold grant
  split
  · exact quiet_pure ()
  · exact quiet_bind (quiet_change .merge fun _ => rfl) fun _ => quiet_record _

theorem quiet_revoke (key : AclKey) (p : Principal) (s : PermissionSet) :
    Quiet (revoke key p s) := by
  unfold revoke
  split
  · exact quiet_pure ()
  · exact quiet_bind (quiet_change .subtract fun _ => rfl) fun _ => quiet_record _

theorem quiet_updateKind (k : Entry.Key) (kind : ObjectKind) : Quiet (updateKind k kind) := by
  refine quiet_bind (quiet_change .updateKind fun _ => rfl) fun found => ?_
  split
  · exact quiet_pure ()
  · exact quiet_throw _

theorem quiet_lookup (p : Principal) : Quiet (lookup p) := by
  refine quiet_bind (Store.quiet_lookup? p) fun found => ?_
  cases found with
  | none => exact quiet_throw _
  | some r => exact quiet_pure r

theorem quiet_updateTitle (p : Principal) (title : String) : Quiet (updateTitle p title) :=
  quiet_bind (quiet_lookup p) fun _ =>
    quiet_bind (quiet_change .retitle fun _ => rfl) fun _ => quiet_pure ()

theorem quiet_addMember (child parent : AclKey) : Quiet (addMember child parent) := by
  refine quiet_bind (Store.quiet_lookupAt _) fun found => ?_
  split
  · exact quiet_throw _
  · rename_i member _
    have hadd : Quiet (do
        if ← Store.addEdge child parent then
          Action.record (.membershipAdded member.principal parent)) := by
      refine quiet_bind (quiet_change .addEdge fun _ => rfl) fun isNew => ?_
      split
      · exact quiet_record _
      · exact quiet_pure ()
    split
    · exact quiet_bind (quiet_throw _) fun _ => hadd
    · exact hadd

theorem quiet_removeMember (child parent : AclKey) : Quiet (removeMember child parent) := by
  refine quiet_bind (quiet_change .removeEdge fun _ => rfl) fun found => ?_
  split
  · exact quiet_bind (Store.quiet_lookupAt _) fun _ => quiet_record _
  · exact quiet_say _ _ _ _

theorem preserves_clear_deletePrincipal (p : Principal) :
    Preserves State.Clear (deletePrincipal p) := by
  refine preserves_bind (quiet_lookup p).preserves_clear fun r => ?_
  refine preserves_bind (preserves_clear_change .removeAllEdges fun _ => rfl) fun _ => ?_
  refine preserves_bind (preserves_clear_change .deleteOf fun _ => rfl) fun _ => ?_
  refine preserves_bind (preserves_clear_change .deleteOn fun _ => rfl) fun _ => ?_
  refine preserves_bind (preserves_clear_change .deletePrincipal fun _ => rfl) fun _ => ?_
  exact preserves_bind (Procedure.preserves_clear _) fun _ => (quiet_record _).preserves_clear

theorem preserves_clear_createStandard : ∀ rs : List Registration,
    Preserves State.Clear (createStandard rs)
  | [] => preserves_pure 0
  | _ :: rs =>
    preserves_bind (Naming.quiet_reserveWellKnown _).preserves_clear fun _ =>
      preserves_bind (Procedure.preserves_clear _) fun _ =>
        preserves_bind (preserves_clear_createStandard rs) fun _ => preserves_pure _

theorem preserves_clear_bootstrap : Preserves State.Clear bootstrap :=
  preserves_bind (preserves_clear_createStandard _) fun _ =>
    preserves_bind (quiet_addMember _ _).preserves_clear fun _ =>
      (quiet_say _ _ _ _).preserves_clear

end Authorization

/-! ### Requests and operations -/

namespace Http

/-- No command puts anything reserved at a desk. -/
theorem Command.preserves_clear (c : Config) (command : Command) :
    Preserves State.Clear (command.perform c) := by
  cases command with
  | health =>
    refine preserves_bind (preserves_health (fun _ _ hs => hs.congr rfl rfl) (fun call => ?_) c)
      fun _ => preserves_pure _
    exact (quiet_call call).preserves_clear
  | metrics => exact preserves_get_bind fun _ => preserves_pure _
  | allocate count => exact preserves_ask_pure (Desk.clears_nextMany .front count).preserves _
  | reservation name =>
    exact preserves_ask_found (Naming.quiet_reservation? name).preserves_clear _ _
  | nameOf id => exact preserves_ask_found (Naming.quiet_nameOf? id).preserves_clear _ _
  | rename old new => exact preserves_ask_pure (Naming.quiet_rename old new).preserves_clear _
  | release name => exact preserves_ask_pure (Naming.quiet_releaseNames [name]).preserves_clear _
  | create owner n => exact preserves_ask_pure (Procedure.preserves_clear _) _
  | lookup p => exact preserves_ask_pure (Authorization.quiet_lookup p).preserves_clear _
  | retitle p title =>
    exact preserves_ask_pure (Authorization.quiet_updateTitle p title).preserves_clear _
  | delete p => exact preserves_ask_pure (Authorization.preserves_clear_deletePrincipal p) _
  | closure p => exact preserves_ask_pure (Authorization.quiet_closure p).preserves_clear _
  | addMember child parent =>
    exact preserves_ask_pure (Authorization.quiet_addMember child parent).preserves_clear _
  | removeMember child parent =>
    exact preserves_ask_pure (Authorization.quiet_removeMember child parent).preserves_clear _
  | grant key p s kind expiration =>
    exact preserves_ask_pure (Authorization.quiet_grant key p s kind expiration).preserves_clear _
  | revoke key p s =>
    exact preserves_ask_pure (Authorization.quiet_revoke key p s).preserves_clear _
  | check p keys needed =>
    exact preserves_ask_pure (Authorization.quiet_permissions p keys).preserves_clear _
  | query q => exact preserves_ask_pure (Store.quiet_query q).preserves_clear _

theorem clear_answer (c : Config) (r : Request) {s : State} (hs : s.Clear) :
    ((answer c r).run s).2.Clear :=
  keeps_answer (fun _ _ hs => hs.congr rfl rfl) c
    (fun _ command _ _ => command.preserves_clear c) hs

end Http

theorem State.Clear.meanwhile (s : State) {elsewhere : State} (h : elsewhere.Clear) :
    (s.meanwhile elsewhere).Clear := h.congr rfl rfl

/-- No operation puts anything reserved at a desk, and what happens besides does not if it
leaves nothing reserved there. -/
theorem Operation.preserves_clear {o : Operation}
    (h : ∀ elsewhere, o = .meanwhile elsewhere → elsewhere.Clear) :
    Preserves State.Clear o.action := by
  cases o with
  | bootstrap => exact Authorization.preserves_clear_bootstrap
  | create | createIfAbsent | register => exact preserves_discard (Procedure.preserves_clear _)
  | releaseIds => exact Procedure.preserves_clear _
  | delete p => exact Authorization.preserves_clear_deletePrincipal p
  | grant key p s kind expiration =>
    exact (Authorization.quiet_grant key p s kind expiration).preserves_clear
  | revoke key p s => exact (Authorization.quiet_revoke key p s).preserves_clear
  | addMember child parent => exact (Authorization.quiet_addMember child parent).preserves_clear
  | removeMember child parent =>
    exact (Authorization.quiet_removeMember child parent).preserves_clear
  | updateTitle p title => exact (Authorization.quiet_updateTitle p title).preserves_clear
  | updateKind k kind => exact (Authorization.quiet_updateKind k kind).preserves_clear
  | lookup p => exact preserves_discard (Authorization.quiet_lookup p).preserves_clear
  | closure p => exact preserves_discard (Authorization.quiet_closure p).preserves_clear
  | permissions p keys =>
    exact preserves_discard (Authorization.quiet_permissions p keys).preserves_clear
  | check p key needed =>
    exact preserves_discard (Authorization.quiet_check p key needed).preserves_clear
  | has p key x => exact preserves_discard (Authorization.quiet_check p key _).preserves_clear
  | query q => exact preserves_discard (Store.quiet_query q).preserves_clear
  | ancestors r => exact preserves_discard (Graph.quiet_ancestors r).preserves_clear
  | closures rs => exact preserves_discard (Graph.quiet_closures rs).preserves_clear
  | reserveWellKnown r => exact (Naming.quiet_reserveWellKnown r).preserves_clear
  | rename old new => exact (Naming.quiet_rename old new).preserves_clear
  | renameById id new => exact (Naming.quiet_renameById id new).preserves_clear
  | releaseNames names => exact (Naming.quiet_releaseNames names).preserves_clear
  | reservation name => exact preserves_discard (Naming.quiet_reservation? name).preserves_clear
  | idOf name =>
    exact preserves_discard
      (quiet_bind (Naming.quiet_reservation? name) fun _ => quiet_pure _).preserves_clear
  | idsOf names =>
    exact preserves_discard (quiet_bind (quiet_records .findByNames fun t =>
      t.reservations.findByNames names) fun _ => quiet_pure _).preserves_clear
  | nameOf id => exact preserves_discard (Naming.quiet_nameOf? id).preserves_clear
  | isReserved name =>
    exact preserves_discard (quiet_bind (quiet_records .countByName fun t =>
      t.reservations.count name) fun _ => quiet_pure _).preserves_clear
  | request c r => exact preserves_discard fun _ hs => Http.clear_answer c r hs
  | meanwhile elsewhere => exact fun s _ => .meanwhile s (h elsewhere rfl)

/-- Whatever operations follow, nothing reserved waits at a desk. -/
theorem State.clear_after (ops : List Operation) {s : State} (hs : s.Clear)
    (hops : ∀ elsewhere, .meanwhile elsewhere ∈ ops → elsewhere.Clear) : (s.after ops).Clear := by
  refine preserves_after (fun o ho => o.preserves_clear ?_) hs
  rintro elsewhere rfl
  exact hops elsewhere ho

end AccessRegistry
