/-
# A closed database lets nothing through

Where the connections of the database are closed, the first call of a service that gets at
the records is refused, and a service that is refused stops there. Services do not change
anything before that call, and none of them takes the refusal for an answer: each fails with
the error of the database and leaves the state as it was (`Operation.refused`). The only
services that answer all the same are those that are asked about nothing: for the permissions
on no objects, and for a grant or a withdrawal of no permissions.

Over HTTP the error of the database is told without its reason (`Http.fail_database`), and so
is every request for something that hangs on the records (`Http.answer_closed`).

Key definitions: `State.Closed`, `Action.Refused`, `Operation.NeedsRecords`,
`Http.Command.NeedsRecords`, `State.FailsClosed`.
Key theorems: `Action.Refused.bind`, `Procedure.refused_run`, `Operation.refused`,
`Http.Command.refused`, `Http.answer_closed`, `State.fails_closed`.
-/
import AccessRegistry.Proofs.Http.Guard
import AccessRegistry.Proofs.Operations
import AccessRegistry.Proofs.Results

namespace AccessRegistry

/-- The records are in a database whose connections are closed; nothing else is out of
service. -/
structure State.Closed (s : State) : Prop where
  storage : s.storage = .closedDatabase
  outages : s.outages = []

variable {α β : Type} {s : State}

namespace Action

/-- The error of a database that is closed. -/
def closedError : ServiceError := .store (.database closedReason)

/-- The closed database refuses an action, which has not changed anything. -/
def Refused (x : Action α) (s : State) : Prop := x.perform s = (.error closedError, s)

variable {x : Action α} {f : α → Action β}

theorem refused_throw (s : State) : (throw closedError : Action α).Refused s := rfl

/-- What is refused at first is refused. -/
theorem Refused.bind (h : x.Refused s) (f : α → Action β) : (x >>= f).Refused s := by
  unfold Refused
  rw [perform_bind, h]

theorem Refused.discard (h : x.Refused s) : (Functor.discard x : Action Unit).Refused s :=
  h.bind fun _ => pure ()

/-- What comes before may give a value if it does nothing else. -/
theorem refused_bind {a : α} (hx : x.perform s = (.ok a, s)) (hf : (f a).Refused s) :
    (x >>= f).Refused s := by
  unfold Refused
  rw [perform_bind, hx]
  exact hf

/-- A refusal that is taken for a value has to be passed on. -/
theorem refused_attempt {f : Except ServiceError α → Action β} (hx : x.Refused s)
    (hf : (f (.error closedError)).Refused s) : (attempt x >>= f).Refused s := by
  refine refused_bind ?_ hf
  rw [perform_attempt, hx]

variable (h : s.Closed)
include h

theorem refused_reach : reach.Refused s := by
  unfold Refused reach
  rw [perform_bind, perform_get]
  simp only [h.storage, if_true]
  rfl

theorem perform_call_closed (c : Call) : (call c).perform s = (.ok (), s) :=
  perform_call_of_outages h.outages c

theorem refused_callRecords (c : Call) : (callRecords c).Refused s :=
  refused_bind (perform_call_closed h c) (refused_reach h)

theorem refused_callUnless (c : Call) {idle : Bool} (hidle : idle = false) (a : α)
    (f : Tables → α) :
    (do
      call c
      if idle then return a
      reach
      return f (← tables) : Action α).Refused s := by
  subst hidle
  exact refused_bind (perform_call_closed h c) ((refused_reach h).bind _)

end Action

open AccessRegistry.Action

namespace Procedure

theorem refused_run {t : Step β} (h : t.perform.Refused s) (f : β → Procedure α) :
    (Procedure.perform t >>= f).run.Refused s :=
  refused_attempt h (refused_throw s)

/-- A step whose error is a value hands on the refusal. -/
theorem perform_run_attemptStep {t : Step β} (h : t.perform.Refused s)
    (f : Except ServiceError β → Procedure α) :
    (Procedure.attemptStep t >>= f).run.perform s = (f (.error closedError)).run.perform s := by
  show (Action.attempt t.perform >>= fun r => (f r).run).perform s = _
  rw [perform_bind, perform_attempt, h]

end Procedure

section

variable (h : s.Closed)
include h

/-! ### Stores and services -/

namespace Store

theorem refused_lookup? (p : Principal) : (lookup? p).Refused s :=
  (refused_callRecords h .lookup).bind _

theorem refused_lookupAt {keys : List AclKey} (hkeys : keys ≠ []) : (lookupAt keys).Refused s :=
  refused_callUnless h .lookupAt (List.isEmpty_eq_false_iff.mpr hkeys) _ _

theorem refused_parents {keys : List AclKey} (hkeys : keys ≠ []) : (parents keys).Refused s :=
  refused_callUnless h .getParents (List.isEmpty_eq_false_iff.mpr hkeys) _ _

theorem refused_insertReservation (r : Reservation) : (insertReservation r).Refused s :=
  (refused_callRecords h .insertReservation).bind _

end Store

namespace Graph

theorem refused_parents {keys : Keys} {key : AclKey} (hkey : key ∈ keys) :
    (Store.parents keys.toList).Refused s :=
  Store.refused_parents h (List.ne_nil_of_mem (Std.ExtTreeSet.mem_toList.mpr hkey))

theorem refused_ancestors (r : Registration) : (ancestors r).Refused s := by
  have hkey : r.aclKey ∈ (Std.ExtTreeSet.ofList [r.aclKey] : Keys) :=
    mem_setOfList.mpr List.mem_cons_self
  refine refused_bind (a := s.tables) rfl (Refused.bind (Refused.bind ?_ _) _)
  unfold layer
  rw [if_neg (by simp)]
  exact (refused_parents h hkey).bind _

theorem refused_closures {rs : List Registration} (hrs : rs ≠ []) : (closures rs).Refused s := by
  obtain ⟨r, rest, rfl⟩ := List.exists_cons_of_ne_nil hrs
  have hkey : r.aclKey ∈ (Std.ExtTreeSet.ofList ((r :: rest).map Registration.aclKey) : Keys) :=
    mem_setOfList.mpr List.mem_cons_self
  refine refused_bind (a := s.tables) rfl (Refused.bind ?_ _)
  unfold load
  rw [if_neg (by simp)]
  exact (refused_parents h hkey).bind _

end Graph

namespace Naming

theorem refused_reserveWellKnown (r : Reservation) : (reserveWellKnown r).Refused s :=
  (Store.refused_insertReservation h r).bind _

theorem refused_rename (old new : String) : (rename old new).Refused s :=
  refused_attempt ((refused_callRecords h .renameByName).bind _) (refused_throw s)

theorem refused_renameById (id : Identifier) (new : String) : (renameById id new).Refused s :=
  refused_attempt ((refused_callRecords h .renameById).bind _) (refused_throw s)

theorem refused_releaseIds (ids : List Identifier) : (releaseIds ids).run.Refused s :=
  Procedure.refused_run ((refused_callRecords h .deleteByIds).bind _) _

/-- A registration ends with the error, and the object keeps its identifier. -/
theorem perform_register {retry : Retry.Policy} (hretry : 0 < retry.maxAttempts) (o : NewObject)
    (id : Identifier) :
    (register retry o id).run.perform s = (.ok ⟨id, .error closedError⟩, s) := by
  obtain ⟨left, hleft⟩ := Nat.exists_eq_add_one_of_ne_zero (Nat.ne_of_gt hretry)
  unfold register
  rw [hleft, registerFrom]
  exact Procedure.perform_run_attemptStep (t := .insertReservation (o.reservation id))
    (Store.refused_insertReservation h _) _

end Naming

namespace Authorization

theorem refused_closure (p : Principal) : (closure p).Refused s :=
  (Store.refused_lookup? h p).bind _

theorem refused_permissions (p : Principal) {keys : List AclKey} (hkeys : keys ≠ []) :
    (permissions p keys).Refused s := by
  unfold permissions
  rw [if_neg (by simpa using hkeys)]
  exact (refused_closure h p).bind _

theorem refused_grant (key : AclKey) (p : Principal) {set : PermissionSet}
    (hset : set.isEmpty = false) (kind : ObjectKind) (expiration : Option Instant) :
    (grant key p set kind expiration).Refused s := by
  unfold grant
  rw [if_neg (by simp [hset])]
  exact ((refused_callRecords h .merge).bind _).bind _

theorem refused_revoke (key : AclKey) (p : Principal) {set : PermissionSet}
    (hset : set.isEmpty = false) : (revoke key p set).Refused s := by
  unfold revoke
  rw [if_neg (by simp [hset])]
  exact ((refused_callRecords h .subtract).bind _).bind _

theorem refused_lookup (p : Principal) : (lookup p).Refused s :=
  (Store.refused_lookup? h p).bind _

theorem refused_createIfAbsent (owner : Principal) (r : Registration) :
    (createIfAbsent owner r).run.Refused s :=
  Procedure.refused_run ((refused_callRecords h .createPrincipal).bind _) _

theorem refused_createPrincipal (retry : Retry.Policy) (owner : Principal) (n : NewPrincipal) :
    (createPrincipal retry owner n).run.Refused s :=
  Procedure.refused_run (t := .lookup n.principal) (Store.refused_lookup? h n.principal) _

theorem refused_bootstrap : bootstrap.Refused s :=
  Refused.bind ((Naming.refused_reserveWellKnown h _).bind _) _

end Authorization

end

/-- Whether an operation of the services hangs on the records: all do but those that are
asked about nothing. How a registration ends is told by its outcome; a request is not an
operation of the services, and neither is what happens elsewhere. -/
def Operation.NeedsRecords : Operation → Prop
  | grant _ _ set _ _ | revoke _ _ set => set.isEmpty = false
  | permissions _ keys => keys ≠ []
  | closures rs => rs ≠ []
  | register .. | request .. | meanwhile .. => False
  | _ => True

/-- Every operation that hangs on the records is refused. -/
theorem Operation.refused (h : s.Closed) {o : Operation} (ho : o.NeedsRecords) :
    o.action.Refused s := by
  cases o with
  | bootstrap => exact Authorization.refused_bootstrap h
  | create retry owner n => exact (Authorization.refused_createPrincipal h retry owner n).discard
  | createIfAbsent owner r => exact (Authorization.refused_createIfAbsent h owner r).discard
  | delete p => exact (Authorization.refused_lookup h p).bind _
  | grant key p set kind expiration => exact Authorization.refused_grant h key p ho kind expiration
  | revoke key p set => exact Authorization.refused_revoke h key p ho
  | addMember child parent => exact (Store.refused_lookupAt h (List.cons_ne_nil _ _)).bind _
  | removeMember child parent => exact ((refused_callRecords h .removeEdge).bind _).bind _
  | updateTitle p title => exact (Authorization.refused_lookup h p).bind _
  | updateKind k kind => exact ((refused_callRecords h .updateKind).bind _).bind _
  | lookup p => exact (Authorization.refused_lookup h p).discard
  | closure p => exact (Authorization.refused_closure h p).discard
  | permissions p keys => exact (Authorization.refused_permissions h p ho).discard
  | check p key needed =>
    exact ((Authorization.refused_permissions h p (List.cons_ne_nil key [])).bind _).discard
  | has p key x =>
    exact ((Authorization.refused_permissions h p (List.cons_ne_nil key [])).bind _).discard
  | query q => exact ((refused_callRecords h .query).bind _).discard
  | ancestors r => exact (Graph.refused_ancestors h r).discard
  | closures rs => exact (Graph.refused_closures h ho).discard
  | reserveWellKnown r => exact Naming.refused_reserveWellKnown h r
  | rename old new => exact Naming.refused_rename h old new
  | renameById id new => exact Naming.refused_renameById h id new
  | releaseIds ids => exact Naming.refused_releaseIds h ids
  | releaseNames names => exact ((refused_callRecords h .deleteByNames).bind _).bind _
  | reservation name => exact (((refused_callRecords h .findByNames).bind _).bind _).discard
  | idOf name => exact ((((refused_callRecords h .findByNames).bind _).bind _).bind _).discard
  | idsOf names => exact (((refused_callRecords h .findByNames).bind _).bind _).discard
  | nameOf id => exact (((refused_callRecords h .findById).bind _).bind _).discard
  | isReserved name => exact (((refused_callRecords h .countByName).bind _).bind _).discard
  | register | request | meanwhile => exact ho.elim

/-! ### Requests -/

namespace Http

/-- What is told of an error of the database. -/
def databaseBody : Json := ApiError.bodyOf "Database error" none

theorem write_databaseBody :
    toString databaseBody = "\x7b\"error\":\"Database error\"\x7d" := by
  decide +kernel

/-- The reason of an error of the database is told to the log, and to nobody else. -/
theorem fail_database (reason : String) (s : State) :
    (fail (.ofServiceError (.store (.database reason)))).run s =
      (⟨500, .json databaseBody⟩,
        { s with log := s.log ++ [ApiError.record "Database error" reason] }) := rfl

/-- A handler is refused as the services are that it asks. -/
def Refused (x : Handling α) (s : State) : Prop :=
  outcome x s = (.error (.ofServiceError closedError), s)

theorem refused_ask {x : Action α} (h : x.Refused s) : Refused (ask x) s := by
  have hx : outcome x s = (.error closedError, s) := h
  unfold Refused
  rw [outcome_ask, hx]
  rfl

theorem Refused.bind {x : Handling α} (h : Refused x s) (f : α → Handling β) :
    Refused (x >>= f) s := by
  unfold Refused
  rw [outcome_bind, h]

/-- Whether a command hangs on the records: all do but those for the service itself and those
that are about nothing. -/
def Command.NeedsRecords : Command → Prop
  | health | metrics | allocate _ => False
  | grant _ _ set _ _ | revoke _ _ set => set.isEmpty = false
  | check _ keys _ => keys ≠ []
  | _ => True

/-- Every command that hangs on the records is refused. -/
theorem Command.refused (h : s.Closed) (c : Config) {command : Command}
    (hcommand : command.NeedsRecords) : Refused (command.perform c) s := by
  cases command with
  | health | metrics | allocate => exact hcommand.elim
  | reservation name =>
    exact (refused_ask (((refused_callRecords h .findByNames).bind _).bind _)).bind _
  | nameOf id => exact (refused_ask (((refused_callRecords h .findById).bind _).bind _)).bind _
  | rename old new => exact (refused_ask (Naming.refused_rename h old new)).bind _
  | release name =>
    exact (refused_ask (((refused_callRecords h .deleteByNames).bind _).bind _)).bind _
  | create owner new =>
    exact (refused_ask
      (Authorization.refused_createPrincipal h c.naming.retry owner new)).bind _
  | lookup p => exact (refused_ask (Authorization.refused_lookup h p)).bind _
  | retitle p title => exact (refused_ask ((Authorization.refused_lookup h p).bind _)).bind _
  | delete p => exact (refused_ask ((Authorization.refused_lookup h p).bind _)).bind _
  | closure p => exact (refused_ask (Authorization.refused_closure h p)).bind _
  | addMember child parent =>
    exact (refused_ask ((Store.refused_lookupAt h (List.cons_ne_nil _ _)).bind _)).bind _
  | removeMember child parent =>
    exact (refused_ask (((refused_callRecords h .removeEdge).bind _).bind _)).bind _
  | grant key p set kind expiration =>
    exact (refused_ask (Authorization.refused_grant h key p hcommand kind expiration)).bind _
  | revoke key p set =>
    exact (refused_ask (Authorization.refused_revoke h key p hcommand)).bind _
  | check p keys needed =>
    exact (refused_ask (Authorization.refused_permissions h p hcommand)).bind _
  | query q => exact (refused_ask ((refused_callRecords h .query).bind _)).bind _

/-- Whether what a place is for hangs on the records. -/
def Place.NeedsRecords : Place → Prop
  | health | metrics | ids => False
  | _ => True

theorem needsRecords_map {reading : Reading α} {f : α → Command} {command : Command}
    (h : some (f <$> reading) = some (.ok command)) (hf : ∀ a, (f a).NeedsRecords) :
    command.NeedsRecords := by
  cases reading with
  | error e => cases h
  | ok a => exact Except.ok.inj (Option.some.inj h) ▸ hf a

theorem isEmpty_of_notEmpty {set : PermissionSet} {u : Unit} (h : notEmpty set = .ok u) :
    set.isEmpty = false := by
  unfold notEmpty at h
  split at h
  · cases h
  · rename_i hset
    exact Bool.eq_false_iff.mpr hset

theorem needsRecords_of_rename {r : Request} {old : String} {command : Command}
    (h : rename r old = .ok command) : command.NeedsRecords := by
  obtain ⟨new, -, h⟩ := bind_eq_ok_iff.mp h
  obtain ⟨_, -, h⟩ := bind_eq_ok_iff.mp h
  cases h
  trivial

theorem needsRecords_of_create {r : Request} {command : Command} (h : create r = .ok command) :
    command.NeedsRecords := by
  obtain ⟨a, -, h⟩ := bind_eq_ok_iff.mp h
  obtain ⟨_, -, h⟩ := bind_eq_ok_iff.mp h
  split at h
  · cases h
  · cases h
    trivial

theorem needsRecords_of_retitle {r : Request} {kind id : String} {command : Command}
    (h : retitle r kind id = .ok command) : command.NeedsRecords := by
  obtain ⟨kind, -, h⟩ := bind_eq_ok_iff.mp h
  obtain ⟨id, -, h⟩ := bind_eq_ok_iff.mp h
  obtain ⟨title, -, h⟩ := bind_eq_ok_iff.mp h
  obtain ⟨_, -, h⟩ := bind_eq_ok_iff.mp h
  obtain ⟨p, -, h⟩ := bind_eq_ok_iff.mp h
  cases h
  trivial

theorem needsRecords_of_grant {r : Request} {command : Command} (h : grant r = .ok command) :
    command.NeedsRecords := by
  obtain ⟨a, -, h⟩ := bind_eq_ok_iff.mp h
  obtain ⟨_, hset, h⟩ := bind_eq_ok_iff.mp h
  cases h
  exact isEmpty_of_notEmpty hset

theorem needsRecords_of_revoke {r : Request} {command : Command} (h : revoke r = .ok command) :
    command.NeedsRecords := by
  obtain ⟨a, -, h⟩ := bind_eq_ok_iff.mp h
  obtain ⟨_, hset, h⟩ := bind_eq_ok_iff.mp h
  cases h
  exact isEmpty_of_notEmpty hset

theorem needsRecords_of_check {r : Request} {command : Command} (h : check r = .ok command) :
    command.NeedsRecords := by
  obtain ⟨q, -, h⟩ := bind_eq_ok_iff.mp h
  obtain ⟨_, hkeys, h⟩ := bind_eq_ok_iff.mp h
  cases h
  rintro (hnil : q.keys = [])
  rw [hnil] at hkeys
  cases hkeys

/-- No request that is understood is about nothing. -/
theorem needsRecords_of_read {r : Request} {place : Place} {m : Method} {command : Command}
    (hplace : place.NeedsRecords) (h : Command.read? r place m = some (.ok command)) :
    command.NeedsRecords := by
  cases place with
  | health | metrics | ids => exact hplace.elim
  | reservation name =>
    cases m with
    | get | delete => exact needsRecords_map h fun _ => trivial
    | patch =>
      obtain ⟨old, -, hrename⟩ := bind_eq_ok_iff.mp (Option.some.inj h)
      exact needsRecords_of_rename hrename
    | post => cases h
  | principal kind id =>
    cases m with
    | get | delete => exact needsRecords_map h fun _ => trivial
    | patch => exact needsRecords_of_retitle (Option.some.inj h)
    | post => cases h
  | reservationById | closure =>
    cases m with
    | get => exact needsRecords_map h fun _ => trivial
    | _ => cases h
  | memberships =>
    cases m with
    | post | delete => exact needsRecords_map h fun _ => trivial
    | _ => cases h
  | principals =>
    cases m with
    | post => exact needsRecords_of_create (Option.some.inj h)
    | _ => cases h
  | grant =>
    cases m with
    | post => exact needsRecords_of_grant (Option.some.inj h)
    | _ => cases h
  | revoke =>
    cases m with
    | post => exact needsRecords_of_revoke (Option.some.inj h)
    | _ => cases h
  | check =>
    cases m with
    | post => exact needsRecords_of_check (Option.some.inj h)
    | _ => cases h
  | query =>
    cases m with
    | post => exact needsRecords_map h fun _ => trivial
    | _ => cases h

/-- The handler of a command that hangs on the records tells the error of the database. -/
theorem serve_closed (h : s.Closed) (c : Config) {r : Request} {place : Place} {command : Command}
    (hplace : place.NeedsRecords)
    (hread : (Method.ofName? r.method).bind (Command.read? r place) = some (.ok command)) :
    (serve c place r).run s = (fail (.ofServiceError closedError)).run s := by
  obtain ⟨m, -, hm⟩ := Option.bind_eq_some_iff.mp hread
  have hrefused := Command.refused h c (needsRecords_of_read hplace hm)
  unfold serve
  rw [hread]
  refine run_handling (P := fun o => o = (fail (.ofServiceError closedError)).run s)
    (fun reply s' hok => ?_) fun e s' herror => ?_
  · rw [hrefused] at hok
    cases hok
  · rw [hrefused] at herror
    cases herror
    rfl

/-- Over a closed database whoever asks for something that hangs on the records is told
that there was an error of the database. Nothing happens to the state, but for the log. -/
theorem answer_closed (h : s.Closed) (c : Config) (r : Request) {place : Place} {command : Command}
    (hpath : Place.ofPath? r.path = some place) (hplace : place.NeedsRecords)
    (hguard : Guard.verdict c.apiToken r = .ok ())
    (hread : (Method.ofName? r.method).bind (Command.read? r place) = some (.ok command)) :
    (answer c r).run s =
      (⟨500, if asksForHead place r then .empty else .json databaseBody, r.id?⟩,
        { s with log := s.log ++ [ApiError.record "Database error" closedReason] }) := by
  rw [admitted hpath (.inr hguard), handled, StateT.run_map, serve_closed h c hplace hread,
    closedError, fail_database]
  rfl

end Http

/-! ### Failing closed -/

/-- Nothing is answered from records that nobody gets at. -/
structure State.FailsClosed (s : State) : Prop where
  /-- An operation of the services that hangs on the records fails with the error of the
  database, and nothing has happened. -/
  refused : ∀ o : Operation, o.NeedsRecords →
    o.action.perform s = (.error (.store (.database closedReason)), s)
  /-- A registration that may make an attempt ends with this error. The object keeps its
  identifier, and nothing has happened either. -/
  unregistered : ∀ (retry : Retry.Policy) (o : Naming.NewObject) (id : Identifier),
    0 < retry.maxAttempts → (Naming.register retry o id).run.perform s =
      (.ok ⟨id, .error (.store (.database closedReason))⟩, s)
  /-- Nothing is held on no objects. -/
  nothing_asked : ∀ p, (Authorization.permissions p []).perform s = (.ok ∅, s)
  /-- To grant nothing is done by doing nothing, … -/
  nothing_granted : ∀ key p kind expiration,
    (Authorization.grant key p .empty kind expiration).perform s = (.ok (), s)
  /-- … and so is to take nothing away. -/
  nothing_revoked : ∀ key p, (Authorization.revoke key p .empty).perform s = (.ok (), s)
  /-- A request that is let in and understood, at a place for something that hangs on the
  records, is answered with the error of the database. -/
  answers : ∀ (c : Config) (r : Http.Request) (place : Http.Place) (command : Http.Command),
    Http.Place.ofPath? r.path = some place → place.NeedsRecords →
    Http.Guard.verdict c.apiToken r = .ok () →
    (Http.Method.ofName? r.method).bind (Http.Command.read? r place) = some (.ok command) →
      (Http.answer c r).run s =
        (⟨500, if Http.asksForHead place r then .empty else .json Http.databaseBody, r.id?⟩,
          { s with log := s.log ++ [ApiError.record "Database error" closedReason] })

/-- **Over a closed database the services fail closed.** Who asks for anything that hangs on
the records gets the error of the database: no closure, no permissions and no verdict, and no
event is recorded. Over HTTP an error of the database is told, whatever its reason is, with
the status 500 and a body without the reason. -/
theorem State.fails_closed (h : s.Closed) :
    s.FailsClosed ∧
    (∀ reason (s' : State),
      (Http.fail (.ofServiceError (.store (.database reason)))).run s' =
        (⟨500, .json Http.databaseBody⟩,
          { s' with log := s'.log ++ [ApiError.record "Database error" reason] })) ∧
    toString Http.databaseBody = "\x7b\"error\":\"Database error\"\x7d" :=
  ⟨{ refused := fun _ ho => Operation.refused h ho
     unregistered := fun _ o id hretry => Naming.perform_register h hretry o id
     nothing_asked := fun _ => rfl
     nothing_granted := fun _ _ _ _ => rfl
     nothing_revoked := fun _ _ => rfl
     answers := fun c r _ _ => Http.answer_closed h c r },
    Http.fail_database, Http.write_databaseBody⟩

/-- The service that owns the system's objects holds everything on the role of
administrators, until the database is closed: then it is refused, and so is its request. -/
theorem State.owner_is_refused :
    let before := (State.start {} ⟨0, 0⟩).after [.bootstrap]
    let s : State := { before with storage := .closedDatabase, log := [] }
    let owner := Standard.systemPrincipal
    let key := Standard.adminRole.aclKey
    let r : Http.Request := ⟨"GET", "/principals/service/system/closure", [], ""⟩
    ((Authorization.check owner key .full).perform before).1.toOption = some true ∧
      (Operation.check owner key .full).action.perform s =
        (.error (.store (.database closedReason)), s) ∧
      ((Http.answer .inMemory r).run s).1.status = 500 := by
  intro before s owner key r
  obtain ⟨hclosed, -, -⟩ := State.fails_closed (s := s) ⟨rfl, by decide +kernel⟩
  refine ⟨by decide +kernel, hclosed.refused (.check owner key .full) trivial, ?_⟩
  rw [hclosed.answers .inMemory r (.closure "service" "system") (.closure owner)
    (by decide +kernel) trivial rfl rfl]

end AccessRegistry
