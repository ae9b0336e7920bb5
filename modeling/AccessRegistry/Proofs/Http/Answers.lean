/-
# Errors leave no trace

A request asks for at most one service, and what comes before and after it leaves the books
alone. So a request is as whole as the services are: it goes through, or it is answered with
an error and nothing has happened to the records and the trail. Who only asks changes
nothing in any case.

Key definitions: `Http.Command.reads`, `Http.Lossless`.
Key theorems: `Http.Command.whole`, `Http.Command.idle`, `Http.lossless_reply`,
`Http.errors_leave_no_trace`.
-/
import AccessRegistry.Http.Service
import AccessRegistry.Proofs.Authorization.Decisions
import AccessRegistry.Proofs.Authorization.Services

namespace AccessRegistry.Http

variable {α : Type} {b : Books} {s : State}

theorem outcome_ask (x : Action α) (s : State) :
    outcome (ask x) s =
      ((outcome x s).1.mapError ApiError.ofServiceError, (outcome x s).2) := rfl

theorem whole_ask {x : Action α} (h : Whole x) : Whole (ask x) := by
  intro b s hs hb
  obtain ⟨hs', hres⟩ := h b s hs hb
  rw [outcome_ask]
  refine ⟨hs', ?_⟩
  rcases hx : outcome x s with ⟨e | a, s'⟩
  · rw [hx] at hres
    exact hres
  · rw [hx] at hres
    exact hres

theorem idle_ask {x : Action α} (h : Idle x) : Idle (ask x) := fun b s hs hb => h b s hs hb

theorem whole_ask_done {x : Action α} (h : Whole x) :
    Whole (ask x >>= fun _ => pure Reply.done) := (whole_ask h).map _

theorem idle_found (x : Option α) (missing : String) : Idle (found x missing) := by
  cases x with
  | none => exact idle_throw _
  | some a => exact idle_pure a

theorem idle_storeHealth : Idle Store.storeHealth := by
  refine idle_bind (Action.idle_call _) fun _ => idle_get_bind fun s => ?_
  split
  · exact idle_bind (Action.idle_say _ _ _ _) fun _ => Action.idle_reach
  · exact Action.idle_reach

theorem idle_checkHealth {check : Action Unit} (h : Idle check) (name : String) :
    Idle (checkHealth name check) := by
  refine idle_bind (idle_ask (Action.idle_attempt h)) fun result => ?_
  cases result with
  | ok => exact idle_pure _
  | error e => exact idle_bind (idle_ask (Action.idle_say _ _ _ _)) fun _ => idle_throw _

theorem idle_health (c : Config) : Idle (health c) :=
  idle_get_bind fun _ => idle_bind (idle_checkHealth idle_storeHealth _) fun _ =>
    idle_bind (idle_checkHealth (Action.idle_call _) _) fun _ => idle_pure _

/-- Whether a command only asks for something. -/
def Command.reads : Command → Bool
  | health | metrics | allocate _ | reservation _ | nameOf _ | lookup _ | closure _ | check ..
  | query _ => true
  | _ => false

/-- Who only asks for something leaves the books alone. -/
theorem Command.idle (c : Config) {command : Command} (h : command.reads = true) :
    Idle (command.perform c) := by
  cases command with
  | health => exact idle_bind (idle_health c) fun _ => idle_pure _
  | metrics => exact idle_get_bind fun _ => idle_pure _
  | allocate count =>
    exact idle_bind (idle_ask (Desk.idle_nextMany .front count)) fun _ => idle_pure _
  | reservation name =>
    exact idle_bind (idle_ask (Naming.idle_reservation? name)) fun r =>
      idle_bind (idle_found r _) fun _ => idle_pure _
  | nameOf id =>
    exact idle_bind (idle_ask (Naming.idle_nameOf? id)) fun name =>
      idle_bind (idle_found name _) fun _ => idle_pure _
  | lookup p => exact idle_bind (idle_ask (Authorization.idle_lookup p)) fun _ => idle_pure _
  | closure p =>
    exact idle_bind
      (idle_ask (Action.idle_of_reads fun _ hs => Authorization.reads_closure hs p))
      fun _ => idle_pure _
  | check p keys needed =>
    exact idle_bind
      (idle_ask (Action.idle_of_reads fun _ hs => Authorization.reads_permissions hs p keys))
      fun _ => idle_pure _
  | query q =>
    exact idle_bind (idle_ask (Action.idle_records .query fun t => t.permissions.query q))
      fun _ => idle_pure _
  | _ => cases h

/-- A command is carried out, or nothing happens. -/
theorem Command.whole (c : Config) (command : Command) : Whole (command.perform c) := by
  cases command with
  | rename old new => exact whole_ask_done (Naming.whole_rename old new)
  | release name => exact whole_ask_done (Naming.whole_releaseNames [name])
  | create owner new =>
    exact (whole_ask (Authorization.whole_createPrincipal c.naming.retry owner new)).map _
  | retitle p title => exact whole_ask_done (Authorization.whole_updateTitle p title)
  | delete p => exact whole_ask_done (Authorization.whole_deletePrincipal p)
  | addMember child parent => exact whole_ask_done (Authorization.whole_addMember child parent)
  | removeMember child parent =>
    exact whole_ask_done (Authorization.whole_removeMember child parent)
  | grant key p s kind expiration =>
    exact whole_ask_done (Authorization.whole_grant key p s kind expiration)
  | revoke key p s => exact whole_ask_done (Authorization.whole_revoke key p s)
  | _ => exact (Command.idle c rfl).whole

/-- A computation that does not fail gives a reply that is no error. -/
def Succeeds (x : Handling Reply) : Prop :=
  ∀ s, match (outcome x s).1 with
    | .ok reply => reply.status < 400
    | .error _ => True

theorem succeeds_pure {reply : Reply} (h : reply.status < 400) : Succeeds (pure reply) :=
  fun _ => h

/-- Only what is done last has a say in it. -/
theorem succeeds_bind {x : Handling α} {f : α → Handling Reply} (h : ∀ a, Succeeds (f a)) :
    Succeeds (x >>= f) := by
  intro s
  rw [outcome_bind]
  rcases outcome x s with ⟨e | a, s'⟩
  · trivial
  · exact h a s'

theorem Reply.status_ok (j : Json) : (Reply.ok j).status < 400 := show 200 < 400 by decide

theorem Reply.status_done : Reply.done.status < 400 := by decide

theorem Command.succeeds (c : Config) (command : Command) : Succeeds (command.perform c) := by
  cases command with
  | metrics => exact succeeds_bind fun _ => succeeds_pure (show 200 < 400 by decide)
  | create => exact succeeds_bind fun _ => succeeds_pure (show 201 < 400 by decide)
  | reservation | nameOf =>
    exact succeeds_bind fun _ => succeeds_bind fun _ => succeeds_pure (Reply.status_ok _)
  | health | allocate | lookup | closure | check | query =>
    exact succeeds_bind fun _ => succeeds_pure (Reply.status_ok _)
  | _ => exact succeeds_bind fun _ => succeeds_pure Reply.status_done

/-- Whether a request gets something, or has permissions checked or looked for. -/
def Request.Asks (r : Request) : Prop :=
  r.method = "GET" ∨
    r.method = "POST" ∧ (r.path = "/permissions/check" ∨ r.path = "/permissions/query")

/-- A command is read by the last part of its reading. -/
theorem reads_reading_bind {reading : Reading α} {f : α → Reading Command}
    (hf : ∀ a command, f a = .ok command → command.reads = true) {command : Command}
    (h : reading >>= f = .ok command) : command.reads = true := by
  cases reading with
  | error e => cases h
  | ok a => exact hf a command h

theorem reads_map {reading : Reading α} {f : α → Command} (hf : ∀ a, (f a).reads = true)
    {command : Command} (h : f <$> reading = .ok command) : command.reads = true := by
  rw [map_eq_pure_bind] at h
  exact reads_reading_bind (fun a _ hcommand => Except.ok.inj hcommand ▸ hf a) h

theorem reads_of_get {r : Request} {place : Place} {command : Command}
    (h : Command.read? r place .get = some (.ok command)) : command.reads = true := by
  cases place with
  | health | metrics =>
    cases h
    rfl
  | reservation | reservationById | principal | closure =>
    exact reads_map (fun _ => rfl) (Option.some.inj h)
  | _ => cases h

theorem reads_of_check {r : Request} {command : Command} (h : check r = .ok command) :
    command.reads = true := by
  refine reads_reading_bind (fun q command hvalid => ?_) h
  refine reads_reading_bind (fun _ command hcheck => ?_) hvalid
  obtain rfl := Except.ok.inj hcheck
  rfl

/-- Who only asks is understood as someone who only asks. -/
theorem Request.Asks.reads {r : Request} (h : r.Asks) {place : Place} {command : Command}
    (hplace : Place.ofPath? r.path = some place)
    (hread : (Method.ofName? r.method).bind (Command.read? r place) = some (.ok command)) :
    command.reads = true := by
  rcases h with hget | ⟨hpost, hpath | hpath⟩
  · rw [hget] at hread
    exact reads_of_get hread
  · rw [hpath] at hplace
    obtain rfl : Place.check = place := Option.some.inj hplace
    rw [hpost] at hread
    exact reads_of_check (Option.some.inj hread)
  · rw [hpath] at hplace
    obtain rfl : Place.query = place := Option.some.inj hplace
    rw [hpost] at hread
    exact reads_map (fun _ => rfl) (Option.some.inj hread)

/-! ### What a request keeps -/

/-- What a command comes to is made into a reply, be it a reply or an error. -/
theorem run_handling {x : Handling Reply} {s : State} {P : Reply × State → Prop}
    (hok : ∀ reply s', outcome x s = (.ok reply, s') → P (reply, s'))
    (herror : ∀ e s', outcome x s = (.error e, s') → P ((fail e).run s')) :
    P (StateT.run (do
      match ← x.run with
      | .ok reply => return reply
      | .error e => fail e) s) := by
  show P (StateT.run (match (outcome x s).1 with
    | .ok reply => pure reply
    | .error e => fail e) (outcome x s).2)
  rcases h : outcome x s with ⟨e | reply, s'⟩
  · exact herror e s' h
  · exact hok reply s' h

section

variable {P : State → Prop}

theorem preserves_ask {x : Action α} (h : Preserves P x) : Preserves P (ask x) := h

theorem preserves_ask_pure {x : Action α} (h : Preserves P x) (f : α → Reply) :
    Preserves P (do return f (← ask x)) :=
  preserves_bind (preserves_ask h) fun _ => preserves_pure _

theorem preserves_found (x : Option α) (missing : String) : Preserves P (found x missing) := by
  cases x with
  | none => exact preserves_throw _
  | some a => exact preserves_pure a

theorem preserves_ask_found {x : Action (Option α)} (h : Preserves P x) (missing : String)
    (f : α → Reply) : Preserves P (do return f (← found (← ask x) missing)) :=
  preserves_bind (preserves_ask h) fun a =>
    preserves_bind (preserves_found a missing) fun _ => preserves_pure _

-- the log has no say in the property
variable (hlog : ∀ (s : State) (log : List Log.Record), P s → P { s with log })
include hlog

theorem preserves_checkHealth {check : Action Unit} (h : Preserves P check) (name : String) :
    Preserves P (checkHealth name check) := by
  refine preserves_bind (preserves_ask (Action.preserves_attempt h)) fun result => ?_
  cases result with
  | ok => exact preserves_pure _
  | error e => exact preserves_bind (fun s hs => hlog s _ hs) fun _ => preserves_throw _

/-- To look after the health is to make calls, and to tell the log what fails. -/
theorem preserves_health (hcall : ∀ c, Preserves P (Action.call c)) (c : Config) :
    Preserves P (health c) := by
  have hstore : Preserves P Store.storeHealth := by
    refine preserves_bind (hcall _) fun _ => preserves_get_bind fun s => ?_
    split
    · exact preserves_bind (fun s hs => hlog s _ hs) fun _ => Action.preserves_reach
    · exact Action.preserves_reach
  exact preserves_get_bind fun _ => preserves_bind (preserves_checkHealth hlog hstore _) fun _ =>
    preserves_bind (preserves_checkHealth hlog (hcall _) _) fun _ => preserves_pure _

/-- What the command of a request keeps is kept by whatever is answered to the request. -/
theorem keeps_answer (c : Config) {r : Request}
    (hcommand : ∀ place command, Place.ofPath? r.path = some place →
      (Method.ofName? r.method).bind (Command.read? r place) = some (.ok command) →
        Preserves P (command.perform c))
    {s : State} (hs : P s) : P ((answer c r).run s).2 := by
  have hserve : ∀ place, Place.ofPath? r.path = some place →
      ∀ s, P s → P ((serve c place r).run s).2 := by
    intro place hplace s hs
    unfold serve
    split
    · exact hs
    · exact hlog s _ hs
    · exact hs
    · rename_i command hread
      have hperform := hcommand place command hplace hread s hs
      refine run_handling (P := fun o => P o.2) (fun reply s' h => ?_) fun e s' h => ?_
      · rw [h] at hperform
        exact hperform
      · rw [h] at hperform
        exact hlog s' _ hperform
  show P ((reply c r).run s).2
  unfold reply
  split
  · exact hs
  · rename_i place hplace
    show P ((attend c place r).run s).2
    unfold attend
    split
    · exact hserve place hplace s hs
    · split
      · exact hserve place hplace s hs
      · exact hlog _ _ (hlog s _ hs)

end

/-! ### Answers -/

/-- Whatever is replied, the books advance. They stay as they are where this is wanted, and
where the reply is an error. -/
def Lossless (still : Prop) (x : StateM State Reply) : Prop :=
  ∀ s : State, s.InMemory → (x.run s).2.InMemory ∧ s.books.Advances (x.run s).2.books ∧
    (still ∨ 400 ≤ (x.run s).1.status → (x.run s).2.books = s.books)

variable {still : Prop}

theorem lossless_pure (reply : Reply) : Lossless still (pure reply) :=
  fun s hs => ⟨hs, .refl s.books, fun _ => rfl⟩

theorem Lossless.tell_bind {x : StateM State Reply} (h : Lossless still x)
    (rs : List Log.Record) : Lossless still (tell rs >>= fun _ => x) :=
  fun s hs => h { s with log := s.log ++ rs } (hs.withLog _)

theorem lossless_fail (e : ApiError) : Lossless still (fail e) :=
  (lossless_pure (.ofError e)).tell_bind e.log

theorem lossless_run {x : Handling Reply} (hwhole : Whole x) (hsucceeds : Succeeds x)
    (hidle : still → Idle x) :
    Lossless still (do
      match ← x.run with
      | .ok reply => return reply
      | .error e => fail e) := by
  intro s hs
  obtain ⟨hs', hbooks⟩ := hwhole s.books s hs rfl
  have hstatus := hsucceeds s
  have hstill : still → (outcome x s).2.books = s.books := fun h => (hidle h).books_eq hs
  refine run_handling (P := fun o => o.2.InMemory ∧ s.books.Advances o.2.books ∧
    (still ∨ 400 ≤ o.1.status → o.2.books = s.books)) (fun reply s' h => ?_) fun e s' h => ?_
  · rw [h] at hs' hbooks hstatus hstill
    refine ⟨hs', hbooks, fun hwhy => hwhy.elim hstill fun herror => ?_⟩
    exact absurd hstatus (Nat.not_lt_of_le herror)
  · rw [h] at hs' hbooks
    have hfail : Lossless True (fail e) := lossless_fail e
    obtain ⟨hs'', hadv, hsame⟩ := hfail s' hs'
    have heq := (hsame (Or.inl trivial)).trans hbooks
    exact ⟨hs'', heq ▸ .refl _, fun _ => heq⟩

theorem lossless_serve (c : Config) (place : Place) (r : Request)
    (h : still → ∀ command,
      (Method.ofName? r.method).bind (Command.read? r place) = some (.ok command) →
        command.reads = true) : Lossless still (serve c place r) := by
  unfold serve
  split
  · exact lossless_pure _
  · exact lossless_fail _
  · exact lossless_pure _
  · rename_i command hcommand
    exact lossless_run (Command.whole c command) (Command.succeeds c command) fun hstill =>
      Command.idle c (h hstill command hcommand)

theorem lossless_attend (c : Config) (place : Place) (r : Request)
    (h : Lossless still (serve c place r)) : Lossless still (attend c place r) := by
  unfold attend
  split
  · exact h
  · split
    · exact h
    · exact (lossless_fail _).tell_bind _

/-- Every answer is lossless, and who only asks is answered without any change. -/
theorem lossless_reply (c : Config) (r : Request) : Lossless r.Asks (reply c r) := by
  unfold reply
  split
  · exact lossless_pure _
  · rename_i place hplace
    intro s hs
    have hattend : Lossless r.Asks (attend c place r) :=
      lossless_attend c place r (lossless_serve c place r fun hasks command hread =>
        hasks.reads hplace hread)
    obtain ⟨hs', hadv, hsame⟩ := hattend s hs
    refine ⟨hs', hadv, fun hwhy => hsame (hwhy.imp id fun hstatus => ?_)⟩
    -- a reply without its body has the same status
    change 400 ≤ (if asksForHead place r then
      (⟨((attend c place r).run s).1.status, .empty⟩ : Reply)
      else ((attend c place r).run s).1).status at hstatus
    split at hstatus <;> exact hstatus

/-- **Errors leave no trace.** Whatever is asked of a service that keeps its records in
memory, if the answer is an error then the records, the cursors among them, and the trail are
what they were before, and so they are, whatever the answer, if somebody gets something or
has permissions checked or looked for. -/
theorem errors_leave_no_trace (c : Config) (r : Request) (h : s.InMemory) :
    ∃ (response : Response) (s' : State), (answer c r).run s = (response, s') ∧ s'.InMemory ∧
      (400 ≤ response.status → s'.tables = s.tables ∧ s'.trail = s.trail) ∧
      (r.method = "GET" ∨
        r.method = "POST" ∧ (r.path = "/permissions/check" ∨ r.path = "/permissions/query") →
        s'.tables = s.tables ∧ s'.trail = s.trail) := by
  obtain ⟨hs', -, hsame⟩ := lossless_reply c r s h
  refine ⟨_, _, rfl, hs', fun hstatus => ?_, fun hasks => ?_⟩
  · have hbooks := hsame (Or.inr hstatus)
    exact ⟨congrArg Books.tables hbooks, congrArg Books.trail hbooks⟩
  · have hbooks := hsame (Or.inl hasks)
    exact ⟨congrArg Books.tables hbooks, congrArg Books.trail hbooks⟩

/-- Where the identifier that is drawn for a new principal turns out to be another one's key,
its name, which was reserved by then, is given back. -/
theorem refused_creation_is_undone :
    let alice : Registration := ⟨.single (.ofRandomBits 0), ⟨.user, "alice"⟩, "", ""⟩
    let s : State := { State.start { mode := .random } ⟨0, 0⟩ with
      tables := Tables.after [.directory (.add alice)] }
    let r : Request := ⟨"POST", "/principals", [("content-type", "application/json")],
      "\x7b\"principal_type\":\"user\",\"id\":\"bob\",\"title\":\"Bob\"\x7d"⟩
    ∃ (response : Response) (s' : State), (answer .inMemory r).run s = (response, s') ∧
      response.status = 409 ∧ s'.tables = s.tables ∧ s'.trail = s.trail := by
  intro alice s r
  obtain ⟨response, s', hrun, -, herror, -⟩ :=
    errors_leave_no_trace .inMemory r (s := s) ⟨rfl, rfl⟩
  have hstatus : ((answer .inMemory r).run s).1.status = 409 := by decide +kernel
  rw [hrun] at hstatus
  have hbad : 400 ≤ response.status := hstatus ▸ (by decide : 400 ≤ 409)
  exact ⟨response, s', hrun, hstatus, herror hbad⟩

end AccessRegistry.Http
