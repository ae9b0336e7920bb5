/-
# Nobody passes the guard without the token

To a place that is not open a request is let in just when the first value of its authorization
header is the scheme followed by the token. Who is not let in gets an answer that hangs on
nothing but the head of the request: the body is not read, and of what the registry holds
nothing is looked at or changed, but that the log is told. That such an answer cannot be taken
for the one of a service is seen by its status, which no command and no refusal has. The answers
of the open places do not hang on the header.

Key definitions: `Http.Request.Presents`, `Http.handled`, `Http.Admits`, `Http.Lawful`.
Key theorems: `Http.Guard.verdict_eq_ok_iff`, `Http.status_serve`, `Http.Place.isOpen_iff`,
`Http.token_guards_places`.
-/
import AccessRegistry.Proofs.Http.Answers

namespace AccessRegistry.Http

variable {α β : Type} {c : Config} {r : Request} {place : Place} {t : String} {s : State}

namespace Request

/-- The first value of a header, whose name is given in lower case. -/
def first? (r : Request) (name : String) : Option String :=
  (r.headers.find? fun h => h.1.map Char.toLower = name).map Prod.snd

/-- A request presents a token: the first value of its authorization header can be seen, and is
the scheme with the token behind it. -/
def Presents (r : Request) (t : String) : Prop :=
  ∃ v, r.first? "authorization" = some v ∧ (∀ ch ∈ v.toList, isVisible ch) ∧ v = "Bearer " ++ t

end Request

namespace Guard

/-- What follows the scheme is the token. -/
theorem token_of_value (v t : String) : (scheme.isPrefixOf v.toList = true ∧
    String.ofList (v.toList.drop scheme.length) = t) ↔ v = "Bearer " ++ t := by
  rw [List.isPrefixOf_iff_prefix]
  constructor
  · rintro ⟨⟨rest, hrest⟩, rfl⟩
    rw [← String.toList_inj, String.toList_append, ← hrest, List.drop_left]
    exact congrArg (scheme ++ ·) String.toList_ofList.symm
  · rintro rfl
    have hvalue : ("Bearer " ++ t).toList = scheme ++ t.toList := String.toList_append
    rw [hvalue, List.drop_left, String.ofList_toList]
    exact ⟨List.prefix_append _ _, rfl⟩

theorem presented?_eq_some_iff : presented? r = some t ↔ r.Presents t := by
  have hheader : r.header? "authorization" =
      (r.first? "authorization").filter fun v => v.toList.all isVisible := rfl
  unfold presented? Request.Presents
  rw [hheader]
  simp only [Option.bind_eq_some_iff, Option.filter_eq_some_iff, Option.ite_none_right_eq_some,
    Option.some.injEq, token_of_value, List.all_eq_true, and_assoc]

/-- The guard lets in who presents the token. -/
theorem verdict_eq_ok_iff : verdict (some t) r = .ok () ↔ r.Presents t := by
  rw [← presented?_eq_some_iff]
  unfold verdict
  cases presented? r with
  | none => simp
  | some p => simp

/-- Who is not let in is told so in the same words as anybody else. -/
theorem verdict_of_not_presents (h : ¬ r.Presents t) :
    ∃ reason record, verdict (some t) r = .error (.unauthorized reason, record) := by
  rw [← presented?_eq_some_iff] at h
  unfold verdict
  cases hpresented : presented? r with
  | none => exact ⟨_, _, rfl⟩
  | some p =>
    rw [hpresented, Option.some.injEq] at h
    exact ⟨_, _, if_neg h⟩

end Guard

/-- The response that a reply to a request is made into. -/
def respond (place : Place) (r : Request) (reply : Reply) : Response where
  status := reply.status
  body := if asksForHead place r then .empty else reply.body
  requestId := r.id?

/-- The answer of the handler of a place, with no guard before it. -/
def handled (c : Config) (place : Place) (r : Request) : StateM State Response :=
  respond place r <$> serve c place r

theorem answer_eq (h : Place.ofPath? r.path = some place) (c : Config) :
    answer c r = respond place r <$> attend c place r := by
  have hreply : reply c r = (fun reply => if asksForHead place r then ⟨reply.status, .empty⟩
      else reply) <$> attend c place r := by
    unfold reply
    rw [h, map_eq_pure_bind]
  unfold answer
  rw [hreply, ← map_eq_pure_bind, Functor.map_map]
  congr 1
  funext reply
  unfold respond
  split <;> rfl

/-! ### No handler asks for a token -/

/-- A reading is refused for other reasons than that a token is missing. -/
def Lawful (x : Reading α) : Prop := ∀ e, x = .error (.told e) → e.status ≠ 401

theorem lawful_bind {x : Reading α} {f : α → Reading β} (hx : Lawful x) (hf : ∀ a, Lawful (f a)) :
    Lawful (x >>= f) := by
  intro e he
  cases x with
  | error refusal =>
    obtain rfl : refusal = .told e := Except.error.inj he
    exact hx e rfl
  | ok a => exact hf a e he

theorem lawful_ok (a : α) : Lawful (.ok a) := nofun

theorem lawful_map {x : Reading α} (hx : Lawful x) (f : α → β) : Lawful (f <$> x) := by
  intro e he
  cases x with
  | error refusal =>
    obtain rfl : refusal = .told e := Except.error.inj he
    exact hx e rfl
  | ok a => cases he

theorem lawful_badPath : Lawful (.error .badPath : Reading α) := nofun

theorem lawful_told {e : ApiError} (h : e.status ≠ 401) :
    Lawful (.error (.told e) : Reading α) := by
  rintro _ ⟨⟩
  exact h

theorem lawful_parameter (part : String) : Lawful (parameter part) := by
  unfold parameter
  cases Percent.decode? part with
  | none => exact lawful_badPath
  | some s => exact lawful_ok s

theorem lawful_identifier (part : String) : Lawful (identifier part) := by
  refine lawful_bind (lawful_parameter part) fun text => ?_
  cases Identifier.ofText? text with
  | none => exact lawful_badPath
  | some id => exact lawful_ok id

theorem lawful_principal (kind id : String) : Lawful (principal kind id) := by
  unfold principal
  split
  · exact lawful_ok _
  · exact lawful_told (by simp [ApiError.status])

theorem lawful_principalAt (kind id : String) : Lawful (principalAt kind id) :=
  lawful_bind (lawful_parameter kind) fun kind => lawful_bind (lawful_parameter id) fun id =>
    lawful_principal kind id

theorem lawful_read (r : Request) (read : Json.Reader α) : Lawful (r.read read) := by
  unfold Request.read
  split
  · nofun
  · split
    · nofun
    · split <;> nofun

theorem lawful_valid (violations : List Violation) : Lawful (valid violations) := by
  unfold valid
  split
  · exact lawful_ok _
  · exact lawful_told (by simp [ApiError.status])

theorem lawful_notEmpty (s : PermissionSet) : Lawful (notEmpty s) := by
  unfold notEmpty
  split
  · exact lawful_told (by simp [ApiError.status])
  · exact lawful_ok _

theorem lawful_create (r : Request) : Lawful (Http.create r) := by
  refine lawful_bind (lawful_read r _) fun a => lawful_bind (lawful_valid _) fun _ => ?_
  split
  · exact lawful_told (by simp [ApiError.status])
  · exact lawful_ok _

theorem lawful_retitle (r : Request) (kind id : String) : Lawful (Http.retitle r kind id) :=
  lawful_bind (lawful_parameter kind) fun kind => lawful_bind (lawful_parameter id) fun id =>
    lawful_bind (lawful_read r _) fun _ => lawful_bind (lawful_valid _) fun _ =>
      lawful_bind (lawful_principal kind id) fun _ => lawful_ok _

theorem lawful_checked (r : Request) (read : Json.Reader α) {look : α → Reading Unit}
    (hlook : ∀ a, Lawful (look a)) (make : α → Command) :
    Lawful (do
      let a ← r.read read
      look a
      return make a) :=
  lawful_bind (lawful_read r read) fun a => lawful_bind (hlook a) fun _ => lawful_ok _

/-- No request is refused for a missing token by the reading of its command. -/
theorem lawful_command {method : Method} {reading : Reading Command}
    (h : Command.read? r place method = some reading) : Lawful reading := by
  -- of each place only the methods that it knows are left
  cases place <;> cases method <;> cases h
  case health | metrics => exact lawful_ok _
  case ids | check => exact lawful_checked r _ (fun _ => lawful_valid _) _
  case grant | revoke => exact lawful_checked r _ (fun _ => lawful_notEmpty _) _
  case reservation.get | reservation.delete => exact lawful_map (lawful_parameter _) _
  case reservation.patch =>
    exact lawful_bind (lawful_parameter _) fun _ => lawful_checked r _ (fun _ => lawful_valid _) _
  case reservationById => exact lawful_map (lawful_identifier _) _
  case principals => exact lawful_create r
  case memberships.post | memberships.delete | query => exact lawful_map (lawful_read r _) _
  case principal.patch => exact lawful_retitle r _ _
  case principal.get | principal.delete | closure => exact lawful_map (lawful_principalAt _ _) _

/-- A computation fails for other reasons than that a token is missing. -/
def Admits (x : Handling α) : Prop := ∀ s e, (outcome x s).1 = .error e → e.status ≠ 401

theorem admits_pure (a : α) : Admits (pure a : Handling α) := by
  intro s e he
  change Except.ok a = Except.error e at he
  cases he

theorem admits_throw {e : ApiError} (h : e.status ≠ 401) : Admits (throw e : Handling α) := by
  rintro s _ ⟨⟩
  exact h

theorem admits_bind {x : Handling α} {f : α → Handling β} (hx : Admits x) (hf : ∀ a, Admits (f a)) :
    Admits (x >>= f) := by
  intro s e he
  have hx := hx s
  rw [outcome_bind] at he
  rcases h : outcome x s with ⟨e' | a, s'⟩
  · rw [h] at he hx
    obtain rfl := Except.error.inj he
    exact hx _ rfl
  · rw [h] at he
    exact hf a s' e he

theorem admits_get : Admits (get : Handling State) := by
  intro s e he
  change Except.ok s = Except.error e at he
  cases he

theorem status_ofServiceError (e : ServiceError) : (ApiError.ofServiceError e).status ≠ 401 := by
  rcases e with (_ | _ | _ | _ | _) | _ | _ | _ | _ | _ | _ <;>
    simp [ApiError.ofServiceError, ApiError.status]

theorem admits_ask (x : Action α) : Admits (ask x) := by
  intro s e he
  rw [outcome_ask] at he
  rcases h : outcome x s with ⟨e' | a, s'⟩ <;> rw [h] at he
  · obtain rfl := Except.error.inj he
    exact status_ofServiceError e'
  · cases he

theorem admits_found (x : Option α) (missing : String) : Admits (found x missing) := by
  cases x with
  | none => exact admits_throw (by simp [ApiError.status])
  | some a => exact admits_pure a

theorem admits_checkHealth (name : String) (check : Action Unit) :
    Admits (checkHealth name check) := by
  refine admits_bind (admits_ask _) fun result => ?_
  cases result with
  | ok => exact admits_pure _
  | error e => exact admits_bind (admits_ask _) fun _ => admits_throw (by simp [ApiError.status])

theorem admits_command (c : Config) (command : Command) : Admits (command.perform c) := by
  cases command with
  | health =>
    refine admits_bind ?_ fun _ => admits_pure _
    exact admits_bind admits_get fun _ => admits_bind (admits_checkHealth _ _) fun _ =>
      admits_bind (admits_checkHealth _ _) fun _ => admits_pure _
  | metrics => exact admits_bind admits_get fun _ => admits_pure _
  | reservation | nameOf =>
    exact admits_bind (admits_ask _) fun _ => admits_bind (admits_found _ _) fun _ => admits_pure _
  | _ => exact admits_bind (admits_ask _) fun _ => admits_pure _

theorem status_run {x : Handling Reply} (hadmits : Admits x) (hsucceeds : Succeeds x) (s : State) :
    ((do
      match ← x.run with
      | .ok reply => return reply
      | .error e => fail e : StateM State Reply).run s).1.status ≠ 401 := by
  have hfails := hadmits s
  have hstatus := hsucceeds s
  refine run_handling (P := fun o => o.1.status ≠ 401) (fun reply s' h => ?_) fun e s' h => ?_
  · rw [h] at hstatus
    exact Nat.ne_of_lt (Nat.lt_of_lt_of_le hstatus (by decide))
  · rw [h] at hfails
    exact hfails e rfl

/-- No handler asks for a token. -/
theorem status_serve (c : Config) (place : Place) (r : Request) (s : State) :
    ((serve c place r).run s).1.status ≠ 401 := by
  unfold serve
  split
  case h_1 => exact (by decide : 405 ≠ 401)
  case h_2 e hread =>
    obtain ⟨method, -, hread⟩ := Option.bind_eq_some_iff.mp hread
    exact lawful_command hread e rfl
  case h_3 refusal htold _ =>
    show (Reply.ofRefusal refusal).status ≠ 401
    cases refusal with
    | told e => exact absurd rfl (htold e)
    | _ => simp [Reply.ofRefusal]
  case h_4 command _ => exact status_run (admits_command c command) (Command.succeeds c command) s

theorem attend_of_open (h : place.isOpen = true) : attend c place r = serve c place r := if_pos h

theorem attend_of_ok (h : Guard.verdict c.apiToken r = .ok ()) :
    attend c place r = serve c place r := by
  unfold attend
  split
  · rfl
  · rw [h]

theorem attend_of_error {e : ApiError} {record : Log.Record} (hplace : place.isOpen = false)
    (h : Guard.verdict c.apiToken r = .error (e, record)) (s : State) :
    (attend c place r).run s = (Reply.ofError e, { s with log := s.log ++ [record] ++ e.log }) := by
  unfold attend
  rw [hplace, h]
  rfl

theorem asksForHead_body (place : Place) (r : Request) (body : String) :
    asksForHead place { r with body } = asksForHead place r := by
  cases place <;> rfl

/-- Who is not let in is answered from the head of the request, and nothing but the log tells
of it. -/
theorem refused (hplace : Place.ofPath? r.path = some place) (hguarded : place.isOpen = false)
    (htoken : c.apiToken = some t) (h : ¬ r.Presents t) :
    ∃ response records, response.status = 401 ∧ ∀ (s : State) (body : String),
      (answer c { r with body }).run s = (response, { s with log := s.log ++ records }) := by
  obtain ⟨reason, record, hverdict⟩ := Guard.verdict_of_not_presents h
  rw [← htoken] at hverdict
  refine ⟨respond place r (.ofError (.unauthorized reason)),
    [record] ++ (ApiError.unauthorized reason).log, rfl, fun s body => ?_⟩
  have hpath : Place.ofPath? ({ r with body } : Request).path = some place := hplace
  have hattend := attend_of_error (r := { r with body }) hguarded hverdict s
  have hrespond : respond place { r with body } = respond place r := by
    unfold respond
    rw [asksForHead_body]
    rfl
  rw [answer_eq hpath, StateT.run_map, hattend, hrespond, List.append_assoc]
  rfl

theorem admitted (hplace : Place.ofPath? r.path = some place)
    (h : place.isOpen = true ∨ Guard.verdict c.apiToken r = .ok ()) :
    answer c r = handled c place r := by
  rw [answer_eq hplace, h.elim attend_of_open attend_of_ok]
  rfl

/-! ### Open places -/

namespace Place

/-- The parts of a text, put together with slashes, are the text. -/
theorem intercalate_segments : ∀ cs : List Char, List.intercalate ['/'] (segments cs) = cs
  | [] => rfl
  | c :: cs => by
    have hrest := intercalate_segments cs
    unfold segments
    split
    · rename_i hnone
      rw [hnone] at hrest
      exact congrArg (c :: ·) hrest
    · rename_i s ss hsome
      rw [hsome] at hrest
      split
      · rename_i hslash
        rw [hslash, List.intercalate_cons_cons, hrest]
        rfl
      · cases ss with
        | nil => exact congrArg (c :: ·) hrest
        | cons s' ss =>
          rw [List.intercalate_cons_cons] at hrest ⊢
          exact congrArg (c :: ·) hrest

theorem ofSegments?_of_open {parts : List String} {place : Place}
    (h : ofSegments? parts = some place) (hopen : place.isOpen = true) :
    parts = ["health"] ∨ parts = ["metrics"] := by
  unfold ofSegments? at h
  split at h
  case h_1 => exact .inl rfl
  case h_2 => exact .inr rfl
  -- no other place is open, whether or not the name of an object is missing
  all_goals first
    | cases h <;> cases hopen
    | split at h <;> cases h; cases hopen

/-- The places that are open are the health and the metrics of the service. -/
theorem isOpen_iff {path : String} {place : Place} (h : ofPath? path = some place) :
    place.isOpen = true ↔ path = "/health" ∨ path = "/metrics" := by
  constructor
  · intro hopen
    unfold ofPath? at h
    split at h
    · rename_i rest hrest
      have hpath : ∀ name : String, rest.map String.ofList = [name] → path = "/" ++ name := by
        intro name hname
        obtain ⟨part, rest', rfl, rfl, hnil⟩ := List.map_eq_cons_iff.mp hname
        obtain rfl := List.map_eq_nil_iff.mp hnil
        have hjoin := intercalate_segments path.toList
        rw [hrest, List.intercalate_cons_cons, List.intercalate_singleton] at hjoin
        rw [← String.toList_inj, String.toList_append, ← hjoin]
        exact congrArg ('/' :: ·) String.toList_ofList.symm
      exact (ofSegments?_of_open h hopen).imp (hpath "health") (hpath "metrics")
    · cases h
  · rintro (rfl | rfl)
    · obtain rfl := Option.some.inj h
      rfl
    · obtain rfl := Option.some.inj h
      rfl

end Place

/-- The headers of a request but those of one name. -/
def Request.headersBut (r : Request) (name : String) : List (String × String) :=
  r.headers.filter fun h => h.1.map Char.toLower ≠ name

/-- A header of another name is found among the rest. -/
theorem Request.first?_eq_find? (r : Request) {other : String} (name : String)
    (h : other ≠ name) :
    r.first? other =
      ((r.headersBut name).find? fun h => h.1.map Char.toLower = other).map Prod.snd := by
  unfold first? headersBut
  rw [List.find?_filter]
  congr 2
  funext header
  by_cases hother : header.1.map Char.toLower = other
  · simp [hother, h]
  · simp [hother]

/-- What is told at an open place does not hang on the headers, but for the identifier of the
request. -/
theorem handled_of_open (hopen : place.isOpen = true) {headers : List (String × String)}
    (hid : ({ r with headers } : Request).id? = r.id?) :
    handled c place { r with headers } = handled c place r := by
  have hread : Command.read? { r with headers } place = Command.read? r place := by
    funext method
    cases place <;> cases hopen <;> cases method <;> rfl
  have hserve : serve c place { r with headers } = serve c place r := by
    unfold serve
    rw [hread]
  have hrespond : respond place { r with headers } = respond place r := by
    unfold respond asksForHead
    rw [hread, hid]
  unfold handled
  rw [hserve, hrespond]

/-! ### The guard as a whole -/

/-- **To each place that is not open the token alone is the way.** All places but the health and
the metrics of the service are guarded. Where a token is needed, a request to a guarded place
comes to its handler just when it presents the token; otherwise it is answered as unauthorized,
in the same way whatever the registry holds and whatever stands in the body, and only the log
tells of it. Where no token is needed, every request comes to its handler. And the answers of the
open places are the same for requests that differ in the authorization header. -/
theorem token_guards_places (c : Config) (hplace : Place.ofPath? r.path = some place) :
    (place.isOpen = true ↔ r.path = "/health" ∨ r.path = "/metrics") ∧
    (place.isOpen = false → ∀ t, c.apiToken = some t →
      (∀ s, (answer c r).run s = (handled c place r).run s ↔ r.Presents t) ∧
      (¬ r.Presents t → ∃ response records, response.status = 401 ∧ ∀ (s : State) (body : String),
        (answer c { r with body }).run s = (response, { s with log := s.log ++ records }))) ∧
    (c.apiToken = none → answer c r = handled c place r) ∧
    (place.isOpen = true → ∀ headers,
      ({ r with headers } : Request).headersBut "authorization" = r.headersBut "authorization" →
        answer c { r with headers } = answer c r) := by
  refine ⟨Place.isOpen_iff hplace, fun hguarded t htoken => ⟨fun s => ⟨fun hpasses => ?_,
    fun hpresents => ?_⟩, refused hplace hguarded htoken⟩, fun htoken => ?_,
    fun hopen headers hheaders => ?_⟩
  · by_contra hpresents
    obtain ⟨response, records, hstatus, hrefused⟩ := refused hplace hguarded htoken hpresents
    have hsame : ((handled c place r).run s).1.status = 401 := by
      rw [← hpasses, hrefused s r.body]
      exact hstatus
    exact status_serve c place r s hsame
  · have hverdict := Guard.verdict_eq_ok_iff.mpr hpresents
    rw [← htoken] at hverdict
    rw [admitted hplace (.inr hverdict)]
  · refine admitted hplace (.inr ?_)
    rw [htoken]
    rfl
  · have hid : ({ r with headers } : Request).id? = r.id? := by
      have hfirst : ({ r with headers } : Request).first? "x-request-id" =
          r.first? "x-request-id" := by
        rw [Request.first?_eq_find? _ "authorization" (by decide), hheaders,
          ← Request.first?_eq_find? r "authorization" (by decide)]
      have hheader : ∀ r : Request, r.id? = ((r.first? "x-request-id").filter
          fun v => v.toList.all isVisible).filter fun id => id ≠ "" := fun _ => rfl
      rw [hheader, hheader, hfirst]
    have hplace' : Place.ofPath? ({ r with headers } : Request).path = some place := hplace
    rw [admitted hplace (.inl hopen), admitted hplace' (.inl hopen), handled_of_open hopen hid]

/-- The token in a second authorization header is not looked for. -/
theorem second_value_does_not_count :
    let c : Config := { Config.inMemory with apiToken := some "s3cret" }
    let r : Request := ⟨"POST", "/ids",
      [("Authorization", "Bearer other"), ("authorization", "Bearer s3cret")], ""⟩
    Place.ofPath? r.path = some .ids ∧
      ∃ response records, response.status = 401 ∧ ∀ (s : State) (body : String),
        (answer c { r with body }).run s = (response, { s with log := s.log ++ records }) := by
  intro c r
  have hplace : Place.ofPath? r.path = some .ids := by decide +kernel
  have hpresents : ¬ r.Presents "s3cret" := by
    rintro ⟨v, hfirst, -, rfl⟩
    have hother : r.first? "authorization" = some "Bearer other" := by decide +kernel
    rw [hother] at hfirst
    exact absurd (Option.some.inj hfirst) (by decide +kernel)
  obtain ⟨-, hguard, -⟩ := token_guards_places c hplace
  exact ⟨hplace, (hguard rfl "s3cret" rfl).2 hpresents⟩

end AccessRegistry.Http
