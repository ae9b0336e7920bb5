/-
# Which variables make a configuration

A configuration is read from variables if they describe one that the service can run on. Each
variable describes its own member of the configuration, or its default does where it is not set,
so that a configuration is described just if all of its members are (`Config.Describes`); and the
variables that describe a sound one can be told without it (`Config.Variables.Deployable`).

Key definitions: `Config.Variables.Gives`, `Config.Describes`, `Config.Sound`,
`Config.Variables.Deployable`.
Key theorems: `Config.read_eq_ok_iff`, `Config.validate_eq_ok_iff`,
`Config.accepts_deployable`.
-/
import AccessRegistry.Config.Variables
import AccessRegistry.Proofs.LowerCase
import AccessRegistry.Proofs.Numerals
import AccessRegistry.Proofs.Results

namespace AccessRegistry

namespace Config

namespace Variables

variable (vars : Variables)

/-- A variable that is set gives the number that it writes, if it writes one below the bound. -/
def Gives (v : Number) (n : Nat) : Prop :=
  match vars v.key with
  | none => n = v.default
  | some s => Numeral.Writes s n ∧ n < v.bound

/-- The words that switch something on. -/
def onWords : List String := ["true", "on", "yes"]

/-- The words that switch something off. -/
def offWords : List String := ["false", "off", "no"]

/-- The words of a switch, in any case, stand for one and zero. -/
def Switches (s : String) (n : Nat) : Prop :=
  LowerCase.ofString s ∈ onWords ∧ n = 1 ∨ LowerCase.ofString s ∈ offWords ∧ n = 0

/-- A variable that may also hold the word of a switch. -/
def GivesOrSwitches (v : Number) (n : Nat) : Prop :=
  match vars v.key with
  | none => n = v.default
  | some s => Switches s n ∨ Numeral.Writes s n ∧ n < v.bound

theorem natural_eq_ok_iff {v : Number} {n : Nat} : vars.natural v = .ok n ↔ vars.Gives v n := by
  have hbound := v.bound_pos
  unfold natural Gives
  cases vars v.key with
  | none => simp [eq_comm]
  | some s =>
    dsimp only
    rw [mapError_eq_ok_iff, Numeral.read_eq_ok_iff]
    exact and_congr_right fun _ => by omega

theorem choice_eq_ok_iff {α : Type} {key default : String} {ofName? : String → Option α}
    {unknown : String → ConfigError} {a : α} :
    vars.choice key default ofName? unknown = .ok a ↔
      ofName? (vars.text key default) = some a := by
  show (ofName? (vars.text key default)).elim _ Except.ok = _ ↔ _
  cases ofName? (vars.text key default) <;> simp

theorem required_eq_ok_iff {inProduction : Bool} {key s : String} :
    vars.required inProduction key = .ok s ↔ vars key = some s := by
  unfold required
  cases vars key <;> simp

/-- A numeral is no word of a switch, because its lower case is itself. -/
theorem lowerCase_of_writes {s : String} {n : Nat} (h : Numeral.Writes s n) :
    LowerCase.ofString s = s := by
  have hsmall : ∀ c ∈ s.toList, c.toNat < 65 := by
    obtain ⟨ds, -, hdigits, hs, -⟩ := h
    have hds : ∀ c ∈ ds, c.toNat < 65 := fun c hc => by
      have hc := hdigits c hc
      simp only [Char.isDigit, Bool.and_eq_true, decide_eq_true_eq] at hc
      have hle : c.toNat ≤ 57 := hc.2
      omega
    obtain hs | hs := hs <;> rw [hs]
    · exact hds
    · simpa using hds
  have hword : ∀ c ∈ s.toList, LowerCase.IsSmall c := fun c hc => by
    have hcode := hsmall c hc
    exact ⟨by unfold LowerCase.IsAscii; omega, by rw [LowerCase.isUpper_iff]; omega⟩
  rw [← LowerCase.ofStringIn_false, LowerCase.ofStringIn_eq_iff _ hword]
  exact List.forall₂_same.mpr fun c _ => .inl (.refl c)

theorem not_writes_word {word : String} {n : Nat} (h : word ∈ onWords ∨ word ∈ offWords) :
    ¬ Numeral.Writes word n := by
  have hletter : ¬ ∀ c ∈ Numeral.unsigned word.toList, c.isDigit := by
    rw [← List.all_eq_true]
    simp only [onWords, offWords, List.mem_cons, List.not_mem_nil, or_false] at h
    obtain (rfl | rfl | rfl) | (rfl | rfl | rfl) := h <;> decide
  exact fun hwrites => hletter (Numeral.writes_iff.mp hwrites).2.1

theorem switchOrNumber_eq_ok_iff {v : Number} {n : Nat} :
    vars.switchOrNumber v = .ok n ↔ vars.GivesOrSwitches v n := by
  have hbound := v.bound_pos
  unfold switchOrNumber GivesOrSwitches
  cases vars v.key with
  | none => simp [eq_comm]
  | some s =>
    have hon : LowerCase.ofString s = "true" ∨ LowerCase.ofString s = "on" ∨
        LowerCase.ofString s = "yes" ↔ LowerCase.ofString s ∈ onWords := by simp [onWords]
    have hoff : LowerCase.ofString s = "false" ∨ LowerCase.ofString s = "off" ∨
        LowerCase.ofString s = "no" ↔ LowerCase.ofString s ∈ offWords := by simp [offWords]
    have hword : LowerCase.ofString s ∈ onWords ∨ LowerCase.ofString s ∈ offWords →
        ¬ Numeral.Writes s n := fun h hwrites =>
      not_writes_word (lowerCase_of_writes hwrites ▸ h) hwrites
    have hboth : LowerCase.ofString s ∈ onWords → LowerCase.ofString s ∉ offWords := by
      have hdisjoint : ∀ w ∈ onWords, w ∉ offWords := by decide
      exact hdisjoint _
    dsimp only
    simp only [hon, hoff, Switches]
    by_cases h1 : LowerCase.ofString s ∈ onWords
    · simp [h1, hboth h1, hword (.inl h1), eq_comm]
    · by_cases h0 : LowerCase.ofString s ∈ offWords
      · simp [h1, h0, hword (.inr h0), eq_comm]
      · rw [if_neg h1, if_neg h0, mapError_eq_ok_iff, Numeral.read_eq_ok_iff]
        simp only [h1, h0, false_and, false_or]
        exact and_congr_right fun _ => by omega

/-- Variables describe how to reach the database. -/
structure DescribesDatabase (d : DatabaseSettings) : Prop where
  url : vars "DATABASE_URL" = some d.url
  maxConnections : vars.Gives .maxConnections d.maxConnections
  minConnections : vars.Gives .minConnections d.minConnections

/-- Variables describe how identifiers are made and handed out. -/
structure DescribesIds (s : IdSettings) : Prop where
  mode : IdMode.ofName? (vars.text "ID_GENERATION_MODE" "partitioned") = some s.mode
  partitions : vars.Gives .partitions s.partitions
  scrollSize : vars.Gives .scrollSize s.scrollSize
  queueCapacity : vars.Gives .queueCapacity s.queueCapacity
  acquireTimeout : vars.Gives .acquireTimeout s.acquireTimeout
  lockTtl : vars.Gives .lockTtl s.lockTtl
  lockWait : vars.Gives .lockWait s.lockWait

/-- Variables describe how hard to try to reserve a name. -/
structure DescribesNaming (s : NamingSettings) : Prop where
  maxAttempts : vars.Gives .maxAttempts s.maxAttempts
  initialBackoff : vars.Gives .initialBackoff s.initialBackoff
  maxBackoff : vars.Gives .maxBackoff s.maxBackoff

/-- Variables describe the stores of a backend. There are some outside of the process just if the
backend is the database, and only then are their variables looked at. -/
def DescribesStores (backend : Backend) (database : Option DatabaseSettings)
    (redisUrl : Option String) : Prop :=
  match backend with
  | .memory => database = none ∧ redisUrl = none
  | .postgres => ∃ d url, database = some d ∧ redisUrl = some url ∧
      vars.DescribesDatabase d ∧ vars "REDIS_URL" = some url

variable {vars}

theorem database_eq_ok_iff {inProduction : Bool} {d : DatabaseSettings} :
    vars.database inProduction = .ok d ↔ vars.DescribesDatabase d := by
  simp only [database, bind_eq_ok_iff, required_eq_ok_iff, natural_eq_ok_iff]
  constructor
  · rintro ⟨url, hurl, most, hmost, least, hleast, h⟩
    obtain rfl := Except.ok.inj h
    exact ⟨hurl, hmost, hleast⟩
  · rintro ⟨hurl, hmost, hleast⟩
    exact ⟨_, hurl, _, hmost, _, hleast, rfl⟩

theorem stores_eq_ok_iff {inProduction : Bool} {backend : Backend}
    {database : Option DatabaseSettings} {redisUrl : Option String} :
    vars.stores inProduction backend = .ok (database, redisUrl) ↔
      vars.DescribesStores backend database redisUrl := by
  cases backend with
  | memory => simp [stores, DescribesStores, pure, Except.pure, eq_comm]
  | postgres =>
    simp only [stores, DescribesStores, bind_eq_ok_iff, database_eq_ok_iff, required_eq_ok_iff]
    constructor
    · rintro ⟨d, hd, url, hurl, h⟩
      obtain ⟨rfl, rfl⟩ := Prod.mk.inj (Except.ok.inj h)
      exact ⟨d, url, rfl, rfl, hd, hurl⟩
    · rintro ⟨d, url, rfl, rfl, hd, hurl⟩
      exact ⟨d, hd, url, hurl, rfl⟩

theorem ids_eq_ok_iff {s : IdSettings} : vars.ids = .ok s ↔ vars.DescribesIds s := by
  simp only [ids, bind_eq_ok_iff, choice_eq_ok_iff, natural_eq_ok_iff]
  constructor
  · rintro ⟨mode, hmode, n₁, h₁, n₂, h₂, n₃, h₃, n₄, h₄, n₅, h₅, n₆, h₆, h⟩
    obtain rfl := Except.ok.inj h
    exact ⟨hmode, h₁, h₂, h₃, h₄, h₅, h₆⟩
  · rintro ⟨hmode, h₁, h₂, h₃, h₄, h₅, h₆⟩
    exact ⟨_, hmode, _, h₁, _, h₂, _, h₃, _, h₄, _, h₅, _, h₆, rfl⟩

theorem naming_eq_ok_iff {s : NamingSettings} : vars.naming = .ok s ↔ vars.DescribesNaming s := by
  simp only [naming, bind_eq_ok_iff, natural_eq_ok_iff]
  constructor
  · rintro ⟨n₁, h₁, n₂, h₂, n₃, h₃, h⟩
    obtain rfl := Except.ok.inj h
    exact ⟨h₁, h₂, h₃⟩
  · rintro ⟨h₁, h₂, h₃⟩
    exact ⟨_, h₁, _, h₂, _, h₃, rfl⟩

end Variables

/-! ### The whole configuration -/

/-- Variables describe a configuration: each member is what its variable gives. -/
structure Describes (vars : Variables) (c : Config) : Prop where
  port : vars.GivesOrSwitches .port c.port
  shutdownGrace : vars.GivesOrSwitches .shutdownGrace c.shutdownGrace
  environment : Environment.ofName? (vars.text "ENVIRONMENT" "dev") = some c.environment
  backend : Backend.ofName? (vars.text "STORAGE_BACKEND" "postgres") = some c.backend
  stores : vars.DescribesStores c.backend c.database c.redisUrl
  ids : vars.DescribesIds c.ids
  naming : vars.DescribesNaming c.naming
  serviceName : c.serviceName = (vars "SERVICE_NAME").getD "identity-service"
  serviceVersion : c.serviceVersion = (vars "SERVICE_VERSION").getD "0.1.0"
  logLevel : c.logLevel = (vars "LOG_LEVEL").getD "info"
  traceEndpoint : ∀ s, c.traceEndpoint = some s ↔ vars "OTLP_ENDPOINT" = some s ∧ s ≠ ""
  apiToken : ∀ s, c.apiToken = some s ↔ vars "API_TOKEN" = some s ∧ s ≠ ""

theorem Variables.nonEmpty?_eq_some_iff {vars : Variables} {key s : String} :
    vars.nonEmpty? key = some s ↔ vars key = some s ∧ s ≠ "" := by
  simp [nonEmpty?, Option.filter_eq_some_iff]

/-- A configuration is read just if the variables describe it. -/
theorem read_eq_ok_iff {vars : Variables} {c : Config} : read vars = .ok c ↔ Describes vars c := by
  simp only [read, bind_eq_ok_iff, Variables.choice_eq_ok_iff, Variables.ids_eq_ok_iff,
    Variables.naming_eq_ok_iff, Variables.switchOrNumber_eq_ok_iff]
  constructor
  · rintro ⟨port, hport, grace, hgrace, e, he, b, hb, ⟨database, redisUrl⟩, hstores, ids, hids,
      naming, hnaming, h⟩
    obtain rfl := Except.ok.inj h
    exact
      { port := hport
        shutdownGrace := hgrace
        environment := he
        backend := hb
        stores := Variables.stores_eq_ok_iff.mp hstores
        ids := hids
        naming := hnaming
        serviceName := rfl
        serviceVersion := rfl
        logLevel := rfl
        traceEndpoint := fun _ => Variables.nonEmpty?_eq_some_iff
        apiToken := fun _ => Variables.nonEmpty?_eq_some_iff }
  · intro h
    refine ⟨_, h.port, _, h.shutdownGrace, _, h.environment, _, h.backend, _,
      Variables.stores_eq_ok_iff.mpr h.stores, _, h.ids, _, h.naming, ?_⟩
    have htrace : vars.nonEmpty? "OTLP_ENDPOINT" = c.traceEndpoint :=
      Option.ext fun s => Variables.nonEmpty?_eq_some_iff.trans (h.traceEndpoint s).symm
    have htoken : vars.nonEmpty? "API_TOKEN" = c.apiToken :=
      Option.ext fun s => Variables.nonEmpty?_eq_some_iff.trans (h.apiToken s).symm
    rw [htrace, htoken, Variables.text, Variables.text, Variables.text, ← h.serviceName,
      ← h.serviceVersion, ← h.logLevel]
    rfl

/-- The service can run on a configuration. -/
structure Sound (c : Config) : Prop where
  port : c.port ≠ 0
  partitions : 1 ≤ c.ids.partitions ∧ c.ids.partitions ≤ 65536
  scrollSize : c.ids.scrollSize ≠ 0
  acquireTimeout : c.ids.acquireTimeout ≠ 0
  maxAttempts : c.naming.maxAttempts ≠ 0
  production : c.environment = .prod → c.backend = .postgres ∧ ∃ token, c.apiToken = some token

theorem ne_memory_iff {b : Backend} : ¬ b = .memory ↔ b = .postgres := by
  cases b <;> decide

/-- A configuration is valid just if the service can run on it. -/
theorem validate_eq_ok_iff {c : Config} : c.validate = .ok () ↔ c.Sound := by
  have hproduction : (if c.environment = .prod then
      if c.backend = .memory then .error .memoryInProduction
      else if c.apiToken = none then .error .tokenMissing else .ok ()
      else .ok () : Except ConfigError Unit) = .ok () ↔
      (c.environment = .prod → c.backend = .postgres ∧ ∃ token, c.apiToken = some token) := by
    by_cases hprod : c.environment = .prod
    · rw [if_pos hprod, ite_error_eq_ok_iff, ite_error_eq_ok_iff, ne_memory_iff, ← ne_eq,
        Option.ne_none_iff_exists', and_iff_left rfl]
      exact (imp_iff_right hprod).symm
    · rw [if_neg hprod]
      exact iff_of_true rfl fun h => absurd h hprod
  simp only [validate, ite_error_eq_ok_iff, hproduction]
  constructor
  · rintro ⟨hport, hpartitions, hscroll, htimeout, hattempts, hprod⟩
    exact ⟨hport, by omega, hscroll, htimeout, hattempts, hprod⟩
  · rintro ⟨hport, hpartitions, hscroll, htimeout, hattempts, hprod⟩
    exact ⟨hport, by omega, hscroll, htimeout, hattempts, hprod⟩

theorem ofVariables_eq_ok_iff {vars : Variables} {c : Config} :
    ofVariables vars = .ok c ↔ Describes vars c ∧ c.Sound := by
  simp only [ofVariables, bind_eq_ok_iff, read_eq_ok_iff]
  constructor
  · rintro ⟨c', hc', u, hu, h⟩
    obtain rfl := Except.ok.inj h
    exact ⟨hc', validate_eq_ok_iff.mp hu⟩
  · rintro ⟨hc, hsound⟩
    exact ⟨c, hc, (), validate_eq_ok_iff.mpr hsound, rfl⟩

/-! ### Variables that can be deployed -/

namespace Variables

/-- The numbers that must not be zero, but for the port. -/
def Number.positive : List Number := [.scrollSize, .acquireTimeout, .maxAttempts]

/-- Variables that make a configuration, told by the variables alone. -/
structure Deployable (vars : Variables) : Prop where
  /-- The port can be used, and it is not zero. -/
  port : ∃ n, vars.GivesOrSwitches .port n ∧ n ≠ 0
  /-- The time to stop can be used. -/
  shutdownGrace : ∃ n, vars.GivesOrSwitches .shutdownGrace n
  /-- The three names are known. -/
  environment : ∃ e, Environment.ofName? (vars.text "ENVIRONMENT" "dev") = some e
  backend : ∃ b, Backend.ofName? (vars.text "STORAGE_BACKEND" "postgres") = some b
  mode : ∃ m, IdMode.ofName? (vars.text "ID_GENERATION_MODE" "partitioned") = some m
  /-- Each number that is read is one. -/
  numbers : ∀ v ∈ Number.always, ∃ n, vars.Gives v n
  positive : ∀ v ∈ Number.positive, ¬ vars.Gives v 0
  partitions : ∀ n, vars.Gives .partitions n → 1 ≤ n ∧ n ≤ 65536
  /-- The stores outside of the process can be reached, if there are any. -/
  stores : Backend.ofName? (vars.text "STORAGE_BACKEND" "postgres") = some .postgres →
    (∃ url, vars "DATABASE_URL" = some url) ∧ (∃ url, vars "REDIS_URL" = some url) ∧
      ∀ v ∈ Number.database, ∃ n, vars.Gives v n
  /-- In production there are stores outside of the process, and callers have to say who
  they are. -/
  production : Environment.ofName? (vars.text "ENVIRONMENT" "dev") = some .prod →
    Backend.ofName? (vars.text "STORAGE_BACKEND" "postgres") = some .postgres ∧
      ∃ token, vars "API_TOKEN" = some token ∧ token ≠ ""

variable {vars : Variables}

theorem Gives.unique {v : Number} {m n : Nat} (hm : vars.Gives v m) (hn : vars.Gives v n) :
    m = n := by
  unfold Gives at hm hn
  cases hv : vars v.key with
  | none =>
    rw [hv] at hm hn
    exact hm.trans hn.symm
  | some s =>
    rw [hv] at hm hn
    rw [(Numeral.writes_iff.mp hm.1).2.2, (Numeral.writes_iff.mp hn.1).2.2]

theorem Deployable.exists_stores {b : Backend} (h : vars.Deployable)
    (hb : Backend.ofName? (vars.text "STORAGE_BACKEND" "postgres") = some b) :
    ∃ database redisUrl, vars.DescribesStores b database redisUrl := by
  cases b with
  | memory => exact ⟨none, none, rfl, rfl⟩
  | postgres =>
    obtain ⟨⟨url, hurl⟩, ⟨redisUrl, hredis⟩, hnumbers⟩ := h.stores hb
    simp only [Number.database, List.forall_mem_cons, List.not_mem_nil, false_imp_iff,
      implies_true, and_true] at hnumbers
    obtain ⟨⟨most, hmost⟩, ⟨least, hleast⟩⟩ := hnumbers
    exact ⟨some ⟨url, most, least⟩, some redisUrl, _, _, rfl, rfl, ⟨hurl, hmost, hleast⟩, hredis⟩

/-- The variables of a sound configuration can be told without it. -/
theorem exists_describes_iff : (∃ c, Describes vars c ∧ c.Sound) ↔ vars.Deployable := by
  constructor
  · rintro ⟨c, h, hsound⟩
    have hids := h.ids
    have hnaming := h.naming
    refine
      { port := ⟨_, h.port, hsound.port⟩
        shutdownGrace := ⟨_, h.shutdownGrace⟩
        environment := ⟨_, h.environment⟩
        backend := ⟨_, h.backend⟩
        mode := ⟨_, hids.mode⟩
        numbers := ?_
        positive := ?_
        partitions := fun n hn => hids.partitions.unique hn ▸ hsound.partitions
        stores := fun hb => ?_
        production := fun he => ?_ }
    · simp only [Number.always, List.forall_mem_cons, List.not_mem_nil, false_imp_iff,
        implies_true, and_true]
      exact ⟨⟨_, hids.partitions⟩, ⟨_, hids.scrollSize⟩, ⟨_, hids.queueCapacity⟩,
        ⟨_, hids.acquireTimeout⟩, ⟨_, hids.lockTtl⟩, ⟨_, hids.lockWait⟩, ⟨_, hnaming.maxAttempts⟩,
        ⟨_, hnaming.initialBackoff⟩, ⟨_, hnaming.maxBackoff⟩⟩
    · simp only [Number.positive, List.forall_mem_cons, List.not_mem_nil, false_imp_iff,
        implies_true, and_true]
      exact ⟨fun h0 => hsound.scrollSize (hids.scrollSize.unique h0),
        fun h0 => hsound.acquireTimeout (hids.acquireTimeout.unique h0),
        fun h0 => hsound.maxAttempts (hnaming.maxAttempts.unique h0)⟩
    · have hbackend : c.backend = .postgres := Option.some.inj (h.backend.symm.trans hb)
      have hstores := h.stores
      rw [hbackend] at hstores
      obtain ⟨d, url, -, -, hd, hurl⟩ := hstores
      refine ⟨⟨_, hd.url⟩, ⟨_, hurl⟩, ?_⟩
      simp only [Number.database, List.forall_mem_cons, List.not_mem_nil, false_imp_iff,
        implies_true, and_true]
      exact ⟨⟨_, hd.maxConnections⟩, ⟨_, hd.minConnections⟩⟩
    · have henvironment : c.environment = .prod := Option.some.inj (h.environment.symm.trans he)
      obtain ⟨hbackend, token, htoken⟩ := hsound.production henvironment
      exact ⟨hbackend ▸ h.backend, token, (h.apiToken token).mp htoken⟩
  · intro h
    obtain ⟨port, hport, hport0⟩ := h.port
    obtain ⟨grace, hgrace⟩ := h.shutdownGrace
    obtain ⟨e, he⟩ := h.environment
    obtain ⟨b, hb⟩ := h.backend
    obtain ⟨mode, hmode⟩ := h.mode
    obtain ⟨database, redisUrl, hstores⟩ := h.exists_stores hb
    have hnumbers := h.numbers
    have hpositive := h.positive
    simp only [Number.always, Number.positive, List.forall_mem_cons, List.not_mem_nil,
      false_imp_iff, implies_true, and_true] at hnumbers hpositive
    obtain ⟨⟨n₁, h₁⟩, ⟨n₂, h₂⟩, ⟨n₃, h₃⟩, ⟨n₄, h₄⟩, ⟨n₅, h₅⟩, ⟨n₆, h₆⟩, ⟨m₁, hm₁⟩, ⟨m₂, hm₂⟩,
      ⟨m₃, hm₃⟩⟩ := hnumbers
    obtain ⟨hscroll, htimeout, hattempts⟩ := hpositive
    refine ⟨
      { port, shutdownGrace := grace, environment := e, backend := b, database, redisUrl
        ids := ⟨mode, n₁, n₂, n₃, n₄, n₅, n₆⟩
        naming := ⟨m₁, m₂, m₃⟩
        serviceName := vars.text "SERVICE_NAME" "identity-service"
        serviceVersion := vars.text "SERVICE_VERSION" "0.1.0"
        logLevel := vars.text "LOG_LEVEL" "info"
        traceEndpoint := vars.nonEmpty? "OTLP_ENDPOINT"
        apiToken := vars.nonEmpty? "API_TOKEN" }, ?_, ?_⟩
    · exact
        { port := hport
          shutdownGrace := hgrace
          environment := he
          backend := hb
          stores := hstores
          ids := ⟨hmode, h₁, h₂, h₃, h₄, h₅, h₆⟩
          naming := ⟨hm₁, hm₂, hm₃⟩
          serviceName := rfl
          serviceVersion := rfl
          logLevel := rfl
          traceEndpoint := fun _ => nonEmpty?_eq_some_iff
          apiToken := fun _ => nonEmpty?_eq_some_iff }
    · refine
        { port := hport0
          partitions := h.partitions n₁ h₁
          scrollSize := ?_
          acquireTimeout := ?_
          maxAttempts := ?_
          production := ?_ }
      · rintro rfl
        exact hscroll h₂
      · rintro rfl
        exact htimeout h₄
      · rintro rfl
        exact hattempts hm₁
      · rintro rfl
        obtain ⟨hpostgres, token, htoken⟩ := h.production he
        exact ⟨Option.some.inj (hb.symm.trans hpostgres), token,
          nonEmpty?_eq_some_iff.mpr htoken⟩

end Variables

theorem isSome_of_describesStores {vars : Variables} {b : Backend}
    {database : Option DatabaseSettings} {redisUrl : Option String}
    (h : vars.DescribesStores b database redisUrl) :
    database.isSome = decide (b = .postgres) ∧ redisUrl.isSome = decide (b = .postgres) := by
  cases b with
  | memory =>
    obtain ⟨rfl, rfl⟩ := h
    exact ⟨rfl, rfl⟩
  | postgres =>
    obtain ⟨d, url, rfl, rfl, -⟩ := h
    exact ⟨rfl, rfl⟩

/-- **Just the deployable environments are accepted.** Whatever texts the variables hold, there is
a configuration for them just if the environment, the backend and the mode of identifiers have
known names, each number that is read is a decimal numeral below its bound or not set, the URLs of
the database and the cache are set if there are to be any, the port, the size of a round, the
time to wait for an identifier and the attempts are not zero, there are between 1 and 65536
partitions, and production has a database and a token that is not empty.

The configuration is then valid. Each member has the value that is given, or the default where
none is; a token and an endpoint for traces are there just if they are given and not empty; and
there are a database and a cache just if the backend is the database. -/
theorem accepts_deployable (vars : Variables) :
    ((∃ c, ofVariables vars = .ok c) ↔ vars.Deployable) ∧
    ∀ c, ofVariables vars = .ok c →
      c.validate = .ok () ∧ Describes vars c ∧
      (c.database.isSome ↔ c.backend = .postgres) ∧
      (c.redisUrl.isSome ↔ c.backend = .postgres) := by
  simp only [ofVariables_eq_ok_iff]
  refine ⟨Variables.exists_describes_iff, fun c ⟨h, hsound⟩ => ?_⟩
  obtain ⟨hdatabase, hredis⟩ := isSome_of_describesStores h.stores
  exact ⟨validate_eq_ok_iff.mpr hsound, h, by simp [hdatabase], by simp [hredis]⟩

/-- A process of its own that listens at port 80; that the token is empty makes no difference. -/
example : (ofVariables fun key =>
    [("STORAGE_BACKEND", "Memory"), ("APP__PORT", "+0080"), ("API_TOKEN", "")].lookup key) =
      .ok { inMemory with port := 80 } := by decide +kernel

end Config
end AccessRegistry
