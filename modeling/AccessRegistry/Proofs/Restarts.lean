/-
# Restarts

A registry bootstraps each time it starts, on the tables that it had when it stopped. Whatever
was asked of it in between, the bootstrap sets things right just when all standard principals
are in their places then. Requests can put them out of their places: who renames a standard name
makes the next bootstrap fail, and who creates somebody under the name of a standard principal
that was deleted is taken for it, under a key of their own. Nothing else does: requests that
neither rename from or to a standard name nor create somebody with one leave every standard
principal in its place, whatever else they remove, release or retitle, and the next bootstrap
sets things right.

Key definitions: `Http.Command.Respectful`, `Http.Request.Respectful`, `Operation.Respectful`.
Key theorems: `Http.Command.upholds`, `Http.upholds_answer`, `Operation.Respectful.upholds`,
`State.restarts_recover`.
-/
import AccessRegistry.Proofs.Authorization.Standing

namespace AccessRegistry

namespace Http

variable {α : Type}

/-- A command leaves the standard names alone. -/
def Command.Respectful : Command → Prop
  | rename old new => ∀ r ∈ Standard.all, r.principal.toText ≠ old ∧ r.principal.toText ≠ new
  | create _ n => ∀ r ∈ Standard.all, r.principal.toText ≠ n.principal.toText
  | _ => True

/-- Of all commands only renamings and creations can put a standard principal out of its
place. -/
theorem Command.upholds (c : Config) {command : Command} (h : command.Respectful) :
    Upholds (command.perform c) := by
  cases command with
  | health =>
    exact preserves_bind
      (preserves_health (fun _ log hs => hs.withLog log) Action.upholds_call c)
      fun _ => preserves_pure _
  | metrics => exact preserves_get_bind fun _ => preserves_pure _
  | allocate count =>
    have hnext : Upholds (Desk.nextMany .front count) :=
      Action.upholds_of_idle (Desk.idle_nextMany .front count)
        (Desk.clears_nextMany .front count).preserves
    exact preserves_ask_pure hnext _
  | reservation name => exact preserves_ask_found (Naming.upholds_reservation? name) _ _
  | nameOf id => exact preserves_ask_found (Naming.upholds_nameOf? id) _ _
  | rename old new => exact preserves_ask_pure (Naming.upholds_rename h) _
  | release name => exact preserves_ask_pure (Naming.upholds_releaseNames [name]) _
  | create owner n =>
    exact preserves_ask_pure (Authorization.upholds_createPrincipal c.naming.retry owner h) _
  | lookup p => exact preserves_ask_pure (Authorization.upholds_lookup p) _
  | retitle p title => exact preserves_ask_pure (Authorization.upholds_updateTitle p title) _
  | delete p => exact preserves_ask_pure (Authorization.upholds_deletePrincipal p) _
  | closure p =>
    have hclosure : Upholds (Authorization.closure p) :=
      Action.upholds_of_reads fun _ hs => Authorization.reads_closure hs p
    exact preserves_ask_pure hclosure _
  | addMember child parent =>
    exact preserves_ask_pure (Authorization.upholds_addMember child parent) _
  | removeMember child parent =>
    exact preserves_ask_pure (Authorization.upholds_removeMember child parent) _
  | grant key p s kind expiration =>
    exact preserves_ask_pure (Authorization.upholds_grant key p s kind expiration) _
  | revoke key p s => exact preserves_ask_pure (Authorization.upholds_revoke key p s) _
  | check p keys needed =>
    have hheld : Upholds (Authorization.permissions p keys) :=
      Action.upholds_of_reads fun _ hs => Authorization.reads_permissions hs p keys
    exact preserves_ask_pure hheld _
  | query q =>
    have hfound : Upholds (Store.query q) :=
      Action.upholds_records .query fun t => t.permissions.query q
    exact preserves_ask_pure hfound _

/-- A request is read as no command, or as one that leaves the standard names alone. -/
def Request.Respectful (r : Request) : Prop :=
  ∀ place command, Place.ofPath? r.path = some place →
    (Method.ofName? r.method).bind (Command.read? r place) = some (.ok command) →
      command.Respectful

theorem respectful_map {reading : Reading α} {f : α → Command} (hf : ∀ a, (f a).Respectful)
    {command : Command} (h : f <$> reading = .ok command) : command.Respectful := by
  cases reading with
  | error e => cases h
  | ok a => exact Except.ok.inj h ▸ hf a

theorem Command.respectful_of_reads {command : Command} (h : command.reads = true) :
    command.Respectful := by
  cases command with
  | rename | create => cases h
  | _ => trivial

/-- Who gets or removes something leaves the standard names alone. -/
theorem Request.respectful_of_method {r : Request} (hpatch : r.method ≠ "PATCH")
    (hpost : r.method ≠ "POST") : r.Respectful := by
  intro place command _ hread
  have hmethod : ∀ m, Method.ofName? r.method = some m → m = .get ∨ m = .delete := by
    intro m hm
    unfold Method.ofName? at hm
    split at hm
    · exact .inl (Option.some.inj hm).symm
    · exact .inl (Option.some.inj hm).symm
    · rename_i heq
      exact absurd heq hpost
    · rename_i heq
      exact absurd heq hpatch
    · exact .inr (Option.some.inj hm).symm
    · cases hm
  obtain ⟨m, hm, hcommand⟩ := Option.bind_eq_some_iff.mp hread
  rcases hmethod m hm with rfl | rfl
  · exact Command.respectful_of_reads (reads_of_get hcommand)
  · cases place with
    | reservation | memberships | principal =>
      refine respectful_map ?_ (Option.some.inj hcommand)
      exact fun _ => trivial
    | _ => cases hcommand

/-- Whatever is answered to a request that leaves the standard names alone, the standard
principals stay in their places. -/
theorem upholds_answer (c : Config) {r : Request} (h : r.Respectful) {s : State}
    (hs : s.Standing) : ((answer c r).run s).2.Standing :=
  keeps_answer (fun _ log hs => hs.withLog log) c
    (fun place command hplace hread => Command.upholds c (h place command hplace hread)) hs

end Http

/-! ### Operations -/

/-- A bootstrap, or a request that leaves the standard names alone. -/
def Operation.Respectful : Operation → Prop
  | bootstrap => True
  | request _ r => r.Respectful
  | _ => False

theorem Operation.Respectful.upholds {o : Operation} (h : o.Respectful) : Upholds o.action := by
  cases o with
  | bootstrap => exact Authorization.upholds_bootstrap
  | request c r =>
    intro s hs
    have hanswer := Http.upholds_answer c h hs
    show (((discard (ExceptT.lift (Http.answer c r)) : Action Unit).perform s).2).Standing
    rw [Action.snd_perform_discard]
    exact hanswer
  | _ => exact h.elim

namespace State

theorem standing_after {ops : List Operation} {s : State} (hs : s.Standing)
    (hops : ∀ o ∈ ops, o.Respectful) : (s.after ops).Standing :=
  preserves_after (fun o ho => (hops o ho).upholds) hs

/-- **When a restart sets things right.** Whatever a registry was asked since it began without
records, the next bootstrap succeeds and leaves each standard principal registered under its key,
and administrators members of those who signed in, just when nobody has the name, the identifier
or the key of a standard principal but itself. Where nothing reserved waits at a desk in the
beginning, bootstraps and requests that neither rename from or to a standard name nor create
somebody with one always lead there. -/
theorem restarts_recover {s : State} (h : s.Blank) (ops : List Operation) :
    (Authorization.Recovers (s.after ops) ↔
      ∀ r ∈ Standard.all, (s.after ops).tables.InPlace r) ∧
    (s.Clear → (∀ o ∈ ops, o.Respectful) → Authorization.Recovers (s.after ops)) := by
  have hrecovers := Authorization.recovers_iff (advances_after ops h.toInMemory).1
    (sound_after h ops)
  refine ⟨hrecovers, fun hclear hops => hrecovers.mpr ?_⟩
  exact (standing_after ⟨h.toInMemory, h.standing, hclear⟩ hops).tables.places

/-- The service of the system is removed, and the name of a role is released; both come back. -/
theorem removed_principals_come_back :
    let remove : Http.Request := ⟨"DELETE", "/principals/service/system", [], ""⟩
    let release : Http.Request := ⟨"DELETE", "/reservations/role%3Aadmin", [], ""⟩
    let s := (start { mode := .random } ⟨0, 0⟩).after
      [.bootstrap, .request .inMemory remove, .request .inMemory release]
    s.tables.directory.find? Standard.systemPrincipal = none ∧
      s.tables.reservations.idOf? "role:admin" = none ∧ Authorization.Recovers s := by
  intro remove release s
  have hrespectful : ∀ o ∈ ([.bootstrap, .request .inMemory remove,
      .request .inMemory release] : List Operation), o.Respectful := by
    intro o ho
    simp only [List.mem_cons, List.not_mem_nil, or_false] at ho
    rcases ho with rfl | rfl | rfl
    · trivial
    · exact Http.Request.respectful_of_method (by decide) (by decide)
    · exact Http.Request.respectful_of_method (by decide) (by decide)
  have hgone : s.tables.directory.find? Standard.systemPrincipal = none ∧
      s.tables.reservations.idOf? "role:admin" = none := by decide +kernel
  refine ⟨hgone.1, hgone.2, ?_⟩
  exact (restarts_recover (blank_start { mode := .random } ⟨0, 0⟩) _).2
    (clear_start { mode := .random } ⟨0, 0⟩) hrespectful

/-- The role of administrators gets another name, and the next bootstrap fails. The service of the
system is removed, somebody is created in its place, and the name that they had reserved is
released: the next bootstrap succeeds, and the service is still registered under another key. -/
theorem standard_principals_can_be_replaced :
    let json := [("content-type", "application/json")]
    let rename : Http.Request :=
      ⟨"PATCH", "/reservations/role%3Aadmin", json, "\x7b\"new_name\":\"boss\"\x7d"⟩
    let remove : Http.Request := ⟨"DELETE", "/principals/service/system", [], ""⟩
    let create : Http.Request := ⟨"POST", "/principals", json,
      "\x7b\"principal_type\":\"service\",\"id\":\"system\",\"title\":\"T\"\x7d"⟩
    let release : Http.Request := ⟨"DELETE", "/reservations/service%3Asystem", [], ""⟩
    let blank := start { mode := .random } ⟨0, 0⟩
    let renamed := blank.after [.bootstrap, .request .inMemory rename]
    let replaced := blank.after [.bootstrap, .request .inMemory remove,
      .request .inMemory create, .request .inMemory release]
    (Authorization.bootstrap.perform blank).1 = .ok () ∧
      ((∃ reason, (Authorization.bootstrap.perform renamed).1 = .error (.conflict reason)) ∧
        ¬ Authorization.Recovers renamed) ∧
      (Authorization.bootstrap.perform replaced).1 = .ok () ∧
        ¬ Authorization.Recovers replaced := by
  intro json rename remove create release blank renamed replaced
  have hrenamed : (Authorization.bootstrap.perform renamed).1 = .error (.conflict <|
      "well-known name 'role:admin' or id 00000000-0000-0000-0000-000000000003 " ++
        "is bound elsewhere") := by
    decide +kernel
  have hreplaced : (Authorization.bootstrap.perform replaced).1 = .ok () ∧
      ((Authorization.bootstrap.perform replaced).2.tables.directory.find?
        Standard.systemPrincipal).map Registration.aclKey = some (.single (.ofRandomBits 0)) := by
    decide +kernel
  refine ⟨by decide +kernel, ⟨⟨_, hrenamed⟩, fun h => ?_⟩, hreplaced.1, fun h => ?_⟩
  · have hok := h.succeeds
    rw [hrenamed] at hok
    cases hok
  · obtain ⟨found, hhere, hkey⟩ := h.registers Standard.systemService (by decide)
    have hother : some Standard.systemService.aclKey = some (.single (.ofRandomBits 0)) := by
      rw [← hkey, ← hreplaced.2]
      exact (congrArg (Option.map Registration.aclKey) hhere).symm
    exact absurd hother (by decide)

end State
end AccessRegistry
