/-
# Decisions are reachability

What a principal holds on an object is the union of what was granted there to it and to
the registered principals above it, as far as the grants have not expired
(`Authorization.Effective`). The permissions on a list of keys, the check of one key and
the answer to a request all come down to this union, whatever the memberships are and
whichever keys are asked for together.

Key definitions: `Authorization.CountsFor`, `Authorization.Effective`.
Key theorems: `Authorization.mem_closureOf`, `Authorization.contains_holdings`,
`Authorization.serve_check`, `Authorization.decisions_are_reachability`.
-/
import AccessRegistry.Http.Service
import AccessRegistry.Proofs.Authorization.Holdings
import AccessRegistry.Proofs.Graph.Closures
import AccessRegistry.Proofs.Tables

namespace AccessRegistry.Authorization

open Std (ExtTreeMap ExtTreeSet)

/-- Whether the grants of a principal count for another: it is the same, or both are
registered and memberships lead from the other to it. -/
def CountsFor (t : Tables) (p q : Principal) : Prop :=
  q = p ∨ ∃ r r' : Registration, t.directory.find? p = some r ∧ t.directory.find? q = some r' ∧
    Graph.Above t.memberships r.aclKey r'.aclKey

/-- Whether a principal has a permission on an object at an instant: there is a grant that
counts for it, has not expired, and includes the permission. -/
def Effective (t : Tables) (now : Instant) (p : Principal) (key : AclKey) (x : Permission) :
    Prop :=
  ∃ (q : Principal) (v : Entry.Value), CountsFor t p q ∧ t.permissions.find? ⟨key, q⟩ = some v ∧
    now < v.expiration ∧ v.permissions.contains x = true

/-! ### What is read -/

variable {s : State} {t : Tables} {p q : Principal}

/-- The principals whose grants are looked for. -/
def closureOf (t : Tables) (p : Principal) : ExtTreeSet Principal :=
  match t.directory.find? p with
  | none => ExtTreeSet.ofList [p]
  | some r => (Graph.closureMap t [r]).getD p (ExtTreeSet.ofList [p])

theorem reads_closure (h : s.InMemory) (p : Principal) :
    (closure p).Reads s (closureOf s.tables p) := by
  refine Action.reads_bind (Store.reads_lookup? h p) fun log => ?_
  unfold closureOf
  cases s.tables.directory.find? p with
  | none => exact Action.reads_pure _ _
  | some r =>
    exact Action.reads_bind (Graph.reads_closures (h.withLog log) [r]) fun _ =>
      Action.reads_pure _ _

/-- Exactly the principals are asked whose grants count. -/
theorem mem_closureOf (h : t.directory.Consistent) : q ∈ closureOf t p ↔ CountsFor t p q := by
  unfold closureOf CountsFor
  cases hp : t.directory.find? p with
  | none =>
    rw [mem_setOfList, List.mem_singleton]
    simp
  | some r =>
    have hrp : r.principal = p := Directory.principal_of_find? h hp
    have hroot : ∀ r' ∈ [r], t.directory.find? r'.principal = some r' := by
      intro r' hr'
      obtain rfl := List.mem_singleton.mp hr'
      rw [hrp, hp]
    obtain ⟨closure, hclosure, hmem⟩ := Graph.getElem?_closureMap h hroot List.mem_cons_self
    rw [hrp] at hclosure hmem
    simp only [ExtTreeMap.getD_eq_getD_getElem?, hclosure, Option.getD_some, hmem]
    refine or_congr_right ?_
    constructor
    · rintro ⟨a, ha, rfl⟩
      obtain ⟨hfind, habove⟩ := (Graph.mem_ancestorList h).mp ha
      exact ⟨r, a, rfl, hfind, habove⟩
    · rintro ⟨r', a, hr', hfind, habove⟩
      obtain rfl := Option.some.inj hr'
      obtain rfl := Directory.principal_of_find? h hfind
      exact ⟨a, (Graph.mem_ancestorList h).mpr ⟨hfind, habove⟩, rfl⟩

/-- The entries that are looked for. -/
def asked (t : Tables) (p : Principal) (keys : List AclKey) : List Entry.Key :=
  keys.flatMap fun key => (closureOf t p).toList.map fun q => ⟨key, q⟩

/-- What a principal holds at an instant on some keys. -/
def holdings (t : Tables) (now : Instant) (p : Principal) (keys : List AclKey) : Holdings :=
  (t.permissions.findMany (asked t p keys)).foldl (Holdings.add now) (Holdings.blank keys)

theorem holdings_nil (t : Tables) (now : Instant) (p : Principal) :
    holdings t now p [] = Holdings.blank [] := by
  unfold holdings asked
  have hnone : (t.permissions.findMany []).toList = [] := ExtTreeMap.toList_eq_nil_iff.mpr rfl
  rw [List.flatMap_nil, ExtTreeMap.foldl_eq_foldl_toList, hnone, List.foldl_nil]

theorem reads_permissions (h : s.InMemory) (p : Principal) (keys : List AclKey) :
    (permissions p keys).Reads s (holdings s.tables s.today p keys) := by
  unfold permissions
  split
  · rename_i he
    rw [List.isEmpty_iff.mp he, holdings_nil]
    exact Action.reads_pure _ s
  · refine Action.reads_bind (reads_closure h p) fun log => ?_
    refine Action.reads_bind (Store.reads_entries (h.withLog log) _) fun log => ?_
    exact Action.reads_get (Action.reads_pure _ _)

theorem mem_findMany {perms : Permissions} {ks : List Entry.Key} {e : Entry.Key × Entry.Value} :
    e ∈ (perms.findMany ks).toList ↔ e.1 ∈ ks ∧ perms.find? e.1 = some e.2 := by
  rw [ExtTreeMap.mem_toList_iff_getElem?_eq_some, Permissions.findMany, getElem?_foldl_elim]
  by_cases he : e.1 ∈ ks <;> simp [he]

theorem mem_asked {keys : List AclKey} {k : Entry.Key} :
    k ∈ asked t p keys ↔ k.aclKey ∈ keys ∧ k.principal ∈ closureOf t p := by
  unfold asked
  simp only [List.mem_flatMap, List.mem_map, ExtTreeSet.mem_toList]
  constructor
  · rintro ⟨key, hkey, q, hq, rfl⟩
    exact ⟨hkey, hq⟩
  · rintro ⟨hkey, hq⟩
    exact ⟨k.aclKey, hkey, k.principal, hq, rfl⟩

variable {now : Instant} {keys : List AclKey} {key : AclKey}

theorem mem_holdings : key ∈ holdings t now p keys ↔ key ∈ keys := by
  unfold holdings
  rw [ExtTreeMap.foldl_eq_foldl_toList, Holdings.mem_foldl_add, Holdings.mem_blank]

/-- What is held on a key is what is granted there to whoever counts, whatever the
other keys are. -/
theorem contains_holdings (h : t.directory.Consistent) (hkey : key ∈ keys) {x : Permission} :
    ((holdings t now p keys).getD key .empty).contains x = true ↔ Effective t now p key x := by
  unfold holdings
  rw [ExtTreeMap.foldl_eq_foldl_toList,
    Holdings.contains_foldl_add _ _ (Holdings.mem_blank.mpr hkey), Holdings.getD_blank]
  simp only [mem_findMany, mem_asked, mem_closureOf h, Entry.Value.contains_permissionsAt,
    PermissionSet.contains_empty, Bool.false_eq_true, false_or]
  constructor
  · rintro ⟨⟨k, v⟩, ⟨⟨-, hq⟩, hv⟩, rfl, hnow, hx⟩
    exact ⟨k.principal, v, hq, hv, hnow, hx⟩
  · rintro ⟨q, v, hq, hv, hnow, hx⟩
    exact ⟨(⟨key, q⟩, v), ⟨⟨hkey, hq⟩, hv⟩, rfl, hnow, hx⟩

/-- The keys that are asked for together have no say in what is held on one of them. -/
theorem getD_holdings_singleton (h : t.directory.Consistent) (hkey : key ∈ keys) :
    (holdings t now p [key]).getD key .empty = (holdings t now p keys).getD key .empty := by
  apply PermissionSet.ext_contains
  intro x
  rw [Bool.eq_iff_iff, contains_holdings h List.mem_cons_self, contains_holdings h hkey]

/-- What a check of one key decides. -/
def decided (t : Tables) (now : Instant) (p : Principal) (key : AclKey) (needed : PermissionSet) :
    Bool :=
  ((holdings t now p [key]).getD key .empty).containsAll needed

theorem reads_check (h : s.InMemory) (p : Principal) (key : AclKey) (needed : PermissionSet) :
    (check p key needed).Reads s (decided s.tables s.today p key needed) :=
  Action.reads_bind (reads_permissions h p [key]) fun _ => Action.reads_pure _ _

theorem decided_iff (h : t.directory.Consistent) {needed : PermissionSet} :
    decided t now p key needed = true ↔
      ∀ x, needed.contains x = true → Effective t now p key x := by
  unfold decided
  rw [PermissionSet.containsAll_iff]
  simp only [contains_holdings h List.mem_cons_self]

/-! ### What a caller is told -/

theorem run_ask {α : Type} {x : Action α} {a : α} (hx : x.Reads s a) :
    ∃ log, (ExceptT.run (Http.ask x)).run s = (.ok a, { s with log }) := by
  obtain ⟨log, hx⟩ := hx
  refine ⟨log, ?_⟩
  show (Except.mapError ApiError.ofServiceError (x.perform s).1, (x.perform s).2) = _
  rw [hx]
  rfl

/-- The reply to a question that was read: one answer for each key, in order. -/
theorem serve_check (h : s.InMemory) (c : Config) {r : Http.Request} {keys : List AclKey}
    {needed : Option PermissionSet} (hpost : r.method = "POST")
    (hread : Http.check r = .ok (.check p keys needed)) :
    ∃ log, (Http.serve c .check r).run s =
      (.ok (.object [("principal", p.toJson),
        ("results", Json.ofList (Http.holding (holdings s.tables s.today p keys) needed) keys)]),
        { s with log }) := by
  obtain ⟨log, hask⟩ := run_ask (reads_permissions h p keys)
  refine ⟨log, ?_⟩
  have hcommand : (Http.Method.ofName? r.method).bind (Http.Command.read? r .check) =
      some (.ok (.check p keys needed)) := by
    rw [hpost]
    exact congrArg some hread
  have hperform : StateT.run (ExceptT.run ((Http.Command.check p keys needed).perform c)) s =
      (.ok (.ok (.object [("principal", p.toJson),
        ("results", Json.ofList (Http.holding (holdings s.tables s.today p keys) needed) keys)])),
        { s with log }) := by
    unfold Http.Command.perform
    rw [ExceptT.run_bind, StateT.run_bind, hask]
    rfl
  unfold Http.serve
  rw [hcommand]
  dsimp only
  rw [StateT.run_bind, hperform]
  rfl

/-- What a caller is told of a key: what is held there, and whether that is all that is
needed. -/
def told (held : PermissionSet) (granted : PermissionSet → Bool) (needed : Option PermissionSet)
    (key : AclKey) : Json :=
  .object ([("acl_key", key.toJson), ("permissions", held.toJson)] ++
    needed.toList.map fun n => ("granted", .bool (granted n)))

/-- A caller who asks of many keys is told of each what a check of it alone decides. -/
theorem map_holding (h : t.directory.Consistent) (needed : Option PermissionSet) :
    keys.map (Http.holding (holdings t now p keys) needed) =
      keys.map fun key =>
        told ((holdings t now p keys).getD key .empty) (decided t now p key) needed key := by
  apply List.map_congr_left
  intro key hkey
  unfold Http.holding told decided
  rw [getD_holdings_singleton h hkey]

/-- **Decisions are reachability.** Whoever asks what a principal may do is told of exactly
the keys that were asked for, and of each the permissions that some grant gives there which
counts and has not expired. A check of a key is granted if all that is needed is among
these, and the reply to a request names, for each key in order, the same permissions and
the same decision. -/
theorem decisions_are_reachability (h : s.InMemory) (changes : List Tables.Change)
    (hs : s.tables = Tables.after changes) (p : Principal) (keys : List AclKey) :
    ∃ (held : Holdings) (granted : AclKey → PermissionSet → Bool),
      (permissions p keys).Reads s held ∧
      (∀ key, key ∈ held ↔ key ∈ keys) ∧
      (∀ key ∈ keys, ∀ x, (held.getD key .empty).contains x = true ↔
        Effective s.tables s.today p key x) ∧
      (∀ key needed, (check p key needed).Reads s (granted key needed) ∧
        (granted key needed = true ↔
          ∀ x, needed.contains x = true → Effective s.tables s.today p key x)) ∧
      (∀ key x, ∃ b, (has p key x).Reads s b ∧
        (b = true ↔ Effective s.tables s.today p key x)) ∧
      (∀ (c : Config) (r : Http.Request) (needed : Option PermissionSet), r.method = "POST" →
        Http.check r = .ok (.check p keys needed) → ∃ log, (Http.serve c .check r).run s =
          (.ok (.object [("principal", p.toJson), ("results", .array (keys.map fun key =>
            told (held.getD key .empty) (granted key) needed key))]), { s with log })) := by
  have hc : s.tables.directory.Consistent := hs ▸ Tables.consistent_directory_after changes
  refine ⟨holdings s.tables s.today p keys, decided s.tables s.today p, reads_permissions h p keys,
    fun key => mem_holdings, fun key hkey x => contains_holdings hc hkey,
    fun key needed => ⟨reads_check h p key needed, decided_iff hc⟩, fun key x => ?_,
    fun c r needed hpost hread => ?_⟩
  · refine ⟨decided s.tables s.today p key (.ofList [x]), reads_check h p key _, ?_⟩
    rw [decided_iff hc]
    simp only [PermissionSet.contains_ofList_singleton, forall_eq']
  · rw [← map_holding hc]
    exact serve_check h c hpost hread

/-- A member of a group may do, to the second, what the group may, and whoever asks is
told so. -/
theorem group_grant_counts :
    let alice : Registration := ⟨.single (.system 1), ⟨.user, "alice"⟩, "", ""⟩
    let team : Registration := ⟨.single (.system 2), ⟨.role, "team"⟩, "", ""⟩
    let door : AclKey := .single (.system 3)
    let needed : PermissionSet := .ofList [.read]
    let s : State := { State.start {} ⟨0, 0⟩ with
      tables := Tables.after [.directory (.add alice), .directory (.add team),
        .addEdge alice.aclKey team.aclKey,
        .permissions (.merge [⟨door, team.principal⟩] needed .unknown ⟨1, 0⟩)] }
    let r : Http.Request := ⟨"POST", "/permissions/check", [("content-type", "application/json")],
      "[[\"user\",\"alice\"],[[\"00000000-0000-0000-0000-000000000003\"]],[\"READ\"]]"⟩
    (∃ b, (has alice.principal door .read).Reads s b ∧ b = true) ∧
      ∃ (held : PermissionSet) (granted : AclKey → PermissionSet → Bool),
        granted door needed = true ∧ ∀ c, ∃ log,
        (Http.serve c .check r).run s = (.ok (.object [("principal", alice.principal.toJson),
          ("results", .array [told held (granted door) (some needed) door])]), { s with log }) := by
  intro alice team door needed s r
  obtain ⟨held, granted, -, -, -, hcheck, hhas, hserve⟩ :=
    decisions_are_reachability (s := s) ⟨rfl, rfl⟩ _ rfl alice.principal [door]
  have heffective : Effective s.tables s.today alice.principal door .read := by
    refine ⟨team.principal, ⟨needed, .unknown, ⟨1, 0⟩⟩, ?_, by decide⟩
    exact Or.inr ⟨alice, team, by decide, by decide, .single (by decide)⟩
  have hread : Http.check r = .ok (.check alice.principal [door] (some needed)) := by
    have hquestion : (r.read Http.Question.form.read).toOption.map
        (fun q => (q.principal, q.keys, q.needed)) =
          some (alice.principal, [door], some needed) := by decide +kernel
    unfold Http.check
    revert hquestion
    rcases r.read Http.Question.form.read with e | ⟨p, keys, needed'⟩
    · intro h
      cases h
    · intro h
      simp only [Except.toOption, Option.map_some, Option.some.injEq, Prod.mk.injEq] at h
      obtain ⟨rfl, rfl, rfl⟩ := h
      rfl
  constructor
  · obtain ⟨b, hb, hiff⟩ := hhas door .read
    exact ⟨b, hb, hiff.mpr heffective⟩
  · refine ⟨held.getD door .empty, granted, ?_, fun c => hserve c r (some needed) rfl hread⟩
    refine (hcheck door needed).2.mpr fun x hx => ?_
    obtain rfl := (PermissionSet.contains_ofList_singleton _ _).mp hx
    exact heffective

end AccessRegistry.Authorization
