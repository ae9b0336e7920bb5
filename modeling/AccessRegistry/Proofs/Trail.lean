/-
# The trail is complete

Whoever reads the trail of audit events from its start can draw a picture of the registry:
who is registered at which key, which memberships there are, and who holds which permissions
on what. Each step of the books changes this picture as the event says that tells of it, or
not at all if none does (`Picture.of_step`), so that after every sequence of operations the
picture drawn from the trail is the one that the tables show.

Key definitions: `Picture`, `Picture.of`, `Picture.replay`.
Key theorems: `Picture.of_step`, `Picture.of_run`, `Picture.replay_eq_of_recorded`,
`Picture.trail_is_complete`.
-/
import AccessRegistry.Proofs.Operations
import AccessRegistry.Proofs.Permissions.Values

namespace AccessRegistry

/-- Where principals are registered, who is a member of whom, and who holds what. -/
@[ext] structure Picture where
  /-- The key of a registered principal. -/
  keyOf : Principal → Option AclKey
  /-- Whether the first key is a member of the second. -/
  joins : AclKey → AclKey → Bool
  /-- The permissions of an entry, if there is one. -/
  held : Entry.Key → Option PermissionSet

namespace Picture

/-- Nobody is registered, and nobody holds anything. -/
def blank : Picture := ⟨fun _ => none, fun _ _ => false, fun _ => none⟩

/-- The picture that the tables show. -/
def of (t : Tables) : Picture where
  keyOf p := (t.directory.find? p).map Registration.aclKey
  joins child parent := Memberships.holds t.memberships child parent
  held k := (t.permissions.find? k).map Entry.Value.permissions

/-- A principal is registered at a key. -/
def register (x : Picture) (p : Principal) (key : AclKey) : Picture :=
  { x with keyOf := fun q => if p = q then some key else x.keyOf q }

/-- A principal and its key are gone, with all that it holds and all that is held on it. -/
def remove (x : Picture) (p : Principal) (key : AclKey) : Picture where
  keyOf q := if p = q then none else x.keyOf q
  joins child parent := x.joins child parent && child ≠ key && parent ≠ key
  held k := if k.principal = p ∨ k.aclKey = key then none else x.held k

/-- A membership begins or ends. -/
def join (x : Picture) (child parent : AclKey) (holds : Bool) : Picture :=
  { x with joins := fun a b => if child = a ∧ parent = b then holds else x.joins a b }

/-- Permissions are added to an entry. -/
def give (x : Picture) (k : Entry.Key) (s : PermissionSet) : Picture :=
  { x with held := fun k' => if k = k' then some (((x.held k).getD .empty).union s) else x.held k' }

/-- Permissions are taken from an entry, which goes if it has none left. -/
def take (x : Picture) (k : Entry.Key) (s : PermissionSet) : Picture :=
  { x with held := fun k' =>
      if k = k' then (x.held k).bind fun held =>
        if (held.difference s).isEmpty then none else some (held.difference s)
      else x.held k' }

/-- The picture after an event. -/
def replay (x : Picture) : AuditEvent → Picture
  | .principalCreated p key owner _ => (x.register p key).give ⟨key, owner⟩ .full
  | .principalDeleted p key _ _ _ => x.remove p key
  | .permissionsGranted p key s => x.give ⟨key, p⟩ s
  | .permissionsRevoked p key s => x.take ⟨key, p⟩ s
  | .membershipAdded p key => (x.keyOf p).elim x fun child => x.join child key true
  | .membershipRemoved p key => (p.bind x.keyOf).elim x fun child => x.join child key false

/-! ### Events say what the steps do -/

variable {t t' : Tables} {events : List AuditEvent}

theorem map_permissions_granted (old : Option Entry.Value) (s : PermissionSet)
    (kind : ObjectKind) (expiration : Instant) :
    (Entry.Value.granted old s kind expiration).permissions =
      ((old.map Entry.Value.permissions).getD .empty).union s := by
  cases old with
  | none => exact (PermissionSet.empty_union s).symm
  | some v => rfl

theorem held_mergeOne (t : Permissions) (k x : Entry.Key) (s : PermissionSet) (kind : ObjectKind)
    (expiration : Instant) :
    ((Permissions.mergeOne s kind expiration t k).find? x).map Entry.Value.permissions =
      if k = x then some ((((t.find? k).map Entry.Value.permissions).getD .empty).union s)
      else (t.find? x).map Entry.Value.permissions := by
  rw [Permissions.find?_mergeOne]
  split
  · rw [Option.map_some, map_permissions_granted]
  · rfl

theorem held_subtractOne (t : Permissions) (k x : Entry.Key) (s : PermissionSet) :
    ((Permissions.subtractOne s t k).find? x).map Entry.Value.permissions =
      if k = x then ((t.find? k).map Entry.Value.permissions).bind fun held =>
        if (held.difference s).isEmpty then none else some (held.difference s)
      else (t.find? x).map Entry.Value.permissions := by
  rw [Permissions.find?_subtractOne]
  split
  · cases t.find? k with
    | none => rfl
    | some v =>
      simp only [Option.bind_some, Option.map_some, Entry.Value.revoked]
      split <;> rfl
  · rfl

theorem holds_add (m : Memberships) (child parent a b : AclKey) :
    Memberships.holds (Memberships.add m child parent).2 a b =
      if child = a ∧ parent = b then true else Memberships.holds m a b := by
  rw [Bool.eq_iff_iff, Graph.holds_iff, Graph.leads_add, ← Graph.holds_iff]
  split <;> simp_all

theorem holds_remove (m : Memberships) (child parent a b : AclKey) :
    Memberships.holds (Memberships.remove m child parent).2 a b =
      if child = a ∧ parent = b then false else Memberships.holds m a b := by
  rw [Bool.eq_iff_iff, Graph.holds_iff, Graph.leads_remove, ← Graph.holds_iff]
  split <;> simp_all

theorem holds_removeAll (m : Memberships) (key a b : AclKey) :
    Memberships.holds (Memberships.removeAll m key).2 a b =
      (Memberships.holds m a b && a ≠ key && b ≠ key) := by
  rw [Bool.eq_iff_iff, Graph.holds_iff, Graph.leads_removeAll, ← Graph.holds_iff]
  simp [and_assoc]

/-- Whoever is registered at a key is found in the picture by their name. -/
theorem keyOf_of_findAt? (h : t.directory.Consistent) {key : AclKey} {r : Registration}
    (hr : t.directory.findAt? key = some r) : (of t).keyOf r.principal = some key := by
  obtain ⟨hfind, hkey⟩ := (Directory.findAt?_eq_some_iff h).mp hr
  show (t.directory.find? r.principal).map _ = _
  rw [hfind, Option.map_some, hkey]

/-- Each step changes the picture as its events say. -/
theorem of_step (h : Tables.Step t events t') (ht : t.Sound) :
    of t' = events.foldl replay (of t) := by
  cases h with
  | cursors => rfl
  | naming => rfl
  | create owner r hnew =>
    refine Picture.ext ?_ rfl ?_
    · funext q
      show ((t.directory.add r).2.find? q).map _ = if r.principal = q then _ else _
      rw [Directory.find?_add hnew]
      split <;> rfl
    · funext k
      exact held_mergeOne _ _ _ _ _ _
  | delete p r hp =>
    refine Picture.ext ?_ ?_ ?_
    · funext q
      show ((t.directory.remove p).2.find? q).map _ = if p = q then _ else _
      rw [Directory.find?_remove]
      split <;> rfl
    · funext a b
      exact holds_removeAll _ _ _ _
    · funext k
      show ((t.without p r.aclKey).permissions.find? k).map _ = if _ then _ else _
      rw [Tables.find?_without ht.permissions]
      split <;> rfl
  | grant => exact Picture.ext rfl rfl (funext fun k => held_mergeOne _ _ _ _ _ _)
  | revoke => exact Picture.ext rfl rfl (funext fun k => held_subtractOne _ _ _ _)
  | addMember child parent member group hchild hparent =>
    have hkey := keyOf_of_findAt? ht.directory hchild
    show _ = ((of t).keyOf member.principal).elim (of t) fun child => (of t).join child parent true
    rw [hkey]
    exact Picture.ext rfl (funext fun a => funext fun b => holds_add _ _ _ _ _) rfl
  | removeMember child parent hleads =>
    -- the member is registered, so that the event names it
    obtain ⟨member, hchild⟩ := (Directory.knows_iff ht.directory).mp (ht.known hleads).1
    have hkey := keyOf_of_findAt? ht.directory hchild
    show _ = (((t.directory.findAt? child).map Registration.principal).bind
      (of t).keyOf).elim (of t) fun child => (of t).join child parent false
    rw [hchild, Option.map_some, Option.bind_some, hkey]
    exact Picture.ext rfl (funext fun a => funext fun b => holds_remove _ _ _ _ _) rfl
  | rearrange memberships h =>
    refine Picture.ext rfl (funext fun a => funext fun b => ?_) rfl
    show Memberships.holds memberships a b = Memberships.holds t.memberships a b
    rw [Bool.eq_iff_iff, Graph.holds_iff, Graph.holds_iff, h]
  | retitle key title =>
    refine Picture.ext (funext fun q => ?_) rfl rfl
    show ((t.directory.retitle key title).2.find? q).map _ = (t.directory.find? q).map _
    rw [Directory.find?_retitle ht.directory]
    cases t.directory.find? q with
    | none => rfl
    | some r =>
      simp only [Option.map_some]
      split <;> rfl
  | updateKind k kind =>
    refine Picture.ext rfl rfl (funext fun x => ?_)
    show ((t.permissions.updateKind k kind).2.find? x).map _ = (t.permissions.find? x).map _
    rw [Permissions.find?_updateKind]
    split
    · rename_i hk
      rw [← hk]
      cases t.permissions.find? k <;> rfl
    · rfl

/-- Each run of steps changes the picture as its events say, one after the other. -/
theorem of_run (h : Tables.Run t events t') (ht : t.Sound) :
    of t' = events.foldl replay (of t) := by
  induction h with
  | nil => rfl
  | cons hstep _ ih => rw [ih (Tables.sound_step hstep ht), of_step hstep ht, List.foldl_append]

/-- The picture drawn from the trail is the one that the tables show. -/
theorem of_after {s : State} (h : s.Blank) (ops : List Operation) :
    of (s.after ops).tables = (s.after ops).trail.foldl replay blank := by
  obtain ⟨events, hrun, htrail⟩ := (State.advances_after ops h.toInMemory).2
  have hblank : of s.tables = blank := by
    rw [h.tables]
    rfl
  have hevents : (s.after ops).trail = events := by
    show (s.after ops).books.trail = events
    rw [htrail, show s.books.trail = [] from h.trail, List.nil_append]
  rw [hevents, ← hblank]
  exact of_run hrun h.sound

end Picture

/-! ### What is recorded of an event -/

/-- No two kinds begin with the same letter, so that a text begins with one kind at most. -/
theorem PrincipalKind.name_append_inj {k k' : PrincipalKind} {l l' : List Char}
    (h : k.name.toList ++ l = k'.name.toList ++ l') : k = k' ∧ l = l' := by
  have hsome : ∀ k : PrincipalKind, k.name.toList.head?.isSome := by
    intro k
    cases k <;> decide
  have hletter : ∀ k k' : PrincipalKind, k.name.toList.head? = k'.name.toList.head? → k = k' := by
    intro k k'
    cases k <;> cases k' <;> decide
  have hhead := congrArg List.head? h
  rw [List.head?_append, List.head?_append, Option.or_of_isSome (hsome k),
    Option.or_of_isSome (hsome k')] at hhead
  obtain rfl := hletter k k' hhead
  exact ⟨rfl, List.append_cancel_left h⟩

theorem Principal.toText_injective {p q : Principal} (h : p.toText = q.toText) : p = q := by
  obtain ⟨kind, id⟩ := p
  obtain ⟨kind', id'⟩ := q
  have hchars := congrArg String.toList h
  simp only [toText, toString, String.toList_append, List.append_assoc] at hchars
  obtain ⟨rfl, hrest⟩ := PrincipalKind.name_append_inj hchars
  rw [String.toList_inj.mp (List.append_cancel_left hrest)]

theorem PermissionSet.names_injective {a b : PermissionSet} (h : a.names = b.names) : a = b := by
  have hname : ∀ x y : Permission, x.name = y.name → x = y := by
    intro x y
    cases x <;> cases y <;> decide
  have hlist : a.toList = b.toList := List.map_injective_iff.mpr (fun x y => hname x y) h
  apply ext_contains
  intro x
  have hmem : ∀ s : PermissionSet, x ∈ s.toList ↔ s.contains x = true := by
    intro s
    rw [toList, List.mem_filter]
    exact and_iff_right x.mem_all
  rw [Bool.eq_iff_iff, ← hmem, ← hmem, hlist]

/-- The names that an event tells of are told of one set only. -/
theorem names_of_data {a b : PermissionSet}
    (h : Json.object [("permissions", Json.ofList .text a.names)] =
      .object [("permissions", Json.ofList .text b.names)]) : a = b := by
  simp only [Json.object.injEq, List.cons.injEq, Prod.mk.injEq, and_true, true_and] at h
  refine PermissionSet.names_injective (List.map_injective_iff.mpr ?_ (Json.array.inj h))
  exact fun x y hxy => Json.text.inj hxy

namespace Picture

/-- Nothing is replayed but what is recorded: the kind of an event, its principal and its
target, and what is told of it beyond. -/
theorem replay_eq_of_recorded {e e' : AuditEvent} (hkind : e.kind = e'.kind)
    (hprincipal : e.principal? = e'.principal?) (htarget : e.target = e'.target)
    (hdata : e.data = e'.data) (x : Picture) : x.replay e = x.replay e' := by
  cases e with
  | principalCreated p key owner title =>
    cases e' with
    | principalCreated p' key' owner' title' =>
      obtain rfl : p = p' := Option.some.inj hprincipal
      obtain rfl : key = key' := htarget
      simp only [AuditEvent.data, Json.object.injEq, List.cons.injEq, Prod.mk.injEq, true_and,
        Json.text.injEq] at hdata
      obtain rfl := Principal.toText_injective hdata.1
      rfl
    | _ => cases hkind
  | principalDeleted p key edges held on =>
    cases e' with
    | principalDeleted p' key' edges' held' on' =>
      obtain rfl : p = p' := Option.some.inj hprincipal
      obtain rfl : key = key' := htarget
      rfl
    | _ => cases hkind
  | permissionsGranted p key s =>
    cases e' with
    | permissionsGranted p' key' s' =>
      obtain rfl : p = p' := Option.some.inj hprincipal
      obtain rfl : key = key' := htarget
      obtain rfl : s = s' := names_of_data hdata
      rfl
    | _ => cases hkind
  | permissionsRevoked p key s =>
    cases e' with
    | permissionsRevoked p' key' s' =>
      obtain rfl : p = p' := Option.some.inj hprincipal
      obtain rfl : key = key' := htarget
      obtain rfl : s = s' := names_of_data hdata
      rfl
    | _ => cases hkind
  | membershipAdded p key =>
    cases e' with
    | membershipAdded p' key' =>
      obtain rfl : p = p' := Option.some.inj hprincipal
      obtain rfl : key = key' := htarget
      rfl
    | _ => cases hkind
  | membershipRemoved p key =>
    cases e' with
    | membershipRemoved p' key' =>
      obtain rfl : p = p' := hprincipal
      obtain rfl : key = key' := htarget
      rfl
    | _ => cases hkind

/-- **The trail is complete.** Whatever a registry that begins without records is asked to do,
and whether it can be done or not, replaying its trail tells exactly who is registered at
which key, which memberships there are, and which permissions each entry holds; and all that
is needed for it is recorded. -/
theorem trail_is_complete {s : State} (h : s.Blank) (ops : List Operation) :
    let t := (s.after ops).tables
    let x := (s.after ops).trail.foldl replay blank
    (∀ p key, x.keyOf p = some key ↔ ∃ r, t.directory.find? p = some r ∧ r.aclKey = key) ∧
      (∀ child parent, x.joins child parent = true ↔ Graph.Leads t.memberships child parent) ∧
      (∀ k held, x.held k = some held ↔ ∃ v, t.permissions.find? k = some v ∧
        v.permissions = held) ∧
      ∀ e e' : AuditEvent, e.kind = e'.kind → e.principal? = e'.principal? →
        e.target = e'.target → e.data = e'.data → ∀ y : Picture, y.replay e = y.replay e' := by
  intro t x
  have hx : x = of t := (of_after h ops).symm
  refine ⟨fun p key => ?_, fun child parent => ?_, fun k held => ?_,
    fun _ _ hkind hprincipal htarget hdata => replay_eq_of_recorded hkind hprincipal htarget hdata⟩
  · rw [hx]
    exact Option.map_eq_some_iff
  · rw [hx]
    exact Graph.holds_iff
  · rw [hx]
    exact Option.map_eq_some_iff

/-- An administrator who may read and write, and then only read, is all that in the picture
drawn from the trail, though an empty grant and a second membership were asked for, too. -/
theorem administrator_is_replayed :
    let bob : Registration := ⟨.single (.ofRandomBits 0), ⟨.user, "bob"⟩, "Bob", ""⟩
    let door : AclKey := .single (.system 9)
    let ops : List Operation := [.bootstrap,
      .create (.immediate 1) Standard.systemPrincipal ⟨bob.principal, "Bob", "", none⟩,
      .addMember bob.aclKey Standard.adminRole.aclKey,
      .addMember bob.aclKey Standard.adminRole.aclKey,
      .grant door bob.principal (.ofList [.read, .write]) .unknown none,
      .grant door bob.principal .empty .unknown none,
      .revoke door bob.principal (.ofList [.write])]
    ∃ x : Picture,
      x = ((State.start { mode := .random } ⟨0, 0⟩).after ops).trail.foldl replay blank ∧
      x.keyOf bob.principal = some bob.aclKey ∧
      x.joins bob.aclKey Standard.adminRole.aclKey = true ∧
      x.held ⟨door, bob.principal⟩ = some (.ofList [.read]) := by
  intro bob door ops
  have hcomplete := trail_is_complete (State.blank_start { mode := .random } ⟨0, 0⟩) ops
  obtain ⟨hkey, hjoins, hheld, -⟩ := hcomplete
  have hbob : ((State.start { mode := .random } ⟨0, 0⟩).after ops).tables.directory.find?
      bob.principal = some bob := by decide +kernel
  have hmember : Graph.Leads ((State.start { mode := .random } ⟨0, 0⟩).after ops).tables.memberships
      bob.aclKey Standard.adminRole.aclKey := by decide +kernel
  have hread : ((State.start { mode := .random } ⟨0, 0⟩).after ops).tables.permissions.find?
      ⟨door, bob.principal⟩ = some ⟨.ofList [.read], .unknown, .neverExpires⟩ := by decide +kernel
  exact ⟨_, rfl, (hkey _ _).mpr ⟨bob, hbob, rfl⟩, (hjoins _ _).mpr hmember,
    (hheld _ _).mpr ⟨_, hread, rfl⟩⟩

end Picture
end AccessRegistry
