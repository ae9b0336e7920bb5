/-
# A bootstrap is done once

A bootstrap makes what is missing and leaves what is there. Its steps may find that there is
nothing to do for different reasons: a standard principal is registered, or another one has
its key; its name is reserved for it, whoever did that. But a bootstrap takes nothing away.
So what a step has seen to when it is done is still seen to when the bootstrap has succeeded
(`ends_createStandard_seenTo`), and whoever begins with tables that are settled in this way
finds nothing to do (`gives_bootstrap_settled`).

A bootstrap that begins without records makes the standard principals, what is theirs, and
nothing else (`ends_createStandard_fresh`).

Key definitions: `Directory.Taken`, `Tables.Kept`, `Authorization.SeenTo`,
`Authorization.Settled`, `Authorization.Holds`.
Key theorems: `Authorization.ends_bootstrap_settled`, `Authorization.gives_bootstrap_settled`,
`Authorization.ends_createStandard_fresh`, `Authorization.bootstrap_is_idempotent`.
-/
import AccessRegistry.Proofs.Authorization.Bootstrap
import AccessRegistry.Proofs.Bindings
import AccessRegistry.Proofs.Permissions.Values

namespace AccessRegistry

namespace Directory

variable {t : Directory} {r : Registration}

/-- The principal or the key of a registration is there already. -/
def Taken (t : Directory) (r : Registration) : Prop := (t.add r).1 = false

theorem taken_iff (h : t.Consistent) :
    t.Taken r ↔ t.find? r.principal ≠ none ∨ t.Knows r.aclKey := by
  have hkey : t.byAclKey[r.aclKey]? ≠ none ↔ t.Knows r.aclKey := by
    constructor
    · intro hsome
      obtain ⟨p, hp⟩ := Option.ne_none_iff_exists'.mp hsome
      obtain ⟨found, hfound, he⟩ := h.byAclKey _ p hp
      exact ⟨p, found, hfound, he⟩
    · rintro ⟨p, found, hfound, he⟩
      rw [← he, (h.byPrincipal p found hfound).2]
      exact Option.some_ne_none p
  rw [Taken, Bool.eq_false_iff, ne_eq, fst_add, not_and_or, ← hkey]

theorem taken_of_add (h : t.Consistent) (r : Registration) : (t.add r).2.Taken r := by
  cases hnew : (t.add r).1 with
  | false =>
    rw [add_of_fst_eq_false hnew]
    exact hnew
  | true =>
    refine (taken_iff (consistent_add h r)).mpr (.inl ?_)
    rw [find?_add hnew, if_pos rfl]
    exact Option.some_ne_none r

theorem Taken.add (h : t.Consistent) (hr : t.Taken r) (new : Registration) :
    (t.add new).2.Taken r := by
  rw [taken_iff (consistent_add h new)]
  refine ((taken_iff h).mp hr).imp (fun hsome => ?_) (knows_add new)
  obtain ⟨found, hfound⟩ := Option.ne_none_iff_exists'.mp hsome
  rw [find?_add_of_some hfound]
  exact Option.some_ne_none found

end Directory

/-- What all tables keep that a bootstrap relies on. -/
structure Tables.Kept (t : Tables) : Prop where
  reservations : t.reservations.OneToOne
  directory : t.directory.Consistent
  memberships : t.memberships.Tidy

theorem Tables.kept_after (cs : List Tables.Change) : (after cs).Kept where
  reservations := oneToOne_after cs
  directory := consistent_directory_after cs
  memberships := tidy_memberships_after cs

namespace Authorization

variable {b b' : Books} {r : Registration} {rs : List Registration}

/-! ### A standard principal is seen to -/

/-- A standard principal has its name, and nobody more can be registered as it. -/
structure SeenTo (t : Tables) (r : Registration) : Prop where
  bound : t.reservations.idOf? r.principal.toText = some r.id
  taken : t.directory.Taken r

/-- No name is unbound and nobody is removed. -/
structure Grows (t t' : Tables) : Prop where
  kept : t'.Kept
  bound : ∀ name id, t.reservations.idOf? name = some id → t'.reservations.idOf? name = some id
  taken : ∀ r, t.directory.Taken r → t'.directory.Taken r
  memberships : t'.memberships = t.memberships

theorem Grows.refl {t : Tables} (h : t.Kept) : Grows t t := ⟨h, fun _ _ h => h, fun _ h => h, rfl⟩

theorem Grows.trans {t t' t'' : Tables} (h : Grows t t') (h' : Grows t' t'') : Grows t t'' where
  kept := h'.kept
  bound name id hid := h'.bound name id (h.bound name id hid)
  taken r hr := h'.taken r (h.taken r hr)
  memberships := h'.memberships.trans h.memberships

theorem SeenTo.grows {t t' : Tables} (hr : SeenTo t r) (h : Grows t t') : SeenTo t' r :=
  ⟨h.bound _ _ hr.bound, h.taken r hr.taken⟩

/-- A name that is free is bound, and one that is bound already is bound to the identifier. -/
theorem ends_reserveStandard_bound (hb : b.tables.Kept) (r : Registration) :
    Ends (Naming.reserveWellKnown (standardReservation r)) b fun result b' => result = .ok () →
      Grows b.tables b'.tables ∧
        b'.tables.reservations.idOf? r.principal.toText = some r.id := by
  unfold Naming.reserveWellKnown
  cases hins : b.tables.reservations.insert? (standardReservation r) with
  | some reservations =>
    obtain ⟨⟨hfree, -⟩, -⟩ := Reservations.insert?_eq_some hins
    have hidOf := Reservations.idOf?_insert hins
    refine gives_bind (Store.gives_insertReservation_free hins) (ends_pure fun _ => ⟨?_, ?_⟩)
    · refine ⟨⟨Reservations.oneToOne_insert hb.reservations hins, hb.directory, hb.memberships⟩,
        fun name id hid => (hidOf name).trans ?_, fun _ hr' => hr', rfl⟩
      rw [if_neg, hid]
      rintro rfl
      rw [hfree] at hid
      cases hid
    · exact (hidOf r.principal.toText).trans (if_pos rfl)
  | none =>
    refine gives_bind (Store.gives_insertReservation_taken hins) ?_
    refine gives_bind (Store.gives_reservation? r.id) ?_
    cases hbound : b.tables.reservations.find? r.id with
    | none => exact ends_throw nofun
    | some bound =>
      dsimp only
      split
      · rename_i hname
        exact ends_pure fun _ =>
          ⟨.refl hb, (Reservations.name_eq_iff hb.reservations hbound).mp hname⟩
      · exact ends_throw nofun

/-- Whoever was to be created cannot be created any more. -/
theorem ends_createIfAbsent_taken (hb : b.tables.Kept) (owner : Principal) (r : Registration) :
    Ends (createIfAbsent owner r).run b fun _ b' =>
      Grows b.tables b'.tables ∧ b'.tables.directory.Taken r := by
  refine (gives_createIfAbsent owner r).ends ?_
  cases hnew : (b.tables.directory.add r).1 with
  | false => exact ⟨.refl hb, hnew⟩
  | true =>
    refine ⟨⟨⟨hb.reservations, Directory.consistent_add hb.directory r, hb.memberships⟩,
      fun _ _ hid => hid, fun _ hr' => hr'.add hb.directory r, rfl⟩, ?_⟩
    exact Directory.taken_of_add hb.directory r

/-- Each standard principal is seen to when they all are made. -/
theorem ends_createStandard_seenTo : ∀ {rs : List Registration} {b : Books}, b.tables.Kept →
    Ends (createStandard rs) b fun result b' => ∀ count, result = .ok count →
      Grows b.tables b'.tables ∧ ∀ r ∈ rs, SeenTo b'.tables r
  | [], _, hb => ends_pure fun _ _ => ⟨.refl hb, fun _ hr => absurd hr List.not_mem_nil⟩
  | r :: rs, b, hb => by
    unfold createStandard
    refine ends_bind_ok (ends_reserveStandard_bound hb r) ?_
    intro _ b₁ hreserved
    obtain ⟨hgrows₁, hbound⟩ := hreserved rfl
    refine ends_bind_ok (ends_createIfAbsent_taken hgrows₁.kept _ r) ?_
    rintro made b₂ ⟨hgrows₂, htaken⟩
    refine ends_bind_ok (ends_createStandard_seenTo hgrows₂.kept) ?_
    intro count b₃ hmade
    obtain ⟨hgrows₃, hrest⟩ := hmade count rfl
    refine ends_pure fun _ _ => ⟨(hgrows₁.trans hgrows₂).trans hgrows₃, ?_⟩
    -- The first one is seen to before the others are made, and nothing of that is taken back.
    have hr : SeenTo b₂.tables r := ⟨hgrows₂.bound _ _ hbound, htaken⟩
    exact List.forall_mem_cons.mpr ⟨hr.grows hgrows₃, hrest⟩

/-- Everything that a bootstrap is for is there. -/
structure Settled (t : Tables) : Prop where
  seenTo : ∀ r ∈ Standard.all, SeenTo t r
  admin : t.directory.findAt? Standard.adminRole.aclKey ≠ none
  authenticated : t.directory.findAt? Standard.authenticatedRole.aclKey ≠ none
  member : Graph.Leads t.memberships Standard.adminRole.aclKey Standard.authenticatedRole.aclKey

/-- A bootstrap that succeeds leaves settled tables. -/
theorem ends_bootstrap_settled (hb : b.tables.Kept) :
    Ends bootstrap b fun result b' =>
      ∀ u, result = .ok u → b'.tables.Kept ∧ Settled b'.tables := by
  unfold bootstrap
  refine ends_bind_ok (ends_createStandard_seenTo hb) ?_
  intro count b₁ hmade
  obtain ⟨hgrows, hseen⟩ := hmade count rfl
  refine ends_bind_ok
    (P := fun result b' => ∀ u, result = .ok u → b'.tables.Kept ∧ Settled b'.tables)
    (ends_addMember ?_ ?_) ?_
  · intro member group hmember hgroup _ _
    have hkept := hgrows.kept
    refine ⟨⟨hkept.reservations, hkept.directory, Index.tidy_add hkept.memberships _ _⟩, ?_⟩
    exact
      { seenTo := fun r hr => ⟨(hseen r hr).bound, (hseen r hr).taken⟩
        admin := hmember ▸ Option.some_ne_none member
        authenticated := hgroup ▸ Option.some_ne_none group
        member := Graph.leads_add.mpr (.inl ⟨rfl, rfl⟩) }
  · rintro - e u ⟨⟩
  · intro u b₂ hsettled
    exact (Action.gives_say _ _ _ _).ends fun _ _ => hsettled u rfl

theorem gives_reserveStandard (hb : b.tables.reservations.OneToOne) (hr : SeenTo b.tables r) :
    Gives (Naming.reserveWellKnown (standardReservation r)) b () b := by
  obtain ⟨bound, hbound, hname⟩ := hb.byName _ _ hr.bound
  have hins : b.tables.reservations.insert? (standardReservation r) = none := by
    rw [← Option.not_isSome_iff_eq_none, Reservations.isSome_insert?]
    rintro ⟨hfree, -⟩
    exact Option.some_ne_none r.id (hr.bound.symm.trans hfree)
  unfold Naming.reserveWellKnown
  refine gives_bind (Store.gives_insertReservation_taken hins) ?_
  refine gives_bind (Store.gives_reservation? r.id) ?_
  rw [hbound]
  dsimp only
  rw [if_pos (show bound.name = (standardReservation r).name from hname)]
  exact ends_pure ⟨rfl, rfl⟩

/-- Where all standard principals are seen to, none of them is made. -/
theorem gives_createStandard_seenTo (hb : b.tables.reservations.OneToOne) :
    ∀ {rs : List Registration}, (∀ r ∈ rs, SeenTo b.tables r) → Gives (createStandard rs) b 0 b
  | [], _ => ends_pure ⟨rfl, rfl⟩
  | r :: rs, h => by
    obtain ⟨hr, hrest⟩ := List.forall_mem_cons.mp h
    have hcreate := gives_createIfAbsent (b := b) Standard.systemPrincipal r
    rw [show (b.tables.directory.add r).1 = false from hr.taken] at hcreate
    unfold createStandard
    refine gives_bind (gives_reserveStandard hb hr) (gives_bind hcreate ?_)
    exact gives_bind (gives_createStandard_seenTo hb hrest) (ends_pure ⟨rfl, rfl⟩)

/-- Where everything is settled a bootstrap succeeds and changes nothing. -/
theorem gives_bootstrap_settled (hb : b.tables.Kept) (h : Settled b.tables) :
    Gives bootstrap b () b := by
  obtain ⟨member, hmember⟩ := Option.ne_none_iff_exists'.mp h.admin
  obtain ⟨group, hgroup⟩ := Option.ne_none_iff_exists'.mp h.authenticated
  have hadd := gives_addMember hmember hgroup
  rw [if_pos (Graph.holds_iff.mpr h.member), List.append_nil,
    Graph.add_of_leads hb.memberships h.member] at hadd
  unfold bootstrap
  refine gives_bind (gives_createStandard_seenTo hb.reservations h.seenTo) ?_
  exact gives_bind hadd (Action.gives_say _ _ _ _)

/-! ### The first bootstrap -/

/-- What the system holds on a standard principal. -/
def ownership (r : Registration) : Entry.Value :=
  ⟨.full, .ofPrincipal r.principal.kind, .neverExpires⟩

/-- A map has a value of each of some principals under a key of theirs, and no others. -/
def Lists {κ ν : Type} (rs : List Registration) (key : Registration → κ) (value : Registration → ν)
    (f : κ → Option ν) : Prop := ∀ x v, f x = some v ↔ ∃ r ∈ rs, key r = x ∧ value r = v

theorem Lists.insert {κ ν : Type} [DecidableEq κ] {key : Registration → κ}
    {value : Registration → ν} {f f' : κ → Option ν} (h : Lists rs key value f)
    (hfresh : ∀ r' ∈ rs, key r' ≠ key r)
    (hf : ∀ x, f' x = if key r = x then some (value r) else f x) :
    Lists (rs ++ [r]) key value f' := by
  intro x v
  rw [hf]
  split
  · rename_i hx
    constructor
    · intro hv
      exact ⟨r, List.mem_append_right _ (List.mem_singleton_self r), hx, Option.some.inj hv⟩
    · rintro ⟨r', hr', hx', rfl⟩
      rcases List.mem_append.mp hr' with hold | hnew
      · exact absurd (hx'.trans hx.symm) (hfresh r' hold)
      · rw [List.mem_singleton.mp hnew]
  · rename_i hx
    rw [h]
    constructor
    · rintro ⟨r', hr', hv⟩
      exact ⟨r', List.mem_append_left _ hr', hv⟩
    · rintro ⟨r', hr', hx', hv⟩
      rcases List.mem_append.mp hr' with hold | hnew
      · exact ⟨r', hold, hx', hv⟩
      · exact absurd (List.mem_singleton.mp hnew ▸ hx') hx

/-- The tables hold some standard principals with their names, and with what the system holds
on them, and nobody and nothing else. -/
structure Holds (t : Tables) (rs : List Registration) : Prop where
  reservations : Lists rs Registration.id standardReservation t.reservations.find?
  registrations : Lists rs Registration.principal id t.directory.find?
  entries : Lists rs (fun r => (⟨r.aclKey, Standard.systemPrincipal⟩ : Entry.Key)) ownership
    t.permissions.find?

section

variable {t : Tables} (h : Holds t rs) (hapart : ∀ r' ∈ rs, r'.Apart r)
include h hapart

/-- Nobody has the name or the identifier of a standard principal that is still to be made. -/
theorem Holds.isSome_insert? (ht : t.reservations.OneToOne) :
    (t.reservations.insert? (standardReservation r)).isSome := by
  rw [Reservations.isSome_insert?]
  constructor
  · rw [Option.eq_none_iff_forall_ne_some]
    intro id hid
    obtain ⟨v, hv, hname⟩ := ht.byName _ id hid
    obtain ⟨r', hr', -, rfl⟩ := (h.reservations id v).mp hv
    exact (hapart r' hr').1 hname
  · rw [Option.eq_none_iff_forall_ne_some]
    intro v hv
    obtain ⟨r', hr', hid, -⟩ := (h.reservations _ v).mp hv
    exact (hapart r' hr').2 hid

theorem Holds.fst_add (ht : t.directory.Consistent) : (t.directory.add r).1 = true := by
  rw [← Bool.not_eq_false]
  intro htaken
  rcases (Directory.taken_iff ht).mp htaken with hsome | ⟨p, found, hfound, hkey⟩
  · obtain ⟨found, hfound⟩ := Option.ne_none_iff_exists'.mp hsome
    obtain ⟨r', hr', hp, -⟩ := (h.registrations _ found).mp hfound
    exact (hapart r' hr').principal_ne hp
  · obtain ⟨r', hr', -, rfl⟩ := (h.registrations p found).mp hfound
    exact (hapart r' hr').aclKey_ne hkey

theorem Holds.created {reservations : Reservations} (ht : t.directory.Consistent)
    (hins : t.reservations.insert? (standardReservation r) = some reservations) :
    Holds ({ t with reservations }.created Standard.systemPrincipal r) (rs ++ [r]) where
  reservations :=
    h.reservations.insert (fun r' hr' => (hapart r' hr').2) (Reservations.find?_insert hins)
  registrations :=
    h.registrations.insert (fun r' hr' => (hapart r' hr').principal_ne)
      (Directory.find?_add (h.fst_add hapart ht))
  entries := by
    have hkey : ∀ r' ∈ rs, (⟨r'.aclKey, Standard.systemPrincipal⟩ : Entry.Key) ≠
        ⟨r.aclKey, Standard.systemPrincipal⟩ :=
      fun r' hr' he => (hapart r' hr').aclKey_ne (congrArg Entry.Key.aclKey he)
    have hnone : t.permissions.find? ⟨r.aclKey, Standard.systemPrincipal⟩ = none := by
      rw [Option.eq_none_iff_forall_ne_some]
      intro v hv
      obtain ⟨r', hr', hk, -⟩ := (h.entries _ v).mp hv
      exact hkey r' hr' hk
    refine h.entries.insert hkey fun x => ?_
    refine (Permissions.find?_mergeOne _ _ _ _ _ x).trans ?_
    rw [hnone]
    rfl

end

/-- Standard principals that are apart from those that are there are made, each with its
name and with what the system holds on it, and their creations are recorded in order. -/
theorem ends_createStandard_fresh : ∀ {rs made : List Registration} {b : Books},
    (made ++ rs).Pairwise Registration.Apart → b.tables.Kept → Holds b.tables made →
      Ends (createStandard rs) b fun result b' => ∃ count, result = .ok count ∧
        b'.tables.Kept ∧ Holds b'.tables (made ++ rs) ∧
        b'.tables.memberships = b.tables.memberships ∧
        b'.trail = b.trail ++ rs.map (creation Standard.systemPrincipal)
  | [], made, b, _, hb, h => ends_pure ⟨0, rfl, hb, by rwa [List.append_nil], rfl, by simp⟩
  | r :: rs, made, b, hapart, hb, h => by
    have hrest : ((made ++ [r]) ++ rs).Pairwise Registration.Apart := by simpa using hapart
    have hfresh : ∀ r' ∈ made, r'.Apart r := fun r' hr' =>
      (List.pairwise_append.mp hapart).2.2 r' hr' r List.mem_cons_self
    obtain ⟨reservations, hins⟩ :=
      Option.isSome_iff_exists.mp (h.isSome_insert? hfresh hb.reservations)
    have hcreate := gives_createIfAbsent (b := b.withReservations reservations)
      Standard.systemPrincipal r
    rw [show ((b.withReservations reservations).tables.directory.add r).1 = true from
      h.fst_add hfresh hb.directory, if_pos rfl] at hcreate
    have hreserve : Gives (Naming.reserveWellKnown (standardReservation r)) b ()
        (b.withReservations reservations) :=
      gives_bind (Store.gives_insertReservation_free hins) (ends_pure ⟨rfl, rfl⟩)
    have hkept : (⟨(b.withReservations reservations).tables.created Standard.systemPrincipal r,
        b.trail ++ [creation Standard.systemPrincipal r]⟩ : Books).tables.Kept :=
      ⟨Reservations.oneToOne_insert hb.reservations hins,
        Directory.consistent_add hb.directory r, hb.memberships⟩
    unfold createStandard
    refine gives_bind hreserve (gives_bind hcreate ?_)
    refine ends_bind (ends_createStandard_fresh hrest hkept
      (h.created hfresh hb.directory hins)) ?_ ?_
    · rintro count b' ⟨_, -, hb', hholds, hmemberships, htrail⟩
      refine ends_pure ⟨_, rfl, hb', by simpa using hholds, hmemberships, ?_⟩
      exact htrail.trans (List.append_assoc b.trail [_] _)
    · rintro e b' ⟨_, he, -⟩
      cases he

theorem Holds.findAt? {t : Tables} (h : Holds t rs) (ht : t.directory.Consistent) (hr : r ∈ rs) :
    t.directory.findAt? r.aclKey = some r :=
  (Directory.findAt?_eq_some_iff ht).mpr ⟨(h.registrations _ _).mpr ⟨r, hr, rfl, rfl⟩, rfl⟩

/-- What the first bootstrap is told of. -/
def bootstrapTrail : List AuditEvent :=
  Standard.all.map (creation Standard.systemPrincipal) ++
    [.membershipAdded Standard.adminRole.principal Standard.authenticatedRole.aclKey]

/-- What there is after a bootstrap that began without records: the standard principals with
their names and with what the system holds on them, the membership of the administrators, and
the events that tell of these. -/
structure JustBootstrapped (b : Books) : Prop where
  holds : Holds b.tables Standard.all
  leads_iff : ∀ {child parent}, Graph.Leads b.tables.memberships child parent ↔
    child = Standard.adminRole.aclKey ∧ parent = Standard.authenticatedRole.aclKey
  trail : b.trail = bootstrapTrail

/-- The first bootstrap makes the standard principals and nothing else. -/
theorem ends_bootstrap_fresh (hb : b.tables.Kept) (h : Holds b.tables [])
    (hmemberships : b.tables.memberships = ∅) (htrail : b.trail = []) :
    Ends bootstrap b fun result b' => result = .ok () ∧ JustBootstrapped b' := by
  unfold bootstrap
  have hapart : ([] ++ Standard.all).Pairwise Registration.Apart := Standard.pairwise_apart
  have hmade := ends_createStandard_fresh hapart hb h
  refine ends_bind hmade ?_ ?_
  · rintro count b₁ ⟨_, -, hb₁, hholds, hsame, htrail₁⟩
    have hadmin : Standard.adminRole ∈ Standard.all := by decide
    have hauthenticated : Standard.authenticatedRole ∈ Standard.all := by decide
    have hadd := gives_addMember (hholds.findAt? hb₁.directory hadmin)
      (hholds.findAt? hb₁.directory hauthenticated)
    have hempty : b₁.tables.memberships = ∅ := hsame.trans hmemberships
    have hnew : ¬ Memberships.holds b₁.tables.memberships Standard.adminRole.aclKey
        Standard.authenticatedRole.aclKey = true := by
      rw [Graph.holds_iff, hempty]
      exact Graph.leads_empty
    rw [if_neg hnew] at hadd
    refine gives_bind hadd ((Action.gives_say _ _ _ _).ends ⟨rfl, ?_⟩)
    refine ⟨⟨hholds.reservations, hholds.registrations, hholds.entries⟩, ?_, ?_⟩
    · intro child parent
      rw [Graph.leads_add, hempty]
      refine (or_iff_left Graph.leads_empty).trans (and_congr eq_comm eq_comm)
    · show b₁.trail ++ _ = _
      rw [htrail₁, htrail]
      rfl
  · rintro e b' ⟨_, he, -⟩
    cases he

theorem holds_nil {t : Tables} (hr : t.reservations = .empty) (hd : t.directory = .empty)
    (hp : t.permissions = .empty) : Holds t [] where
  reservations := by simp [Lists, hr, Reservations.find?, Reservations.empty]
  registrations := by simp [Lists, hd, Directory.find?, Directory.empty]
  entries := by simp [Lists, hp, Permissions.find?, Permissions.empty]

/-- **A bootstrap is done once.** Wherever a registry has come to, a bootstrap that succeeds
leaves the standard names with their identifiers and the administrators as authenticated users,
and a second one succeeds and changes neither a record nor the trail. The first bootstrap of
all succeeds, and makes the standard principals with what is theirs and nothing else. -/
theorem bootstrap_is_idempotent {s : State} {changes : List Tables.Change} (h : s.InMemory)
    (hs : s.tables = .after changes) :
    (∀ s', bootstrap.perform s = (.ok (), s') →
      (∀ r ∈ Standard.all, s'.tables.reservations.idOf? r.principal.toText = some r.id) ∧
      Graph.Leads s'.tables.memberships Standard.adminRole.aclKey
        Standard.authenticatedRole.aclKey ∧
      ∃ s'', bootstrap.perform s' = (.ok (), s'') ∧ s''.tables = s'.tables ∧
        s''.trail = s'.trail) ∧
    (s.tables.reservations = .empty → s.tables.directory = .empty →
      s.tables.permissions = .empty → s.tables.memberships = ∅ → s.trail = [] →
        ∃ s', bootstrap.perform s = (.ok (), s') ∧ JustBootstrapped s'.books) := by
  have hkept : s.books.tables.Kept := by
    show s.tables.Kept
    rw [hs]
    exact Tables.kept_after changes
  refine ⟨fun s' hrun => ?_, fun hr hd hp hm htrail => ?_⟩
  · obtain ⟨hs', hsettled⟩ := ends_bootstrap_settled hkept s h rfl
    have houtcome : outcome bootstrap s = (.ok (), s') := hrun
    rw [houtcome] at hs' hsettled
    obtain ⟨hkept', hsettled⟩ := hsettled () rfl
    obtain ⟨s'', hagain, -, hbooks⟩ :=
      Action.perform_of_gives hs' (gives_bootstrap_settled hkept' hsettled)
    exact ⟨fun r hr => (hsettled.seenTo r hr).bound, hsettled.member, s'', hagain,
      congrArg Books.tables hbooks, congrArg Books.trail hbooks⟩
  · obtain ⟨-, hok, hjust⟩ := ends_bootstrap_fresh hkept (holds_nil hr hd hp) hm htrail s h rfl
    exact ⟨_, Prod.ext hok rfl, hjust⟩

/-- Somebody else is registered at the key of those who did not sign in, and somebody has
reserved the name of the administrators for another kind of object: a bootstrap goes on, and
the next one finds nothing to do. -/
theorem bootstrap_goes_on :
    let eve : Registration := ⟨Standard.anonymousRole.aclKey, ⟨.user, "eve"⟩, "Eve", ""⟩
    let administrators : Reservation :=
      { standardReservation Standard.adminRole with kind := .study }
    let s : State := { State.start {} ⟨0, 0⟩ with
      tables := .after [.directory (.add eve), .reserve administrators] }
    ∃ s' s'' : State, bootstrap.perform s = (.ok (), s') ∧
      s'.tables.directory.find? Standard.anonymousRole.principal = none ∧
      bootstrap.perform s' = (.ok (), s'') ∧ s''.tables = s'.tables ∧ s''.trail = s'.trail := by
  intro eve administrators s
  obtain ⟨hagain, -⟩ := bootstrap_is_idempotent (s := s) ⟨rfl, rfl⟩ rfl
  have hok : (bootstrap.perform s).1 = .ok () := by decide +kernel
  obtain ⟨-, -, s'', hperform, htables, htrail⟩ := hagain _ (Prod.ext hok rfl)
  exact ⟨_, s'', Prod.ext hok rfl, by decide +kernel, hperform, htables, htrail⟩

end Authorization
end AccessRegistry
