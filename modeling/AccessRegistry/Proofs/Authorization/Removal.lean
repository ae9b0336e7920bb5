/-
# The removal of a principal is complete

Whoever is removed is gone from every table, and with them what they could do: no membership
is left at their key, and no entry of theirs or on them. For everybody else it is as if the
key had been taken out of the graph. Who comes back under the same name begins with nothing,
for the new key has no memberships, and the entries of the old one are gone.

Key definitions: `Authorization.EffectiveWithout`, `Authorization.Powerless`,
`Authorization.Removed`, `AuditEvent.Gives`.
Key theorems: `Authorization.effective_without`, `Authorization.powerless`,
`Authorization.holdsNothing_run`, `Authorization.begins_powerless`,
`Authorization.removal_is_complete`.
-/
import AccessRegistry.Proofs.Operations
import AccessRegistry.Proofs.Permissions.Values

namespace AccessRegistry

open Std (ExtTreeSet)

/-- Whether an event gives a principal permissions. -/
def AuditEvent.Gives (p : Principal) : AuditEvent → Prop
  | .principalCreated _ _ owner _ => owner = p
  | .permissionsGranted q _ _ => q = p
  | _ => False

namespace Authorization

variable {s s' : State} {t t' : Tables} {p q : Principal} {r : Registration} {now : Instant}
  {key : AclKey} {x : Permission}

/-- Whether a principal has a permission on an object at an instant where one key, and all
memberships at it, are left out of the graph. -/
def EffectiveWithout (t : Tables) (out : AclKey) (now : Instant) (p : Principal) (key : AclKey)
    (x : Permission) : Prop :=
  ∃ (q : Principal) (v : Entry.Value),
    (q = p ∨ ∃ r r' : Registration, t.directory.find? p = some r ∧
      t.directory.find? q = some r' ∧
      Graph.AboveWithout t.memberships out r.aclKey r'.aclKey) ∧
    t.permissions.find? ⟨key, q⟩ = some v ∧ now < v.expiration ∧ v.permissions.contains x = true

/-- For everybody else the key is taken out of the graph. -/
theorem effective_without (ht : t.Sound) (hp : t.directory.find? p = some r) (hq : q ≠ p)
    (hkey : key ≠ r.aclKey) :
    Effective (t.without p r.aclKey) now q key x ↔ EffectiveWithout t r.aclKey now q key x := by
  have hfind : ∀ o, (t.without p r.aclKey).directory.find? o =
      if p = o then none else t.directory.find? o := Directory.find?_remove t.directory p
  have hentry : ∀ o, o ≠ p → (t.without p r.aclKey).permissions.find? ⟨key, o⟩ =
      t.permissions.find? ⟨key, o⟩ := by
    intro o ho
    rw [Tables.find?_without ht.permissions, if_neg]
    rintro (h | h)
    · exact ho h
    · exact hkey h
  constructor
  · rintro ⟨o, v, hcounts, hv, hnow, hx⟩
    have ho : o ≠ p := by
      rintro rfl
      rw [Tables.find?_without ht.permissions, if_pos (Or.inl rfl)] at hv
      cases hv
    rw [hentry o ho] at hv
    refine ⟨o, v, hcounts.imp id ?_, hv, hnow, hx⟩
    rintro ⟨a, a', ha, ha', habove⟩
    rw [hfind, if_neg hq.symm] at ha
    rw [hfind, if_neg ho.symm] at ha'
    exact ⟨a, a', ha, ha', Graph.above_removeAll.mp habove⟩
  · rintro ⟨o, v, hcounts, hv, hnow, hx⟩
    -- the principal that was removed is at the key that is left out, where no path ends
    have ho : o ≠ p := by
      rintro rfl
      rcases hcounts with rfl | ⟨a, a', -, ha', habove⟩
      · exact hq rfl
      · rw [hp] at ha'
        obtain rfl := Option.some.inj ha'
        exact habove.ne rfl
    refine ⟨o, v, hcounts.imp id ?_, (hentry o ho).trans hv, hnow, hx⟩
    rintro ⟨a, a', ha, ha', habove⟩
    refine ⟨a, a', ?_, ?_, Graph.above_removeAll.mpr habove⟩
    · rw [hfind, if_neg hq.symm, ha]
    · rw [hfind, if_neg ho.symm, ha']

/-! ### Who can do nothing -/

/-- A principal has no entries. -/
def HoldsNothing (t : Tables) (p : Principal) : Prop :=
  ∀ key, t.permissions.find? ⟨key, p⟩ = none

/-- A principal is asked about at any time and for any keys, and has no permissions. -/
def Powerless (s : State) (p : Principal) : Prop :=
  ∀ (now : Instant) (keys : List AclKey), ∃ held : Holdings,
    (permissions p keys).Reads { s with today := now } held ∧ (∀ key, key ∈ held ↔ key ∈ keys) ∧
      ∀ key ∈ keys, held.getD key .empty = .empty

/-- Who has no entries, and for whom nobody else's count, can do nothing. -/
theorem powerless (hs : s.InMemory) (ht : s.tables.Sound)
    (hcounts : ∀ q, CountsFor s.tables p q → q = p) (hnothing : HoldsNothing s.tables p) :
    Powerless s p := by
  intro now keys
  have hs' : ({ s with today := now } : State).InMemory := ⟨hs.storage, hs.outages⟩
  refine ⟨_, reads_permissions hs' p keys, fun key => mem_holdings, fun key hkey => ?_⟩
  apply PermissionSet.ext_contains
  intro x
  rw [PermissionSet.contains_empty, ← Bool.not_eq_true, contains_holdings ht.directory hkey]
  rintro ⟨q, v, hq, hv, -⟩
  rw [hcounts q hq, hnothing] at hv
  cases hv

/-- A step that gives a principal nothing leaves it with nothing. -/
theorem holdsNothing_step {events : List AuditEvent} (h : Tables.Step t events t')
    (hgives : ∀ e ∈ events, ¬ e.Gives p) (hp : HoldsNothing t p) : HoldsNothing t' p := by
  cases h with
  | create owner r =>
    intro key
    have howner : owner ≠ p := hgives _ List.mem_cons_self
    refine (Permissions.find?_mergeOne _ _ _ _ _ _).trans ?_
    rw [if_neg fun he => howner (congrArg Entry.Key.principal he)]
    exact hp key
  | delete q r =>
    intro key
    refine (Permissions.find?_removeList _ _ _).trans ?_
    split
    · rfl
    · refine (Permissions.find?_removeList _ _ _).trans ?_
      split
      · rfl
      · exact hp key
  | grant key q s kind expiration =>
    intro key'
    have hq : q ≠ p := hgives _ List.mem_cons_self
    refine (Permissions.find?_mergeOne _ _ _ _ _ _).trans ?_
    rw [if_neg fun he => hq (congrArg Entry.Key.principal he)]
    exact hp key'
  | revoke key q s =>
    intro key'
    refine (Permissions.find?_subtractOne _ _ _ _).trans ?_
    split
    · rename_i he
      rw [he, hp key']
      rfl
    · exact hp key'
  | updateKind k kind =>
    intro key'
    refine (Permissions.find?_updateKind _ _ _ _).trans ?_
    split
    · rename_i he
      rw [he, hp key']
      rfl
    · exact hp key'
  | _ => exact hp

theorem holdsNothing_run {events : List AuditEvent} (h : Tables.Run t events t')
    (hgives : ∀ e ∈ events, ¬ e.Gives p) (hp : HoldsNothing t p) : HoldsNothing t' p :=
  h.keeps (P := fun t => HoldsNothing t p) holdsNothing_step hgives hp

/-- A new principal has no memberships yet, so that nobody's grants but its own count. -/
theorem countsFor_created (ht : t.Sound) {owner : Principal} (hnew : (t.directory.add r).1 = true)
    (h : CountsFor (t.created owner r) r.principal q) : q = r.principal := by
  rcases h with rfl | ⟨a, a', ha, -, habove⟩
  · rfl
  · have hfind : (t.created owner r).directory.find? r.principal = some r := by
      refine (Directory.find?_add hnew _).trans (if_pos rfl)
    rw [hfind] at ha
    obtain rfl := Option.some.inj ha
    -- a path from the key begins with a membership of somebody who was registered there
    obtain ⟨b, hb, -⟩ := Relation.TransGen.head'_iff.mp habove
    obtain ⟨o, ho, hfindo, hkey⟩ := (ht.known hb).1
    have hfree := (Directory.fst_add.mp hnew).2
    have hthere := (ht.directory.byPrincipal o ho hfindo).2
    rw [hkey, hfree] at hthere
    cases hthere

/-- Who comes back begins with nothing, if nothing was given to them meanwhile and they do
not own themselves. -/
theorem begins_powerless (hs : s.InMemory) (ht : s.tables.Sound)
    (hnothing : HoldsNothing s.tables p) {retry : Retry.Policy} {owner : Principal}
    {n : NewPrincipal} (hn : n.principal = p) (howner : owner ≠ p)
    (h : (createPrincipal retry owner n).run.perform s = (.ok r, s')) :
    (closure p).Reads s' (ExtTreeSet.ofList [p]) ∧ Powerless s' p := by
  have hend := ends_createPrincipal retry owner n s hs rfl
  have hout : outcome (createPrincipal retry owner n).run s = (.ok r, s') := h
  rw [hout] at hend
  obtain ⟨hs', id, reservations, hr, hins, hnew, hbooks⟩ := hend
  have hins' : s.tables.reservations.insert? (n.object.reservation id) = some reservations := hins
  have hp : r.principal = p := hr ▸ hn
  have htables : s'.tables = ({ s.tables with reservations } : Tables).created owner r :=
    congrArg Books.tables hbooks
  have hnaming : ({ s.tables with reservations } : Tables).Sound := by
    have hstep := Tables.sound_step (.naming (.reserve (n.object.reservation id))) ht
    rwa [Reservations.Change.apply, hins'] at hstep
  have hsound : s'.tables.Sound := by
    rw [htables]
    exact Tables.sound_step (.create owner r hnew) hnaming
  have hcounts : ∀ q, CountsFor s'.tables p q → q = p := by
    intro q hq
    rw [htables, ← hp] at hq
    rw [← hp]
    exact countsFor_created hnaming hnew hq
  have hleft : HoldsNothing s'.tables p := by
    rw [htables]
    refine holdsNothing_step (.create owner r hnew) (fun e he => ?_) hnothing
    obtain rfl := List.mem_singleton.mp he
    exact howner
  have hclosure : closureOf s'.tables p = ExtTreeSet.ofList [p] := by
    apply ExtTreeSet.ext_mem
    intro q
    rw [mem_closureOf hsound.directory, mem_setOfList, List.mem_singleton]
    exact ⟨hcounts q, Or.inl⟩
  exact ⟨hclosure ▸ reads_closure hs' p, powerless hs' hsound hcounts hleft⟩

/-! ### What is removed and what stays -/

/-- What it means that a principal, with its registration, was removed between two states. -/
structure Removed (s s' : State) (p : Principal) (r : Registration) : Prop where
  unregistered : s'.tables.directory.find? p = none
  nobodyAt : s'.tables.directory.findAt? r.aclKey = none
  /-- No membership is left at its key. -/
  noMemberships : ∀ a b, Graph.Leads s'.tables.memberships a b → a ≠ r.aclKey ∧ b ≠ r.aclKey
  /-- No entry of it or on it is left. -/
  noEntries : ∀ k v, s'.tables.permissions.find? k = some v →
    k.principal ≠ p ∧ k.aclKey ≠ r.aclKey
  powerless : Powerless s' p
  /-- All other principals are registered as they were. -/
  directory : ∀ q, q ≠ p → s'.tables.directory.find? q = s.tables.directory.find? q
  /-- All other memberships are left. -/
  memberships : ∀ a b, a ≠ r.aclKey → b ≠ r.aclKey →
    (Graph.Leads s'.tables.memberships a b ↔ Graph.Leads s.tables.memberships a b)
  /-- All other entries are left as they were. -/
  permissions : ∀ k, k.principal ≠ p → k.aclKey ≠ r.aclKey →
    s'.tables.permissions.find? k = s.tables.permissions.find? k
  /-- No reservation goes but the one of its identifier. -/
  reservations : ∀ id, s'.tables.reservations.find? id =
    if id = r.aclKey.leaf then none else s.tables.reservations.find? id
  names : ∀ name, s'.tables.reservations.idOf? name =
    (s.tables.reservations.idOf? name).filter (· ≠ r.aclKey.leaf)
  cursors : s'.tables.cursors = s.tables.cursors
  /-- What anybody else may do on another object is what they may do where its key is left out
  of the graph. -/
  others : ∀ q, q ≠ p → ∀ (now : Instant) (keys : List AclKey), ∃ held : Holdings,
    (Authorization.permissions q keys).Reads { s' with today := now } held ∧
      ∀ key ∈ keys, key ≠ r.aclKey → ∀ x, (held.getD key .empty).contains x = true ↔
        EffectiveWithout s.tables r.aclKey now q key x
  /-- The trail says how many memberships there were at its key, how many entries it had, and
  how many there were of others on it. -/
  recorded : s'.trail = s.trail ++ [.principalDeleted p r.aclKey
    ((Graph.edges s.tables.memberships).countP fun e => e.1 = r.aclKey ∨ e.2 = r.aclKey)
    (s.tables.permissions.entries.keys.countP fun k => k.principal = p)
    (s.tables.permissions.entries.keys.countP fun k => k.aclKey = r.aclKey ∧ k.principal ≠ p)]
  /-- Who is created again by somebody else, after operations that gave them nothing, is alone
  in their closure and can do nothing. -/
  comesBack : ∀ ops : List Operation,
    (∀ e ∈ (s'.after ops).trail.drop s'.trail.length, ¬ e.Gives p) →
    ∀ (retry : Retry.Policy) (owner : Principal) (n : NewPrincipal) (r' : Registration)
      (s'' : State), n.principal = p → owner ≠ p →
      (createPrincipal retry owner n).run.perform (s'.after ops) = (.ok r', s'') →
        (closure p).Reads s'' (ExtTreeSet.ofList [p]) ∧ Powerless s'' p

theorem removal_eq (ht : t.Sound) (p : Principal) (key : AclKey) :
    t.removal p key = .principalDeleted p key
      ((Graph.edges t.memberships).countP fun e => e.1 = key ∨ e.2 = key)
      (t.permissions.entries.keys.countP fun k => k.principal = p)
      (t.permissions.entries.keys.countP fun k => k.aclKey = key ∧ k.principal ≠ p) := by
  have hof := Permissions.deleteOf_eq_filter ht.permissions p
  have hindexed : (t.permissions.deleteOf p).2.Indexed :=
    Permissions.indexed_apply ht.permissions (.deleteOf p)
  have hon := (Permissions.deleteOn_eq_filter hindexed key).2
  rw [countP_keys (fun k : Entry.Key => k.principal = p) (fun k => k.aclKey = key) hof.1] at hon
  unfold Tables.removal
  rw [Graph.fst_removeAll, hof.2, hon]

/-- In sound tables whoever is registered can be removed, and is removed completely. -/
theorem removed_of_sound (hs : s.InMemory) (ht : s.tables.Sound)
    (hp : s.tables.directory.find? p = some r) :
    ∃ s', (deletePrincipal p).perform s = (.ok (), s') ∧ Removed s s' p r := by
  obtain ⟨hs', hvalue, hbooks⟩ := gives_deletePrincipal (b := s.books) hp s hs rfl
  refine ⟨(outcome (deletePrincipal p) s).2, Prod.ext hvalue rfl, ?_⟩
  generalize (outcome (deletePrincipal p) s).2 = s' at hs' hbooks ⊢
  have htables : s'.tables = { s.tables.without p r.aclKey with
      reservations := (Reservations.deleteIds [r.id] s.tables.reservations).2 } :=
    congrArg Books.tables hbooks
  have htrail : s'.trail = s.trail ++ [s.tables.removal p r.aclKey] := congrArg Books.trail hbooks
  have hsound : s'.tables.Sound := by
    rw [htables]
    exact Tables.sound_step (.naming (.deleteIds [r.id])) (Tables.sound_step (.delete p r hp) ht)
  have hfind : ∀ q, s'.tables.directory.find? q =
      if p = q then none else s.tables.directory.find? q := by
    rw [htables]
    exact Directory.find?_remove s.tables.directory p
  have hgone : s'.tables.directory.find? p = none := (hfind p).trans (if_pos rfl)
  have hunknown : ¬ s'.tables.directory.Knows r.aclKey := by
    rw [htables]
    exact Directory.not_knows_remove ht.directory hp
  have hentry : ∀ k, s'.tables.permissions.find? k =
      if k.principal = p ∨ k.aclKey = r.aclKey then none else s.tables.permissions.find? k := by
    rw [htables]
    exact Tables.find?_without ht.permissions p r.aclKey
  have hleads : ∀ a b, Graph.Leads s'.tables.memberships a b ↔
      Graph.Leads s.tables.memberships a b ∧ a ≠ r.aclKey ∧ b ≠ r.aclKey := by
    rw [htables]
    exact fun a b => Graph.leads_removeAll
  have hnothing : HoldsNothing s'.tables p := fun key =>
    (hentry ⟨key, p⟩).trans (if_pos (Or.inl rfl))
  have halone : ∀ q, CountsFor s'.tables p q → q = p := by
    rintro q (rfl | ⟨a, -, ha, -⟩)
    · rfl
    · rw [hgone] at ha
      cases ha
  exact
    { unregistered := hgone
      nobodyAt := by
        rw [Option.eq_none_iff_forall_ne_some]
        exact fun r' hr' => hunknown ((Directory.knows_iff hsound.directory).mpr ⟨r', hr'⟩)
      noMemberships := fun a b h => ((hleads a b).mp h).2
      noEntries := fun k v h => by
        rw [hentry] at h
        split at h
        · cases h
        · rename_i hne
          exact not_or.mp hne
      powerless := powerless hs' hsound halone hnothing
      directory := fun q hq => (hfind q).trans (if_neg hq.symm)
      memberships := fun a b ha hb => (hleads a b).trans (and_iff_left ⟨ha, hb⟩)
      permissions := fun k hk hkey => (hentry k).trans (if_neg (not_or.mpr ⟨hk, hkey⟩))
      reservations := fun id => by
        rw [htables]
        refine (Reservations.find?_deleteIds [r.id] _ id).trans ?_
        simp only [List.mem_singleton]
        rfl
      names := fun name => by
        rw [htables]
        refine (Reservations.idOf?_deleteIds [r.id] ht.reservations name).trans ?_
        simp only [List.mem_singleton]
        rfl
      cursors := by
        rw [htables]
        rfl
      others := fun q hq now keys => by
        have hnow : ({ s' with today := now } : State).InMemory := ⟨hs'.storage, hs'.outages⟩
        refine ⟨_, reads_permissions hnow q keys, fun key hkey hne x => ?_⟩
        rw [contains_holdings hsound.directory hkey, ← effective_without ht hp hq hne]
        show Effective s'.tables now q key x ↔ _
        rw [htables]
        rfl
      recorded := by rw [htrail, removal_eq ht]
      comesBack := fun ops hgives retry owner n r' s'' hn howner hcreate => by
        obtain ⟨hs₁, events, hrun, hevents⟩ := State.advances_after ops hs'
        have hdrop : (s'.after ops).trail.drop s'.trail.length = events := by
          rw [show (s'.after ops).trail = s'.trail ++ events from hevents, List.drop_left]
        rw [hdrop] at hgives
        exact begins_powerless hs₁ (Tables.sound_run hrun hsound)
          (holdsNothing_run hrun hgives hnothing) hn howner hcreate }

/-- **The removal of a principal is complete.** Wherever operations lead from a state without
records, a principal that is registered can be removed; nothing is left then of what it could
do, nothing else is touched, and whoever comes back under its name begins with nothing. -/
theorem removal_is_complete {s₀ : State} (h : s₀.Blank) (ops : List Operation)
    (hp : (s₀.after ops).tables.directory.find? p = some r) :
    ∃ s', (deletePrincipal p).perform (s₀.after ops) = (.ok (), s') ∧
      Removed (s₀.after ops) s' p r :=
  removed_of_sound (State.advances_after ops h.toInMemory).1 (State.sound_after h ops) hp

/-- Somebody who is a member of a team and of itself, and has entries on the team and on
itself: two memberships go, two entries of its own, and the one of its owner on it. Created
once more, it begins alone. -/
theorem member_of_itself_is_removed :
    let alice : Registration := ⟨.single (.ofRandomBits 0), ⟨.user, "alice"⟩, "Alice", ""⟩
    let team : Registration := ⟨.single (.ofRandomBits 1), ⟨.organization, "team"⟩, "Team", ""⟩
    let again : Procedure Registration := createPrincipal (.immediate 1) Standard.systemPrincipal
      ⟨alice.principal, "Alice", "", none⟩
    let ops : List Operation := [
      .create (.immediate 1) Standard.systemPrincipal ⟨alice.principal, "Alice", "", none⟩,
      .create (.immediate 1) Standard.systemPrincipal ⟨team.principal, "Team", "", none⟩,
      .addMember alice.aclKey team.aclKey, .addMember alice.aclKey alice.aclKey,
      .grant team.aclKey alice.principal (.ofList [.read]) .unknown none,
      .grant alice.aclKey alice.principal (.ofList [.write]) .unknown none]
    ∃ (s s' s'' : State) (r : Registration),
      s = (State.start { mode := .random } ⟨0, 0⟩).after ops ∧
      (deletePrincipal alice.principal).perform s = (.ok (), s') ∧
      s'.trail = s.trail ++ [.principalDeleted alice.principal alice.aclKey 2 2 1] ∧
      Powerless s' alice.principal ∧ again.run.perform s' = (.ok r, s'') ∧
      (closure alice.principal).Reads s'' (ExtTreeSet.ofList [alice.principal]) := by
  intro alice team again ops
  have halice : ((State.start { mode := .random } ⟨0, 0⟩).after ops).tables.directory.find?
      alice.principal = some alice := by decide +kernel
  have hedges : ((Graph.edges ((State.start { mode := .random } ⟨0, 0⟩).after
      ops).tables.memberships).countP fun e => e.1 = alice.aclKey ∨ e.2 = alice.aclKey) = 2 := by
    decide +kernel
  have hheld : (((State.start { mode := .random } ⟨0, 0⟩).after
      ops).tables.permissions.entries.keys.countP fun k => k.principal = alice.principal) = 2 := by
    decide +kernel
  have hon : (((State.start { mode := .random } ⟨0, 0⟩).after
      ops).tables.permissions.entries.keys.countP fun k =>
        k.aclKey = alice.aclKey ∧ k.principal ≠ alice.principal) = 1 := by decide +kernel
  have hagain : (again.run.perform ((deletePrincipal alice.principal).perform
      ((State.start { mode := .random } ⟨0, 0⟩).after ops)).2).1.toOption =
        some { alice with aclKey := .single (.ofRandomBits 2) } := by decide +kernel
  obtain ⟨s', hperform, hremoved⟩ :=
    removal_is_complete (State.blank_start { mode := .random } ⟨0, 0⟩) ops halice
  have hrecorded := hremoved.recorded
  rw [hedges, hheld, hon] at hrecorded
  rw [hperform] at hagain
  rcases hcreate : again.run.perform s' with ⟨e | r, s''⟩
  · rw [hcreate] at hagain
    cases hagain
  · have hnone : ∀ e ∈ (s'.after []).trail.drop s'.trail.length, ¬ e.Gives alice.principal := by
      intro e he
      rw [show (s'.after []).trail.drop s'.trail.length = [] from List.drop_length] at he
      cases he
    have hback := hremoved.comesBack [] hnone (.immediate 1) Standard.systemPrincipal
      ⟨alice.principal, "Alice", "", none⟩ r s'' rfl (by decide) hcreate
    exact ⟨_, s', s'', r, rfl, hperform, hrecorded, hremoved.powerless, hcreate, hback.1⟩

end Authorization
end AccessRegistry
