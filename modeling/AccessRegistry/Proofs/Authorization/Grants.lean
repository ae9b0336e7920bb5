/-
# What grants and revocations change

A grant or a revocation changes one entry, and what somebody holds on an object is what the
entries there give whose principals count for them. So what is held changes at most for those
for whom the principal of the entry counts, and on its object: a grant adds what it gives, also
to what has expired if it is renewed, and a revocation leaves what is given by others.

Key definitions: `Authorization.contribution`, `Authorization.Gathered`, `Authorization.Given`,
`Authorization.Withdrawn`.
Key theorems: `Authorization.gathered_of_consistent`, `Authorization.contribution_granted`,
`Authorization.contribution_revoked`, `Authorization.grants_are_exact`.
-/
import AccessRegistry.Proofs.Authorization.Decisions
import AccessRegistry.Proofs.Authorization.Services
import AccessRegistry.Proofs.Permissions.Values

namespace AccessRegistry.Authorization

open Std (ExtTreeSet)

variable {t t' : Tables} {s s' : State} {now : Instant} {p q o : Principal} {key key' : AclKey}
  {given : PermissionSet} {x : Permission}

/-- What the entry of a principal on an object gives at an instant: nothing if there is none. -/
def contribution (t : Tables) (now : Instant) (q : Principal) (key : AclKey) : PermissionSet :=
  ((t.permissions.find? ⟨key, q⟩).map (·.permissionsAt now)).getD .empty

theorem contains_contribution : (contribution t now q key).contains x = true ↔
    ∃ v, t.permissions.find? ⟨key, q⟩ = some v ∧ now < v.expiration ∧
      v.permissions.contains x = true := by
  unfold contribution
  cases t.permissions.find? ⟨key, q⟩ with
  | none => simp
  | some v => simp [Entry.Value.contains_permissionsAt]

theorem effective_iff (h : t.directory.Consistent) : Effective t now p key x ↔
    ∃ o ∈ closureOf t p, (contribution t now o key).contains x = true := by
  unfold Effective
  simp only [contains_contribution, mem_closureOf h]
  constructor
  · rintro ⟨o, v, ho, hv⟩
    exact ⟨o, ho, v, hv⟩
  · rintro ⟨o, ho, v, hv⟩
    exact ⟨o, v, ho, hv⟩

/-- What somebody is told to hold on an object, who is told to be their closure, and that the
one is what the others contribute. -/
structure Gathered (s : State) (now : Instant) (p : Principal) (key : AclKey)
    (members : ExtTreeSet Principal) (held : PermissionSet) : Prop where
  closure : (closure p).Reads s members
  holds : ∃ h : Holdings, (permissions p [key]).Reads { s with today := now } h ∧
    h.getD key .empty = held
  contains_iff : ∀ x, held.contains x = true ↔
    ∃ o ∈ members, (contribution s.tables now o key).contains x = true

theorem gathered_of_consistent (h : s.InMemory) (hc : s.tables.directory.Consistent)
    (now : Instant) (p : Principal) (key : AclKey) :
    Gathered s now p key (closureOf s.tables p)
      ((holdings s.tables now p [key]).getD key .empty) where
  closure := reads_closure h p
  holds := ⟨_, reads_permissions (s := { s with today := now }) ⟨h.storage, h.outages⟩ p [key], rfl⟩
  contains_iff _ := (contains_holdings hc List.mem_cons_self).trans (effective_iff hc)

/-- Where only entries changed, the same principals count as before. -/
theorem gathered_both (h : s.InMemory) (h' : s'.InMemory) (hc : s.tables.directory.Consistent)
    (htables : s'.tables = { s.tables with permissions := s'.tables.permissions })
    (now : Instant) (p : Principal) (key : AclKey) :
    ∃ members before after, Gathered s now p key members before ∧
      Gathered s' now p key members after := by
  have hclosure : closureOf s'.tables p = closureOf s.tables p := by
    rw [htables]
    rfl
  have hc' : s'.tables.directory.Consistent := by
    rw [htables]
    exact hc
  exact ⟨_, _, _, gathered_of_consistent h hc now p key,
    hclosure ▸ gathered_of_consistent h' hc' now p key⟩

/-! ### What a grant and a revocation do -/

/-- What a grant does: the entry gives what it gave before and what is given now, until the
later of the two instants, and nothing else is changed. -/
structure Given (s s' : State) (key : AclKey) (q : Principal) (given : PermissionSet)
    (expiration : Instant) : Prop where
  rest : s'.tables = { s.tables with permissions := s'.tables.permissions }
  otherEntries : ∀ k, k ≠ ⟨key, q⟩ →
    s'.tables.permissions.find? k = s.tables.permissions.find? k
  entry : ∀ now, contribution s'.tables now q key =
    if now < ((s.tables.permissions.find? ⟨key, q⟩).map Entry.Value.expiration).elim expiration
        (·.later expiration) then
      (((s.tables.permissions.find? ⟨key, q⟩).map Entry.Value.permissions).getD .empty).union given
    else .empty
  /-- At any time, whoever holds something on whatever object holds it still, and more only if
  the principal of the entry counts, and on the object of the entry. -/
  held : ∀ now p key', ∃ members before after, Gathered s now p key' members before ∧
    Gathered s' now p key' members after ∧
    (∀ x, before.contains x = true → after.contains x = true) ∧
    (¬ (key' = key ∧ q ∈ members) → after = before)

theorem contribution_eq_of_find? (h : t'.permissions.find? ⟨key, q⟩ = t.permissions.find? ⟨key, q⟩)
    (now : Instant) : contribution t' now q key = contribution t now q key := by
  unfold contribution
  rw [h]

/-- The entry after a grant gives both, as long as one of them lasts. -/
theorem contribution_granted {kind : ObjectKind} {expiration : Instant}
    (h : t'.permissions.find? ⟨key, q⟩ =
      some (.granted (t.permissions.find? ⟨key, q⟩) given kind expiration)) (now : Instant) :
    contribution t' now q key =
      if now < ((t.permissions.find? ⟨key, q⟩).map Entry.Value.expiration).elim expiration
          (·.later expiration) then
        (((t.permissions.find? ⟨key, q⟩).map Entry.Value.permissions).getD .empty).union given
      else .empty := by
  unfold contribution
  rw [h, Option.map_some, Option.getD_some]
  unfold Entry.Value.permissionsAt Entry.Value.activeAt Entry.Value.granted
  simp only [decide_eq_true_eq]
  cases t.permissions.find? ⟨key, q⟩ with
  | none => simp only [Option.map_none, Option.elim_none, Option.getD_none,
      PermissionSet.empty_union]
  | some v => rfl

/-- A grant takes nothing away from an entry. -/
theorem contribution_grows {kind : ObjectKind} {expiration : Instant}
    (h : t'.permissions.find? ⟨key, q⟩ =
      some (.granted (t.permissions.find? ⟨key, q⟩) given kind expiration))
    (hx : (contribution t now q key).contains x = true) :
    (contribution t' now q key).contains x = true := by
  obtain ⟨v, hv, hnow, hcontains⟩ := contains_contribution.mp hx
  refine contains_contribution.mpr ⟨_, h, ?_⟩
  rw [hv]
  refine ⟨Instant.lt_later_iff.mpr (.inl hnow), ?_⟩
  show (v.permissions.union given).contains x = true
  rw [PermissionSet.contains_union, hcontains, Bool.true_or]

/-- What a revocation does: the entry loses what is taken away, and goes if nothing is left,
and nothing else is changed. -/
structure Withdrawn (s s' : State) (key : AclKey) (q : Principal) (taken : PermissionSet) :
    Prop where
  rest : s'.tables = { s.tables with permissions := s'.tables.permissions }
  otherEntries : ∀ k, k ≠ ⟨key, q⟩ →
    s'.tables.permissions.find? k = s.tables.permissions.find? k
  entry : s'.tables.permissions.find? ⟨key, q⟩ =
    (s.tables.permissions.find? ⟨key, q⟩).bind fun v =>
      if (v.permissions.difference taken).isEmpty then none
      else some ⟨v.permissions.difference taken, v.kind, v.expiration⟩
  /-- At any time, nobody holds more than before on whatever object, and less only if the
  principal of the entry counts, and on the object of the entry. What is lost is among what is
  taken away, of which somebody keeps what another entry gives that counts. -/
  held : ∀ now p key', ∃ members before after, Gathered s now p key' members before ∧
    Gathered s' now p key' members after ∧
    (∀ x, after.contains x = true → before.contains x = true) ∧
    (¬ (key' = key ∧ q ∈ members) → after = before) ∧
    (∀ x, before.contains x = true → after.contains x = false → taken.contains x = true) ∧
    (key' = key → ∀ x, taken.contains x = true → (after.contains x = true ↔
      ∃ o ∈ members, o ≠ q ∧ (contribution s.tables now o key).contains x = true))

/-- The entry after a revocation gives what it gave before but what is taken away. -/
theorem contribution_revoked {taken : PermissionSet}
    (h : t'.permissions.find? ⟨key, q⟩ =
      (t.permissions.find? ⟨key, q⟩).bind (·.revoked taken)) (now : Instant) :
    contribution t' now q key = (contribution t now q key).difference taken := by
  unfold contribution
  rw [h]
  apply PermissionSet.ext_contains
  intro x
  cases t.permissions.find? ⟨key, q⟩ with
  | none => simp
  | some v =>
    simp only [Option.bind_some, Option.map_some, Option.getD_some,
      PermissionSet.contains_difference]
    unfold Entry.Value.revoked
    dsimp only
    split
    · rename_i hempty
      have hleft : (v.permissions.difference taken).contains x = false := by
        rw [PermissionSet.eq_empty_of_isEmpty hempty, PermissionSet.contains_empty]
      rw [PermissionSet.contains_difference] at hleft
      unfold Entry.Value.permissionsAt
      split
      · simp [hleft]
      · simp
    · unfold Entry.Value.permissionsAt Entry.Value.activeAt
      split <;> simp_all

/-! ### Exactly that -/

variable {members : ExtTreeSet Principal} {before after : PermissionSet}

theorem held_eq (hbefore : Gathered s now p key' members before)
    (hafter : Gathered s' now p key' members after)
    (h : ∀ o ∈ members, contribution s'.tables now o key' = contribution s.tables now o key') :
    after = before := by
  apply PermissionSet.ext_contains
  intro x
  rw [Bool.eq_iff_iff, hafter.contains_iff, hbefore.contains_iff]
  constructor
  · rintro ⟨o, ho, hx⟩
    exact ⟨o, ho, h o ho ▸ hx⟩
  · rintro ⟨o, ho, hx⟩
    exact ⟨o, ho, (h o ho).symm ▸ hx⟩

theorem contribution_other (h : ∀ k, k ≠ ⟨key, q⟩ →
      t'.permissions.find? k = t.permissions.find? k) (hother : ¬ (key' = key ∧ o = q)) :
    contribution t' now o key' = contribution t now o key' := by
  refine contribution_eq_of_find? (h _ ?_) now
  rintro ⟨⟩
  exact hother ⟨rfl, rfl⟩

/-- What a grant makes of one entry is all that it does to what is held. -/
theorem given_of_entries (h : s.InMemory) (h' : s'.InMemory)
    (hc : s.tables.directory.Consistent) {kind : ObjectKind} {expiration : Instant}
    (hrest : s'.tables = { s.tables with permissions := s'.tables.permissions })
    (hpermissions : s'.tables.permissions =
      Permissions.mergeOne given kind expiration s.tables.permissions ⟨key, q⟩) :
    Given s s' key q given expiration := by
  have hfind := Permissions.find?_mergeOne given kind expiration s.tables.permissions ⟨key, q⟩
  rw [← hpermissions] at hfind
  have hentry := (hfind ⟨key, q⟩).trans (if_pos rfl)
  have hothers : ∀ k, k ≠ ⟨key, q⟩ →
      s'.tables.permissions.find? k = s.tables.permissions.find? k :=
    fun k hk => (hfind k).trans (if_neg (Ne.symm hk))
  refine ⟨hrest, hothers, contribution_granted hentry, fun now p key' => ?_⟩
  obtain ⟨members, before, after, hbefore, hafter⟩ := gathered_both h h' hc hrest now p key'
  refine ⟨members, before, after, hbefore, hafter, fun x hx => ?_, fun hnot => ?_⟩
  · obtain ⟨o, ho, hox⟩ := (hbefore.contains_iff x).mp hx
    refine (hafter.contains_iff x).mpr ⟨o, ho, ?_⟩
    by_cases hsame : key' = key ∧ o = q
    · obtain ⟨rfl, rfl⟩ := hsame
      exact contribution_grows hentry hox
    · rwa [contribution_other hothers hsame]
  · refine held_eq hbefore hafter fun o ho => contribution_other hothers ?_
    rintro ⟨rfl, rfl⟩
    exact hnot ⟨rfl, ho⟩

/-- What a revocation makes of one entry is all that it does to what is held. -/
theorem withdrawn_of_entries (h : s.InMemory) (h' : s'.InMemory)
    (hc : s.tables.directory.Consistent) {taken : PermissionSet}
    (hrest : s'.tables = { s.tables with permissions := s'.tables.permissions })
    (hpermissions : s'.tables.permissions =
      Permissions.subtractOne taken s.tables.permissions ⟨key, q⟩) :
    Withdrawn s s' key q taken := by
  have hfind := Permissions.find?_subtractOne taken s.tables.permissions ⟨key, q⟩
  rw [← hpermissions] at hfind
  have hentry := (hfind ⟨key, q⟩).trans (if_pos rfl)
  have hothers : ∀ k, k ≠ ⟨key, q⟩ →
      s'.tables.permissions.find? k = s.tables.permissions.find? k :=
    fun k hk => (hfind k).trans (if_neg (Ne.symm hk))
  refine ⟨hrest, hothers, hentry, fun now p key' => ?_⟩
  obtain ⟨members, before, after, hbefore, hafter⟩ := gathered_both h h' hc hrest now p key'
  -- each member contributes what it did, but the one whose entry was changed
  have hkept : ∀ o ∈ members, ¬ (key' = key ∧ o = q) →
      contribution s'.tables now o key' = contribution s.tables now o key' :=
    fun o _ hother => contribution_other hothers hother
  have hless := contribution_revoked hentry now
  refine ⟨members, before, after, hbefore, hafter, fun x hx => ?_, fun hnot => ?_,
    fun x hx hlost => ?_, fun hkey x hx => ?_⟩
  · obtain ⟨o, ho, hox⟩ := (hafter.contains_iff x).mp hx
    refine (hbefore.contains_iff x).mpr ⟨o, ho, ?_⟩
    by_cases hsame : key' = key ∧ o = q
    · obtain ⟨rfl, rfl⟩ := hsame
      rw [hless, PermissionSet.contains_difference, Bool.and_eq_true] at hox
      exact hox.1
    · rwa [← hkept o ho hsame]
  · refine held_eq hbefore hafter fun o ho => hkept o ho ?_
    rintro ⟨rfl, rfl⟩
    exact hnot ⟨rfl, ho⟩
  · obtain ⟨o, ho, hox⟩ := (hbefore.contains_iff x).mp hx
    have hnone : ¬ (contribution s'.tables now o key').contains x = true := fun hcontains =>
      Bool.false_ne_true (hlost.symm.trans ((hafter.contains_iff x).mpr ⟨o, ho, hcontains⟩))
    by_cases hsame : key' = key ∧ o = q
    · obtain ⟨rfl, rfl⟩ := hsame
      rw [hless, PermissionSet.contains_difference, hox] at hnone
      simpa using hnone
    · rw [hkept o ho hsame] at hnone
      exact absurd hox hnone
  · subst hkey
    rw [hafter.contains_iff x]
    constructor
    · rintro ⟨o, ho, hox⟩
      have hne : o ≠ q := by
        rintro rfl
        rw [hless, PermissionSet.contains_difference, hx] at hox
        simp at hox
      exact ⟨o, ho, hne, hkept o ho (fun hsame => hne hsame.2) ▸ hox⟩
    · rintro ⟨o, ho, hne, hox⟩
      exact ⟨o, ho, (hkept o ho fun hsame => hne hsame.2).symm ▸ hox⟩

/-- **Grants and revocations have exactly their effect.** Nothing happens if nothing is given or
taken away. Otherwise a grant adds to the entry what is given and lets it last until the later of
the two instants, and a revocation takes away what is taken and leaves the rest of the entry, if
there is a rest, as it is; and whatever anybody holds on any object at any time goes by that one
entry, as far as its principal counts for them. -/
theorem grants_are_exact {changes : List Tables.Change} (h : s.InMemory)
    (hs : s.tables = .after changes) (key : AclKey) (q : Principal) (perms : PermissionSet) :
    (perms.isEmpty = true →
      (∀ kind expiration, (grant key q perms kind expiration).perform s = (.ok (), s)) ∧
      (revoke key q perms).perform s = (.ok (), s)) ∧
    (perms.isEmpty = false →
      (∀ kind expiration, ∃ s', (grant key q perms kind expiration).perform s = (.ok (), s') ∧
        Given s s' key q perms (expiration.getD .neverExpires) ∧
        s'.trail = s.trail ++ [.permissionsGranted q key perms]) ∧
      ∃ s', (revoke key q perms).perform s = (.ok (), s') ∧ Withdrawn s s' key q perms ∧
        s'.trail = s.trail ++ [.permissionsRevoked q key perms]) := by
  have hc : s.tables.directory.Consistent := hs ▸ Tables.consistent_directory_after changes
  constructor
  · intro hempty
    unfold grant revoke
    rw [hempty]
    exact ⟨fun _ _ => rfl, rfl⟩
  · intro hperms
    constructor
    · intro kind expiration
      obtain ⟨s', hgrant, h', hbooks⟩ :=
        Action.perform_of_gives h (gives_grant key q hperms kind expiration)
      have htables := congrArg Books.tables hbooks
      have hpermissions := congrArg Tables.permissions htables
      exact ⟨s', hgrant, given_of_entries h h' hc (hpermissions ▸ htables) hpermissions,
        congrArg Books.trail hbooks⟩
    · obtain ⟨s', hrevoke, h', hbooks⟩ := Action.perform_of_gives h (gives_revoke key q hperms)
      have htables := congrArg Books.tables hbooks
      have hpermissions := congrArg Tables.permissions htables
      exact ⟨s', hrevoke, withdrawn_of_entries h h' hc (hpermissions ▸ htables) hpermissions,
        congrArg Books.trail hbooks⟩

/-- What a team was given has expired when it is given more, and lasts for ever from then on.
When it is taken away from the team, its entry goes, and Alice, who is a member, keeps what she
was given herself. -/
theorem renewed_and_withdrawn :
    let alice : Registration := ⟨.single (.system 1), ⟨.user, "alice"⟩, "", ""⟩
    let team : Registration := ⟨.single (.system 2), ⟨.role, "team"⟩, "", ""⟩
    let door : AclKey := .single (.system 3)
    let read : PermissionSet := .ofList [.read]
    let s : State := { State.start {} ⟨0, 0⟩ with
      tables := Tables.after [.directory (.add alice), .directory (.add team),
        .addEdge alice.aclKey team.aclKey,
        .permissions (.merge [⟨door, team.principal⟩] read .unknown ⟨1, 0⟩),
        .permissions (.merge [⟨door, alice.principal⟩] read .unknown ⟨9, 0⟩)] }
    (∃ s', (grant door team.principal (.ofList [.write]) .unknown none).perform s = (.ok (), s') ∧
      contribution s.tables ⟨5, 0⟩ team.principal door = .empty ∧
      contribution s'.tables ⟨5, 0⟩ team.principal door = .ofList [.read, .write]) ∧
    ∃ s', (revoke door team.principal read).perform s = (.ok (), s') ∧
      s'.tables.permissions.find? ⟨door, team.principal⟩ = none ∧
      ∃ members held, Gathered s' ⟨5, 0⟩ alice.principal door members held ∧
        held.contains .read = true := by
  intro alice team door read s
  have h : s.InMemory := ⟨rfl, rfl⟩
  have hreach : s.tables = Tables.after _ := rfl
  constructor
  · obtain ⟨-, hgrant⟩ := grants_are_exact h hreach door team.principal (.ofList [.write])
    obtain ⟨s', hperform, hgiven, -⟩ := (hgrant (by decide)).1 .unknown none
    refine ⟨s', hperform, by decide +kernel, (hgiven.entry ⟨5, 0⟩).trans ?_⟩
    decide +kernel
  · obtain ⟨-, hrevoke⟩ := grants_are_exact h hreach door team.principal read
    obtain ⟨s', hperform, hwithdrawn, -⟩ := (hrevoke (by decide)).2
    obtain ⟨members, before, after, hbefore, hafter, -, -, -, hkeeps⟩ :=
      hwithdrawn.held ⟨5, 0⟩ alice.principal door
    obtain rfl := (reads_closure h alice.principal).unique hbefore.closure
    refine ⟨s', hperform, hwithdrawn.entry.trans (by decide +kernel), _, after, hafter, ?_⟩
    refine (hkeeps rfl .read (by decide)).mpr ⟨alice.principal, ?_, by decide, by decide +kernel⟩
    decide +kernel

end AccessRegistry.Authorization
