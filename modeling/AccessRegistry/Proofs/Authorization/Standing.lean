/-
# Standard principals stay in their places

What is done to names and registrations leaves a standard principal in its place, unless its
name is given away or to somebody else, or somebody gets its name or key. Identifiers that are
handed out are not reserved, so nobody gets its key. Removals do no harm: whoever is not there
is in nobody's way. So of all services only those that rename and create have to be looked at;
and the bootstrap gives nobody but a standard principal what belongs to one.

Key definitions: `Reservations.Change.Respects`, `Directory.Change.Respects`, `Tables.Standing`,
`State.Standing`, `Upholds`.
Key theorems: `Reservations.keeps_apply`, `Directory.keeps_apply`, `Naming.upholds_rename`,
`Authorization.upholds_createPrincipal`, `Authorization.upholds_bootstrap`.
-/
import AccessRegistry.Proofs.Authorization.Bootstrap
import AccessRegistry.Proofs.Integrity
import AccessRegistry.Proofs.Supply.Unreserved

namespace AccessRegistry

namespace Reservations

variable {t t' : Reservations} {r : Registration}

/-- A change gives nobody a name or an identifier that belongs to a standard principal, and does
not take its name away for another one. -/
def Change.Respects (r : Registration) : Change → Prop
  | reserve v => v.name = r.principal.toText ↔ v.id = r.id
  | renameByName old new => r.principal.toText ≠ old ∧ r.principal.toText ≠ new
  | renameById id new => id ≠ r.id ∧ r.principal.toText ≠ new
  | deleteNames _ | deleteIds _ => True

theorem Keeps.mono (h : t.Keeps r) (hless : ∀ id v, t'.find? id = some v → t.find? id = some v) :
    t'.Keeps r := fun id v hv => h id v (hless id v hv)

theorem Keeps.rename (ht : t.OneToOne) (h : t.Keeps r) {id : Identifier} {new : String}
    (hid : id ≠ r.id) (hnew : r.principal.toText ≠ new) :
    (t.answered (t.rename id new)).Keeps r := by
  rcases rename_cases ht id new with ⟨found, hsame⟩ | htaken | ⟨-, t', -, -, hok, hrenamed⟩
  · rw [hsame]
    exact h
  · rw [htaken]
    exact h
  · rw [hok]
    intro x v hv
    change t'.find? x = some v at hv
    rw [hrenamed.find?] at hv
    split at hv
    · rename_i hx
      obtain ⟨w, -, rfl⟩ := Option.map_eq_some_iff.mp hv
      exact ⟨fun hname => absurd hname.symm hnew, fun he => absurd (hx.trans he) hid⟩
    · exact h x v hv

/-- A change that respects a standard principal leaves its name to it. -/
theorem keeps_apply (ht : t.OneToOne) (h : t.Keeps r) {c : Change} (hc : c.Respects r) :
    (c.apply t).Keeps r := by
  cases c with
  | reserve v =>
    show ((t.insert? v).getD t).Keeps r
    cases hins : t.insert? v with
    | none => exact h
    | some t' => exact (keeps_insert hins hc).mpr h
  | renameByName old new =>
    show (t.answered (t.renameByName old new)).Keeps r
    cases hold : t.idOf? old with
    | none => exact renameByName_unbound hold new ▸ h
    | some id =>
      rw [renameByName_bound hold]
      refine Keeps.rename ht h ?_ hc.2
      rintro rfl
      obtain ⟨v, hv, hname⟩ := ht.byName old _ hold
      exact hc.1 (((h _ v hv).mpr rfl).symm.trans hname)
  | renameById id new => exact Keeps.rename ht h hc.1 hc.2
  | deleteNames names => exact h.mono fun _ _ hv => find?_of_deleteNames names hv
  | deleteIds ids =>
    refine h.mono fun id v hv => ?_
    rw [Change.apply, find?_deleteIds] at hv
    split at hv
    · cases hv
    · exact hv

end Reservations

namespace Directory

variable {t t' : Directory} {r : Registration}

/-- A change registers nobody under the key of a standard principal, nor the standard principal
under another one. -/
def Change.Respects (r : Registration) : Change → Prop
  | add new => new.principal = r.principal ↔ new.aclKey = r.aclKey
  | retitle _ _ | remove _ => True

/-- A change that respects a standard principal leaves its key to it. -/
theorem keeps_apply (ht : t.Consistent) (h : t.Keeps r) {c : Change} (hc : c.Respects r) :
    (c.apply t).Keeps r := by
  cases c with
  | add new => exact (keeps_add hc).mpr h
  | retitle key title =>
    intro p found hp
    change (t.retitle key title).2.find? p = some found at hp
    rw [find?_retitle ht] at hp
    obtain ⟨before, hbefore, rfl⟩ := Option.map_eq_some_iff.mp hp
    have hkey : (if before.aclKey = key then { before with title } else before).aclKey =
        before.aclKey := by
      split <;> rfl
    rw [hkey]
    exact h p before hbefore
  | remove q =>
    intro p found hp
    change (t.remove q).2.find? p = some found at hp
    rw [find?_remove] at hp
    split at hp
    · cases hp
    · exact h p found hp

end Directory

namespace Tables

variable {t t' : Tables}

/-- All standard principals are in their places. -/
structure Standing (t : Tables) : Prop where
  reservations : t.reservations.OneToOne
  directory : t.directory.Consistent
  places : ∀ r ∈ Standard.all, t.InPlace r

namespace Standing

theorem congr (h : t.Standing) (hreservations : t'.reservations = t.reservations)
    (hdirectory : t'.directory = t.directory) : t'.Standing where
  reservations := hreservations ▸ h.reservations
  directory := hdirectory ▸ h.directory
  places r hr := ⟨hreservations ▸ (h.places r hr).name, hdirectory ▸ (h.places r hr).key⟩

theorem naming (h : t.Standing) {c : Reservations.Change} (hc : ∀ r ∈ Standard.all, c.Respects r) :
    ({ t with reservations := c.apply t.reservations } : Tables).Standing where
  reservations := Reservations.oneToOne_apply h.reservations c
  directory := h.directory
  places r hr :=
    ⟨Reservations.keeps_apply h.reservations (h.places r hr).name (hc r hr), (h.places r hr).key⟩

theorem registering (h : t.Standing) {c : Directory.Change}
    (hc : ∀ r ∈ Standard.all, c.Respects r) :
    ({ t with directory := c.apply t.directory } : Tables).Standing where
  reservations := h.reservations
  directory := Directory.consistent_apply h.directory c
  places r hr :=
    ⟨(h.places r hr).name, Directory.keeps_apply h.directory (h.places r hr).key (hc r hr)⟩

end Standing
end Tables

theorem State.Blank.standing {s : State} (h : s.Blank) : s.tables.Standing where
  reservations := h.sound.reservations
  directory := h.sound.directory
  places r _ := by
    rw [h.tables]
    constructor
    · intro id v hv
      simp [Tables.empty, Reservations.find?, Reservations.empty] at hv
    · intro p found hp
      simp [Tables.empty, Directory.find?, Directory.empty] at hp

/-- All standard principals are in their places, and nothing reserved waits at a desk. -/
structure State.Standing (s : State) : Prop extends s.InMemory where
  tables : s.tables.Standing
  clear : s.Clear

theorem State.Standing.withLog {s : State} (h : s.Standing) (log : List Log.Record) :
    ({ s with log } : State).Standing := ⟨h.toInMemory.withLog log, h.tables, h.clear⟩

/-! ### Computations -/

/-- A computation leaves the standard principals in their places. -/
abbrev Upholds {ε α : Type} (x : ExceptT ε (StateM State) α) : Prop := Preserves State.Standing x

namespace Action

variable {α : Type} {x : Action α}

theorem upholds_of_reads {f : State → α} (h : ∀ s : State, s.InMemory → x.Reads s (f s)) :
    Upholds x := by
  intro s hs
  obtain ⟨log, hx⟩ := (h s hs.toInMemory).outcome_eq
  rw [hx]
  exact hs.withLog log

/-- What leaves the books alone has to leave the desks clear. -/
theorem upholds_of_idle (h : Idle x) (hclear : Preserves State.Clear x) : Upholds x := by
  intro s hs
  obtain ⟨hs', hbooks⟩ := h s.books s hs.toInMemory rfl
  have htables : (outcome x s).2.tables = s.tables := congrArg Books.tables hbooks
  exact ⟨hs', htables ▸ hs.tables, hclear s hs.clear⟩

theorem upholds_say (level : Log.Level) (part : Log.Part) (message : String)
    (fields : List (String × Log.Value)) : Upholds (say level part message fields) :=
  fun _ hs => hs.withLog _

theorem upholds_record (e : AuditEvent) : Upholds (record e) :=
  fun _ hs => ⟨⟨hs.storage, hs.outages⟩, hs.tables, hs.clear⟩

theorem upholds_call (c : Call) : Upholds (call c) :=
  upholds_of_idle (idle_call c) (quiet_call c).preserves_clear

theorem upholds_records (c : Call) (f : Tables → α) :
    Upholds (do callRecords c; return f (← tables)) :=
  upholds_of_reads fun _ hs => reads_callRecords hs c f

theorem upholds_change (c : Call) {g : Tables → α × Tables}
    (h : ∀ t, t.Standing → (g t).2.Standing) : Upholds (do callRecords c; change g) := by
  intro s hs
  have hx : outcome (do callRecords c; change g) s = _ := perform_change hs.toInMemory c g
  rw [hx]
  exact ⟨⟨hs.storage, hs.outages⟩, h s.tables hs.tables, hs.clear⟩

theorem upholds_change_of_eq (c : Call) {g : Tables → α × Tables}
    (h : ∀ t, (g t).2.reservations = t.reservations ∧ (g t).2.directory = t.directory) :
    Upholds (do callRecords c; change g) :=
  upholds_change c fun t ht => ht.congr (h t).1 (h t).2

end Action

open AccessRegistry.Action

/-! ### Names and principals -/

namespace Naming

/-- Who renames neither from a standard name nor to one leaves the standard names alone. -/
theorem upholds_rename {old new : String}
    (h : ∀ r ∈ Standard.all, r.principal.toText ≠ old ∧ r.principal.toText ≠ new) :
    Upholds (rename old new) := by
  intro s hs
  have hx : outcome (rename old new) s = _ := perform_rename hs.toInMemory old new
  have htables : ({ s.tables with reservations :=
      s.tables.reservations.answered (s.tables.reservations.renameByName old new) } :
        Tables).Standing := hs.tables.naming (c := .renameByName old new) h
  rw [hx]
  rcases hrenamed : s.tables.reservations.renameByName old new with e | ⟨_ | _, reservations⟩
  · exact hs
  · rw [hrenamed] at htables
    exact ⟨⟨hs.storage, hs.outages⟩, htables, hs.clear⟩
  · rw [hrenamed] at htables
    exact ⟨⟨hs.storage, hs.outages⟩, htables, hs.clear⟩

theorem upholds_releaseNames (names : List String) : Upholds (releaseNames names) := by
  unfold releaseNames
  refine preserves_bind (upholds_change _ fun t ht => ht.naming (c := .deleteNames names)
    fun _ _ => trivial) fun deleted => ?_
  split
  · exact upholds_say _ _ _ _
  · exact preserves_pure ()

theorem upholds_releaseIds (ids : List Identifier) : Upholds (releaseIds ids).run := by
  unfold releaseIds
  rw [Procedure.run_then, Procedure.run_perform]
  refine preserves_bind (upholds_change _ fun t ht => ht.naming (c := .deleteIds ids)
    fun _ _ => trivial) fun deleted => ?_
  split
  · rw [Procedure.run_say]
    exact upholds_say _ _ _ _
  · exact preserves_pure ()

theorem upholds_reservation? (name : String) : Upholds (Naming.reservation? name) :=
  preserves_bind (upholds_records _ fun t => t.reservations.findByNames [name]) fun _ =>
    preserves_pure _

theorem upholds_nameOf? (id : Identifier) : Upholds (nameOf? id) :=
  preserves_bind (upholds_records _ fun t => t.reservations.find? id) fun _ => preserves_pure _

/-- Each standard principal has a name and an identifier of its own. -/
theorem respects_standardReservation {r : Registration} (hr : r ∈ Standard.all) :
    ∀ r' ∈ Standard.all, (Reservations.Change.reserve
      (Authorization.standardReservation r)).Respects r' := by
  have happart : ∀ r ∈ Standard.all, ∀ r' ∈ Standard.all,
      (r.principal.toText = r'.principal.toText ↔ r.id = r'.id) := by decide +kernel
  exact fun r' hr' => happart r hr r' hr'

theorem upholds_reserveStandard {r : Registration} (hr : r ∈ Standard.all) :
    Upholds (reserveWellKnown (Authorization.standardReservation r)) := by
  unfold reserveWellKnown
  refine preserves_bind (upholds_change _ fun t ht => ?_) fun bound => ?_
  · have hins := ht.naming (respects_standardReservation hr)
    simp only [Reservations.Change.apply] at hins
    cases hfree : t.reservations.insert? (Authorization.standardReservation r) with
    | none => exact ht
    | some reservations =>
      rw [hfree] at hins
      exact hins
  · split
    · exact preserves_pure ()
    · refine preserves_bind (upholds_records _ fun t => t.reservations.find? _) fun found => ?_
      split
      · split
        · exact preserves_pure ()
        · exact preserves_throw _
      · exact preserves_throw _

end Naming

namespace Authorization

theorem upholds_grant (key : AclKey) (p : Principal) (s : PermissionSet) (kind : ObjectKind)
    (expiration : Option Instant) : Upholds (grant key p s kind expiration) := by
  unfold grant
  split
  · exact preserves_pure ()
  · exact preserves_bind (upholds_change_of_eq _ fun _ => ⟨rfl, rfl⟩) fun _ => upholds_record _

theorem upholds_revoke (key : AclKey) (p : Principal) (s : PermissionSet) :
    Upholds (revoke key p s) := by
  unfold revoke
  split
  · exact preserves_pure ()
  · exact preserves_bind (upholds_change_of_eq _ fun _ => ⟨rfl, rfl⟩) fun _ => upholds_record _

theorem upholds_lookup (p : Principal) : Upholds (lookup p) := by
  refine preserves_bind (upholds_records _ fun t => t.directory.find? p) fun found => ?_
  cases found with
  | none => exact preserves_throw _
  | some r => exact preserves_pure r

theorem upholds_updateTitle (p : Principal) (title : String) : Upholds (updateTitle p title) := by
  refine preserves_bind (upholds_lookup p) fun r => ?_
  refine preserves_bind (upholds_change _ fun t ht => ?_) fun _ => preserves_pure ()
  exact ht.registering (c := .retitle r.aclKey title) fun _ _ => trivial

theorem upholds_lookupAt (keys : List AclKey) : Upholds (Store.lookupAt keys) :=
  upholds_of_reads fun _ hs => Store.reads_lookupAt hs keys

theorem upholds_addMember (child parent : AclKey) : Upholds (addMember child parent) := by
  unfold addMember
  refine preserves_bind (upholds_lookupAt [child, parent]) fun found => ?_
  split
  · exact preserves_throw _
  · rename_i member _
    have hadd : Upholds (do
        if ← Store.addEdge child parent then
          Action.record (.membershipAdded member.principal parent)) := by
      refine preserves_bind (upholds_change_of_eq _ fun _ => ⟨rfl, rfl⟩) fun isNew => ?_
      split
      · exact upholds_record _
      · exact preserves_pure ()
    split
    · exact preserves_bind (preserves_throw _) fun _ => hadd
    · exact hadd

theorem upholds_removeMember (child parent : AclKey) : Upholds (removeMember child parent) := by
  unfold removeMember
  refine preserves_bind (upholds_change_of_eq _ fun _ => ⟨rfl, rfl⟩) fun found => ?_
  split
  · exact preserves_bind (upholds_lookupAt [child]) fun _ => upholds_record _
  · exact upholds_say _ _ _ _

theorem upholds_deletePrincipal (p : Principal) : Upholds (deletePrincipal p) := by
  refine preserves_bind (upholds_lookup p) fun r => ?_
  refine preserves_bind (upholds_change_of_eq _ fun _ => ⟨rfl, rfl⟩) fun edges => ?_
  refine preserves_bind (upholds_change_of_eq _ fun _ => ⟨rfl, rfl⟩) fun held => ?_
  refine preserves_bind (upholds_change_of_eq _ fun _ => ⟨rfl, rfl⟩) fun on => ?_
  have hremove : Upholds (Store.deletePrincipal p) :=
    upholds_change _ fun t ht => ht.registering (c := .remove p) fun _ _ => trivial
  refine preserves_bind hremove fun _ => ?_
  exact preserves_bind (Naming.upholds_releaseIds [r.id]) fun _ => upholds_record _

/-- What a creation leaves, if the principal has neither a standard name nor a reserved
identifier. -/
theorem Created.standing {owner : Principal} {n : NewPrincipal} {b b' : Books} {id : Identifier}
    (h : Created owner n b b' (n.registration id)) (hid : ¬ id.IsReserved)
    (hname : ∀ r ∈ Standard.all, r.principal.toText ≠ n.principal.toText)
    (ht : b.tables.Standing) : b'.tables.Standing := by
  have hreserved : ∀ r ∈ Standard.all, r.id.IsReserved := by decide
  obtain ⟨same, reservations, hsame, hins, -, rfl⟩ := h
  obtain rfl := n.registration_inj hsame.symm
  have hne : ∀ r ∈ Standard.all, same ≠ r.id := fun r hr he => hid (he ▸ hreserved r hr)
  have hnaming := ht.naming (c := .reserve (n.object.reservation same)) fun r hr =>
    ⟨fun he => absurd he.symm (hname r hr), fun he =>
      absurd ((n.object.reservation_id same).symm.trans he) (hne r hr)⟩
  rw [Reservations.Change.apply, hins, Option.getD_some] at hnaming
  refine (hnaming.registering (c := .add (n.registration same)) fun r hr => ?_).congr rfl rfl
  refine ⟨fun he => absurd (congrArg Principal.toText he).symm (hname r hr), fun he => ?_⟩
  exact absurd ((AclKey.leaf_under n.path same).symm.trans (congrArg AclKey.leaf he)) (hne r hr)

/-- Who creates nobody with a standard name leaves the standard principals alone. -/
theorem upholds_createPrincipal (retry : Retry.Policy) (owner : Principal) {n : NewPrincipal}
    (h : ∀ r ∈ Standard.all, r.principal.toText ≠ n.principal.toText) :
    Upholds (createPrincipal retry owner n).run := by
  intro s hs
  have hs' := (whole_createPrincipal retry owner n s.books s hs.toInMemory rfl).1
  obtain ⟨hclear, hgiven⟩ := (createPrincipal retry owner n).clear_run hs.clear
  refine ⟨hs', ?_, hclear⟩
  rcases creation_cases hs.toInMemory retry owner n with hsame | ⟨id, hid, hcreated⟩
  · exact hs.tables.congr (congrArg (·.tables.reservations) hsame)
      (congrArg (·.tables.directory) hsame)
  · exact hcreated.standing (hgiven id hid) h hs.tables

theorem upholds_createIfAbsent (owner : Principal) {r : Registration} (hr : r ∈ Standard.all) :
    Upholds (createIfAbsent owner r).run := by
  have happart : ∀ r ∈ Standard.all, ∀ r' ∈ Standard.all,
      (r.principal = r'.principal ↔ r.aclKey = r'.aclKey) := by decide +kernel
  have hadd : Upholds (Store.createPrincipal r) := upholds_change _ fun t ht =>
    ht.registering (c := .add r) fun r' hr' => happart r hr r' hr'
  unfold createIfAbsent
  rw [Procedure.run_then, Procedure.run_perform]
  refine preserves_bind hadd fun isNew => ?_
  split
  · rw [Procedure.run_then, Procedure.run_perform]
    refine preserves_bind (upholds_change_of_eq _ fun _ => ⟨rfl, rfl⟩) fun _ => ?_
    rw [Procedure.run_then, Procedure.run_perform]
    refine preserves_bind (upholds_record _) fun _ => ?_
    rw [Procedure.run_then, Procedure.run_say]
    exact preserves_bind (upholds_say _ _ _ _) fun _ => preserves_pure true
  · exact preserves_pure false

theorem upholds_createStandard : ∀ {rs : List Registration}, (∀ r ∈ rs, r ∈ Standard.all) →
    Upholds (createStandard rs)
  | [], _ => preserves_pure 0
  | r :: rs, h => by
    have hr := h r List.mem_cons_self
    refine preserves_bind (Naming.upholds_reserveStandard hr) fun _ => ?_
    refine preserves_bind (upholds_createIfAbsent _ hr) fun made => ?_
    refine preserves_bind (upholds_createStandard fun r' hr' => h r' (List.mem_cons_of_mem r hr'))
      fun count => ?_
    exact preserves_pure _

/-- A bootstrap gives everybody what belongs to them. -/
theorem upholds_bootstrap : Upholds bootstrap :=
  preserves_bind (upholds_createStandard fun _ h => h) fun _ =>
    preserves_bind (upholds_addMember _ _) fun _ => upholds_say _ _ _ _

end Authorization
end AccessRegistry
