/-
# What the authorization services leave on the books

Each service takes the steps that it has to take, and records them; one that fails has
taken none, or has undone those that it took. Only the bootstrap, which creates one
principal after the other, may fail halfway.

Key definitions: `Authorization.Created`.
Key theorems: `Authorization.ends_grant`, `Authorization.ends_revoke`,
`Authorization.gives_createIfAbsent`, `Authorization.ends_createPrincipal`,
`Authorization.ends_addMember`, `Authorization.gives_removeMember`,
`Authorization.gives_deletePrincipal`, `Authorization.orderly_bootstrap`.
-/
import AccessRegistry.Authorization
import AccessRegistry.Proofs.Naming

namespace AccessRegistry

open AccessRegistry.Action

variable {b : Books} {p : Principal} {r : Registration}

namespace Store

theorem gives_lookup? (p : Principal) :
    Gives (lookup? p) b (b.tables.directory.find? p) b :=
  gives_of_reads (f := fun t => t.directory.find? p) fun _ hs => reads_lookup? hs p

theorem gives_lookupAt (keys : List AclKey) :
    Gives (lookupAt keys) b (b.tables.directory.findMany keys) b :=
  gives_of_reads (f := fun t => t.directory.findMany keys) fun _ hs => reads_lookupAt hs keys

end Store

theorem Permissions.updateKind_of_fst_eq_false {t : Permissions} {k : Entry.Key}
    {kind : ObjectKind} (h : (t.updateKind k kind).1 = false) : (t.updateKind k kind).2 = t := by
  unfold updateKind at h ⊢
  split
  · rename_i v hv
    rw [hv] at h
    cases h
  · rfl

namespace Authorization

/-- What is given comes to what was given before, and is recorded. -/
theorem gives_grant (key : AclKey) (p : Principal) {s : PermissionSet} (hs : s.isEmpty = false)
    (kind : ObjectKind) (expiration : Option Instant) :
    Gives (grant key p s kind expiration) b ()
      ⟨{ b.tables with
          permissions := Permissions.mergeOne s kind (expiration.getD .neverExpires)
            b.tables.permissions ⟨key, p⟩ },
        b.trail ++ [.permissionsGranted p key s]⟩ := by
  unfold grant
  rw [hs]
  exact gives_bind (gives_change _ _) (gives_record _)

theorem gives_revoke (key : AclKey) (p : Principal) {s : PermissionSet} (hs : s.isEmpty = false) :
    Gives (revoke key p s) b ()
      ⟨{ b.tables with permissions := Permissions.subtractOne s b.tables.permissions ⟨key, p⟩ },
        b.trail ++ [.permissionsRevoked p key s]⟩ := by
  unfold revoke
  rw [hs]
  exact gives_bind (gives_change _ _) (gives_record _)

theorem ends_grant {Q : Except ServiceError Unit → Books → Prop} {key : AclKey}
    {s : PermissionSet} {kind : ObjectKind} {expiration : Option Instant}
    (hempty : s.isEmpty = true → Q (.ok ()) b)
    (hdone : s.isEmpty = false → Q (.ok ())
      ⟨{ b.tables with
          permissions := Permissions.mergeOne s kind (expiration.getD .neverExpires)
            b.tables.permissions ⟨key, p⟩ },
        b.trail ++ [.permissionsGranted p key s]⟩) :
    Ends (grant key p s kind expiration) b Q := by
  cases hs : s.isEmpty with
  | true =>
    unfold grant
    rw [hs]
    exact ends_pure (hempty hs)
  | false => exact (gives_grant key p hs kind expiration).ends (hdone hs)

theorem ends_revoke {Q : Except ServiceError Unit → Books → Prop} {key : AclKey}
    {s : PermissionSet} (hempty : s.isEmpty = true → Q (.ok ()) b)
    (hdone : s.isEmpty = false → Q (.ok ())
      ⟨{ b.tables with permissions := Permissions.subtractOne s b.tables.permissions ⟨key, p⟩ },
        b.trail ++ [.permissionsRevoked p key s]⟩) :
    Ends (revoke key p s) b Q := by
  cases hs : s.isEmpty with
  | true =>
    unfold revoke
    rw [hs]
    exact ends_pure (hempty hs)
  | false => exact (gives_revoke key p hs).ends (hdone hs)

theorem whole_grant (key : AclKey) (p : Principal) (s : PermissionSet) (kind : ObjectKind)
    (expiration : Option Instant) : Whole (grant key p s kind expiration) := fun b =>
  ends_grant (fun _ => .refl b) fun hs =>
    .of_step (.grant key p s kind (expiration.getD .neverExpires) hs)

theorem whole_revoke (key : AclKey) (p : Principal) (s : PermissionSet) :
    Whole (revoke key p s) := fun b =>
  ends_revoke (fun _ => .refl b) fun _ => .of_step (.revoke key p s)

theorem whole_updateKind (k : Entry.Key) (kind : ObjectKind) : Whole (updateKind k kind) := by
  intro b
  have hstep : b.Advances _ := .of_silent (.updateKind (t := b.tables) k kind)
  unfold updateKind
  refine gives_bind (gives_change _ _) ?_
  dsimp only
  cases hfound : (b.tables.permissions.updateKind k kind).1 with
  | true => exact ends_pure hstep
  | false =>
    rw [Permissions.updateKind_of_fst_eq_false hfound]
    exact ends_throw rfl

/-! ### Creating principals -/

/-- What is recorded of a principal that was created. -/
def creation (owner : Principal) (r : Registration) : AuditEvent :=
  .principalCreated r.principal r.aclKey owner r.title

/-- Who is registered already stays as it is; anybody else is registered, and their owner
has every permission on them. -/
theorem gives_createIfAbsent (owner : Principal) (r : Registration) :
    Gives (createIfAbsent owner r).run b (b.tables.directory.add r).1
      (if (b.tables.directory.add r).1 then
        ⟨b.tables.created owner r, b.trail ++ [creation owner r]⟩ else b) := by
  unfold createIfAbsent
  rw [Procedure.run_then, Procedure.run_perform]
  refine gives_bind (gives_change _ _) ?_
  dsimp only
  cases hnew : (b.tables.directory.add r).1 with
  | false =>
    rw [Directory.add_of_fst_eq_false hnew]
    exact ends_pure ⟨rfl, rfl⟩
  | true =>
    simp only [if_true]
    rw [Procedure.run_then, Procedure.run_perform]
    refine gives_bind (gives_change _ _) ?_
    rw [Procedure.run_then, Procedure.run_perform]
    refine gives_bind (gives_record _) ?_
    rw [Procedure.run_then, Procedure.run_say]
    exact gives_bind (gives_say _ _ _ _) (ends_pure ⟨rfl, rfl⟩)

theorem whole_createIfAbsent (owner : Principal) (r : Registration) :
    Whole (createIfAbsent owner r).run := by
  intro b
  refine (gives_createIfAbsent owner r).ends ?_
  show b.Advances (if (b.tables.directory.add r).1 = true then _ else b)
  split
  · rename_i hnew
    exact .of_step (.create owner r hnew)
  · exact .refl b

/-- What the books are after a new principal was created. -/
def Created (owner : Principal) (n : NewPrincipal) (b b' : Books) (r : Registration) : Prop :=
  ∃ (id : Identifier) (reservations : Reservations), r = n.registration id ∧
    b.tables.reservations.insert? (n.object.reservation id) = some reservations ∧
    (b.tables.directory.add r).1 = true ∧
    b' = ⟨{ b.tables with reservations }.created owner r, b.trail ++ [creation owner r]⟩

theorem Created.advances {owner : Principal} {n : NewPrincipal} {b' : Books}
    (h : Created owner n b b' r) : b.Advances b' := by
  obtain ⟨id, reservations, rfl, hins, hnew, rfl⟩ := h
  have hnaming := b.advances_naming (.reserve (n.object.reservation id))
  rw [Reservations.Change.apply, hins] at hnaming
  exact hnaming.trans (.of_step (.create owner (n.registration id) hnew))

/-- A new principal is created, or nothing happens: a name that was reserved for somebody
who cannot be registered is given back. -/
theorem ends_createPrincipal (retry : Retry.Policy) (owner : Principal) (n : NewPrincipal) :
    Ends (createPrincipal retry owner n).run b fun result b' =>
      match result with
      | .ok r => Created owner n b b' r
      | .error _ => b' = b := by
  unfold createPrincipal
  rw [Procedure.run_then, Procedure.run_perform]
  refine gives_bind (Store.gives_lookup? n.principal) ?_
  split
  · exact ends_throw rfl
  · rw [Procedure.run_then, Procedure.run_perform]
    refine (Desk.idle_next .registry).ends_bind (fun first => ?_) fun _ => rfl
    rw [Procedure.run_then]
    refine ends_bind (Naming.ends_register retry n.object first) ?_ ?_
    · rintro out b' ⟨out', hout, hreg⟩
      obtain rfl : out = out' := Except.ok.inj hout
      cases hresult : out.result with
      | error e =>
        rw [hresult] at hreg
        obtain rfl := hreg
        exact ends_throw rfl
      | ok id =>
        rw [hresult] at hreg
        obtain ⟨reservations, hins, rfl⟩ := hreg
        dsimp only
        rw [Procedure.run_then, Procedure.run_attempt]
        have hcreate := gives_createIfAbsent (b := b.withReservations reservations) owner
          (n.registration id)
        refine ends_attempt_bind hcreate ?_
        rintro _ _ ⟨rfl, rfl⟩
        cases hnew : (b.tables.directory.add (n.registration id)).1 with
        | true =>
          have hnew' : ((b.withReservations reservations).tables.directory.add
            (n.registration id)).1 = true := hnew
          simp only [hnew', if_true]
          exact ends_pure ⟨id, reservations, rfl, hins, hnew, rfl⟩
        | false =>
          -- the name was reserved for nobody, and is given back
          have hnew' : ((b.withReservations reservations).tables.directory.add
            (n.registration id)).1 = false := hnew
          have hback := Reservations.deleteIds_insert hins
          rw [n.object.reservation_id] at hback
          simp only [hnew', Bool.false_eq_true, if_false]
          rw [Procedure.run_then]
          refine gives_bind (Naming.gives_releaseIds [id]) (ends_throw ?_)
          show b.withReservations (Reservations.deleteIds [id] reservations).2 = b
          rw [hback]
          rfl
    · rintro _ b' ⟨out, hout, -⟩
      cases hout

theorem whole_createPrincipal (retry : Retry.Policy) (owner : Principal) (n : NewPrincipal) :
    Whole (createPrincipal retry owner n).run := fun b =>
  (ends_createPrincipal retry owner n).mono fun result b' h => by
    cases result with
    | ok r => exact Created.advances h
    | error e => exact h

/-! ### Changing principals -/

theorem gives_lookup (h : b.tables.directory.find? p = some r) : Gives (lookup p) b r b := by
  refine gives_bind (Store.gives_lookup? p) ?_
  rw [h]
  exact ends_pure ⟨rfl, rfl⟩

theorem ends_lookup_missing (h : b.tables.directory.find? p = none) :
    Ends (lookup p) b fun result b' =>
      result = .error (.notFound s!"principal {p} not found") ∧ b' = b := by
  refine gives_bind (Store.gives_lookup? p) ?_
  rw [h]
  exact ends_throw ⟨rfl, rfl⟩

theorem idle_lookup (p : Principal) : Idle (lookup p) := by
  intro b
  cases h : b.tables.directory.find? p with
  | none => exact (ends_lookup_missing h).mono fun _ _ hb => hb.2
  | some r => exact (gives_lookup h).ends rfl

theorem whole_updateTitle (p : Principal) (title : String) : Whole (updateTitle p title) :=
  (idle_lookup p).whole_bind fun r _ =>
    gives_bind (gives_change _ _) (ends_pure (.of_silent (.retitle r.aclKey title)))

section Memberships

variable {child parent : AclKey} {member group : Registration}

/-- Who are both registered can have a membership, which is recorded if it is new. -/
theorem gives_addMember (hc : b.tables.directory.findAt? child = some member)
    (hp : b.tables.directory.findAt? parent = some group) :
    Gives (addMember child parent) b ()
      ⟨{ b.tables with memberships := (Memberships.add b.tables.memberships child parent).2 },
        b.trail ++ if Memberships.holds b.tables.memberships child parent then [] else
          [.membershipAdded member.principal parent]⟩ := by
  unfold addMember
  refine gives_bind (Store.gives_lookupAt [child, parent]) ?_
  have hchild : (b.tables.directory.findMany [child, parent])[child]? = some member :=
    (Directory.getElem?_findMany_of_mem _ List.mem_cons_self).trans hc
  have hparent : (b.tables.directory.findMany [child, parent])[parent]? = some group :=
    (Directory.getElem?_findMany_of_mem _ (List.mem_cons_of_mem _ List.mem_cons_self)).trans hp
  simp only [Std.ExtTreeMap.mem_iff_isSome_getElem?, hchild, hparent, Option.isSome_some,
    not_true_eq_false, if_false]
  refine gives_bind (gives_change _ _) ?_
  cases hheld : Memberships.holds b.tables.memberships child parent with
  | true =>
    simp only [Memberships.add, hheld, Bool.not_true, Bool.false_eq_true, if_false, if_true,
      List.append_nil]
    exact ends_pure ⟨rfl, rfl⟩
  | false =>
    simp only [Memberships.add, hheld, Bool.not_false, if_true, Bool.false_eq_true, if_false]
    exact gives_record _

/-- Where one of them is not registered, nothing is done at all. -/
theorem perform_addMember_missing {s : State} (hs : s.InMemory)
    (h : s.tables.directory.findAt? child = none ∨ s.tables.directory.findAt? parent = none) :
    (addMember child parent).perform s =
      (.error (nobodyAt (if s.tables.directory.findAt? child = none then child else parent)),
        s) := by
  unfold addMember
  rw [perform_bind, Store.perform_lookupAt hs]
  have hchild := s.tables.directory.getElem?_findMany_of_mem
    (List.mem_cons_self : child ∈ [child, parent])
  have hparent := s.tables.directory.getElem?_findMany_of_mem
    (List.mem_cons_of_mem child List.mem_cons_self : parent ∈ [child, parent])
  simp only [Std.ExtTreeMap.mem_iff_isSome_getElem?, hchild, hparent]
  cases hc : s.tables.directory.findAt? child with
  | none => rfl
  | some member =>
    have hp := h.resolve_left fun hnone => Option.some_ne_none member (hc.symm.trans hnone)
    rw [hp]
    rfl

theorem ends_addMember {Q : Except ServiceError Unit → Books → Prop}
    (hdone : ∀ member group, b.tables.directory.findAt? child = some member →
      b.tables.directory.findAt? parent = some group → Q (.ok ())
        ⟨{ b.tables with memberships := (Memberships.add b.tables.memberships child parent).2 },
          b.trail ++ if Memberships.holds b.tables.memberships child parent then [] else
            [.membershipAdded member.principal parent]⟩)
    (hmissing : b.tables.directory.findAt? child = none ∨
      b.tables.directory.findAt? parent = none → ∀ e, Q (.error e) b) :
    Ends (addMember child parent) b Q := by
  have hrefused : b.tables.directory.findAt? child = none ∨
      b.tables.directory.findAt? parent = none → Ends (addMember child parent) b Q := by
    rintro hnone s hs rfl
    have hperform : outcome (addMember child parent) s = _ := perform_addMember_missing hs hnone
    rw [hperform]
    exact ⟨hs, hmissing hnone _⟩
  cases hc : b.tables.directory.findAt? child with
  | none => exact hrefused (.inl hc)
  | some member =>
    cases hp : b.tables.directory.findAt? parent with
    | none => exact hrefused (.inr hp)
    | some group => exact (gives_addMember hc hp).ends (hdone member group hc hp)

theorem whole_addMember (child parent : AclKey) : Whole (addMember child parent) := by
  refine fun b => ends_addMember (fun member group hc hp => ?_) fun _ _ => rfl
  cases hheld : Memberships.holds b.tables.memberships child parent with
  | true =>
    simp only [if_true, List.append_nil]
    refine .of_silent (.rearrange _ fun x y => ?_)
    refine Graph.leads_add.trans ⟨fun h => h.elim ?_ id, Or.inr⟩
    rintro ⟨rfl, rfl⟩
    exact Graph.holds_iff.mp hheld
  | false =>
    simp only [Bool.false_eq_true, if_false]
    exact .of_step (.addMember child parent member group hc hp)

/-- A membership can always be ended, which is recorded if there was one. -/
theorem gives_removeMember (child parent : AclKey) : Gives (removeMember child parent) b ()
    ⟨{ b.tables with memberships := (Memberships.remove b.tables.memberships child parent).2 },
      b.trail ++ if Memberships.holds b.tables.memberships child parent then
        [.membershipRemoved ((b.tables.directory.findAt? child).map Registration.principal) parent]
      else []⟩ := by
  rw [← b.tables.directory.getElem?_findMany_of_mem (List.mem_cons_self : child ∈ [child])]
  unfold removeMember
  refine gives_bind (gives_change _ _) ?_
  cases hheld : Memberships.holds b.tables.memberships child parent with
  | true =>
    simp only [Memberships.remove, hheld, if_true]
    exact gives_bind (Store.gives_lookupAt [child]) (gives_record _)
  | false =>
    simp only [Memberships.remove, hheld, Bool.false_eq_true, if_false, List.append_nil]
    exact gives_say _ _ _ _

theorem whole_removeMember (child parent : AclKey) : Whole (removeMember child parent) := by
  intro b
  refine (gives_removeMember child parent).ends ?_
  cases hheld : Memberships.holds b.tables.memberships child parent with
  | true => exact .of_step (.removeMember child parent (Graph.holds_iff.mp hheld))
  | false =>
    simp only [Bool.false_eq_true, if_false, List.append_nil]
    refine .of_silent (.rearrange _ fun x y => ?_)
    refine Graph.leads_remove.trans ⟨And.right, fun h => ⟨?_, h⟩⟩
    rintro ⟨rfl, rfl⟩
    rw [Graph.holds_iff.mpr h] at hheld
    cases hheld

end Memberships

/-- The books after the removal of a principal: it is gone from the tables, its name is
free, and the trail says so. -/
def deleted (b : Books) (p : Principal) (r : Registration) : Books :=
  ⟨{ b.tables.without p r.aclKey with
      reservations := (Reservations.deleteIds [r.id] b.tables.reservations).2 },
    b.trail ++ [b.tables.removal p r.aclKey]⟩

/-- Whoever is registered can be removed. -/
theorem gives_deletePrincipal (h : b.tables.directory.find? p = some r) :
    Gives (deletePrincipal p) b () (deleted b p r) := by
  unfold deletePrincipal
  refine gives_bind (gives_lookup h) ?_
  refine gives_bind (gives_change _ _) ?_
  refine gives_bind (gives_change _ _) ?_
  refine gives_bind (gives_change _ _) ?_
  refine gives_bind (gives_change _ _) ?_
  refine gives_bind (Naming.gives_releaseIds [r.id]) ?_
  exact gives_record _

theorem whole_deletePrincipal (p : Principal) : Whole (deletePrincipal p) := by
  intro b
  cases h : b.tables.directory.find? p with
  | none =>
    refine ends_bind (ends_lookup_missing h) ?_ ?_
    · rintro _ _ ⟨he, -⟩
      cases he
    · rintro _ _ ⟨-, rfl⟩
      rfl
  | some r =>
    refine (gives_deletePrincipal h).ends ?_
    exact (Books.Advances.of_step (.delete p r h)).trans (.of_silent (.naming (.deleteIds [r.id])))

theorem orderly_createStandard : ∀ rs : List Registration, Orderly (createStandard rs)
  | [] => (idle_pure 0).orderly
  | r :: rs =>
    orderly_bind (Naming.whole_reserveWellKnown _).orderly fun _ =>
      orderly_bind (whole_createIfAbsent _ r).orderly fun _ =>
        orderly_bind (orderly_createStandard rs) fun _ => (idle_pure _).orderly

theorem orderly_bootstrap : Orderly bootstrap :=
  orderly_bind (orderly_createStandard _) fun _ =>
    orderly_bind (whole_addMember _ _).orderly fun _ => (idle_say _ _ _ _).orderly

end Authorization
end AccessRegistry
