/-
# A principal is created as a whole or not at all

A creation reserves a name, registers the principal and gives its owner every permission on
it, one after the other, and each of these can fail. What was done before is undone then: a
registration that was made is removed, and the reservation is released. So a creation that
fails leaves the records and the trail as they were, and one that succeeds adds one
registration, one reservation, what the owner is given, and one event. Its identifier is not a
reserved one, since no operation before it put one of those at a desk.

Key definitions: `Authorization.Attempted`, `Authorization.Established`.
Key theorems: `Naming.comes_register`, `Authorization.comes_discard`,
`Authorization.comes_createPrincipal`, `Authorization.creation_is_all_or_nothing`.
-/
import AccessRegistry.Proofs.ClearDesks
import AccessRegistry.Proofs.Failures
import AccessRegistry.Proofs.Permissions.Values
import AccessRegistry.Proofs.Tables

namespace AccessRegistry

open AccessRegistry.Procedure

variable {F : Identifier → Prop} {b b' : Books}

/-- Who was added and is removed again leaves the directory as it was. -/
theorem Directory.remove_add {t : Directory} {r : Registration} (h : (t.add r).1 = true) :
    (t.add r).2.remove r.principal = (some r, t) := by
  obtain ⟨hprincipal, hkey⟩ := fst_add.mp h
  have hfound := (find?_add h r.principal).trans (if_pos rfl)
  have hsnd : (t.add r).2 =
      ⟨t.byPrincipal.insert r.principal r, t.byAclKey.insert r.aclKey r.principal⟩ := by
    unfold add at h ⊢
    split at h
    · cases h
    · rename_i hfree
      rw [if_neg hfree]
  unfold remove
  rw [hfound, hsnd]
  refine Prod.ext rfl (Directory.ext ?_ ?_)
  · apply Std.ExtTreeMap.ext_getElem?
    intro p
    simp only [Std.ExtTreeMap.getElem?_erase, Std.ExtTreeMap.getElem?_insert,
      Std.LawfulEqOrd.compare_eq_iff_eq]
    split
    · rename_i hp
      exact hp ▸ hprincipal.symm
    · rfl
  · apply Std.ExtTreeMap.ext_getElem?
    intro key
    simp only [Std.ExtTreeMap.getElem?_erase, Std.ExtTreeMap.getElem?_insert,
      Std.LawfulEqOrd.compare_eq_iff_eq]
    split
    · rename_i hk
      exact hk ▸ hkey.symm
    · rfl

namespace Naming

/-- A registration binds a name to an identifier that it was given, or fails and binds
none. -/
theorem comes_registerFrom (retry : Retry.Policy) (o : NewObject) :
    ∀ (left attempt : Nat) (id : Identifier), F id →
      (registerFrom retry o attempt id left).Comes F (fun r b' =>
        ∃ out : Outcome, r = .ok out ∧ Registered o b b' out.result ∧
          ∀ id, out.result = .ok id → F id) b
  | 0, _, _, _ => ⟨_, rfl, rfl, fun _ h => by cases h⟩
  | left + 1, attempt, id, hid => by
    have hnone : ∀ {e : ServiceError} (id : Identifier), Except.error e = .ok id → F id :=
      fun _ h => by cases h
    unfold registerFrom
    refine comes_attemptStep ?_
    rintro _ b' ((⟨reservations, hins, rfl, hb⟩ | ⟨hins, rfl, hb⟩) | ⟨-, ⟨e, rfl⟩, hb⟩) -
    · rw [o.reservation_id]
      exact comes_say ⟨_, rfl, ⟨reservations, hins, hb⟩, fun _ h => Except.ok.inj h ▸ hid⟩
    · rw [hb]
      refine comes_say ?_
      split
      · exact ⟨_, rfl, rfl, hnone⟩
      · refine comes_attemptStep ?_
        rintro next b' (hb | ⟨hunsure, -⟩) hnext
        · rw [show b' = b from hb]
          cases next with
          | error e => exact ⟨_, rfl, rfl, hnone⟩
          | ok id =>
            have hid : F id := hnext id List.mem_cons_self
            dsimp only
            split
            · refine comes_perform_sure not_false ?_
              rintro _ b' ⟨rfl, hb⟩
              rw [hb]
              exact ⟨(), rfl, comes_registerFrom retry o left _ id hid⟩
            · exact comes_registerFrom retry o left _ id hid
        · exact hunsure.elim
    · exact ⟨_, rfl, hb, hnone⟩

theorem comes_register (retry : Retry.Policy) (o : NewObject) {id : Identifier} (hid : F id) :
    (register retry o id).Comes F (fun r b' =>
      ∃ out : Outcome, r = .ok out ∧ Registered o b b' out.result ∧
        ∀ id, out.result = .ok id → F id) b :=
  comes_registerFrom retry o _ _ id hid

theorem comes_releaseIds (ids : List Identifier) :
    (releaseIds ids).Comes F (fun r b' => r = .ok () ∧
      b' = b.withReservations (Reservations.deleteIds ids b.tables.reservations).2) b := by
  unfold releaseIds
  refine comes_perform_sure not_false ?_
  rintro _ _ ⟨rfl, rfl⟩
  refine ⟨_, rfl, ?_⟩
  split
  · exact comes_say_last ⟨rfl, rfl⟩
  · exact ⟨rfl, rfl⟩

end Naming

namespace Authorization

variable {owner : Principal} {n : NewPrincipal} {r : Registration}

/-- What comes of registering a principal where calls may fail. It can be left without what
its owner is given. -/
def Attempted (owner : Principal) (r : Registration) (b : Books) :
    Except ServiceError Bool → Books → Prop
  | .ok true, b' => (b.tables.directory.add r).1 = true ∧
    b' = ⟨b.tables.created owner r, b.trail ++ [creation owner r]⟩
  | .ok false, b' => b' = b
  | .error _, b' => b' = b ∨
    (b.tables.directory.add r).1 = true ∧ b' = b.withDirectory (b.tables.directory.add r).2

theorem comes_createIfAbsent (owner : Principal) (r : Registration) :
    (createIfAbsent owner r).Comes F (Attempted owner r b) b := by
  unfold createIfAbsent
  refine comes_perform ?_ ?_
  · rintro isNew _ (⟨hnew, rfl⟩ | ⟨-, ⟨e, he⟩, -⟩) -
    · have hnew : (b.tables.directory.add r).1 = isNew := (Except.ok.inj hnew).symm
      cases isNew with
      | false =>
        rw [Directory.add_of_fst_eq_false hnew]
        exact (rfl : b = b)
      | true =>
        refine comes_perform ?_ ?_
        · rintro _ _ (⟨-, rfl⟩ | ⟨-, ⟨e, he⟩, -⟩) -
          · refine comes_perform_sure not_false ?_
            rintro _ _ ⟨rfl, rfl⟩
            exact ⟨(), rfl, comes_say ⟨hnew, rfl⟩⟩
          · cases he
        · rintro _ _ (⟨he, -⟩ | ⟨-, -, rfl⟩)
          · cases he
          · exact .inr ⟨hnew, rfl⟩
    · cases he
  · rintro _ _ (⟨he, -⟩ | ⟨-, -, rfl⟩)
    · cases he
    · exact .inl rfl

/-- What a failed creation left behind is undone, and the books are as they were before
the name was reserved. -/
theorem comes_discard {reservation : Reservation} {reservations : Reservations}
    (habsent : b.tables.directory.find? r.principal = none)
    (hins : b.tables.reservations.insert? reservation = some reservations)
    (hb : b' = b.withReservations reservations ∨ (b.tables.directory.add r).1 = true ∧
      b' = (b.withReservations reservations).withDirectory (b.tables.directory.add r).2) :
    (discard r reservation.id).Comes F (fun result b'' => result = .ok () ∧ b'' = b) b' := by
  -- on every path the release of the name comes last, and does not fail
  have hback : ∀ {next : Except ServiceError Unit → Procedure Unit}, next (.ok ()) = pure () →
      ((Naming.releaseIds [reservation.id]).attempt >>= next).Comes F
        (fun result b'' => result = .ok () ∧ b'' = b) (b.withReservations reservations) := by
    intro next hok
    refine comes_attempt (Naming.comes_releaseIds [reservation.id]) ?_
    rintro _ _ ⟨rfl, rfl⟩
    rw [hok]
    refine ⟨rfl, ?_⟩
    show b.withReservations (Reservations.deleteIds [reservation.id] reservations).2 = b
    rw [Reservations.deleteIds_insert hins]
    rfl
  unfold discard
  refine comes_attemptStep ?_
  rintro _ _ (⟨rfl, rfl⟩ | ⟨hunsure, -⟩) -
  · rcases hb with rfl | ⟨hnew, rfl⟩
    · rw [show (b.withReservations reservations).tables.directory.find? r.principal = none from
        habsent]
      exact hback rfl
    · rw [show ((b.withReservations reservations).withDirectory
          (b.tables.directory.add r).2).tables.directory.find? r.principal = some r from
        (Directory.find?_add hnew r.principal).trans (if_pos rfl)]
      simp only [if_true]
      refine comes_attemptStep ?_
      rintro _ _ (⟨rfl, rfl⟩ | ⟨hunsure, -⟩) -
      · rw [show ((b.withReservations reservations).withDirectory
            (b.tables.directory.add r).2).tables.directory.remove r.principal = _ from
          Directory.remove_add hnew]
        exact hback rfl
      · exact hunsure.elim
  · exact hunsure.elim

/-! ### Creating a principal -/

/-- A principal is created as a whole, with an identifier that was given, or nothing is
changed. -/
theorem comes_createPrincipal (retry : Retry.Policy) (owner : Principal) (n : NewPrincipal) :
    (createPrincipal retry owner n).Comes F (fun
      | .ok r, b' => Created owner n b b' r ∧ F r.id
      | .error _, b' => b' = b) b := by
  unfold createPrincipal
  refine comes_perform_sure not_false ?_
  rintro _ b₁ ⟨rfl, hb⟩
  rw [hb]
  refine ⟨_, rfl, ?_⟩
  cases habsent : b.tables.directory.find? n.principal with
  | some r => exact (rfl : b = b)
  | none =>
    refine comes_perform ?_ ?_
    · rintro first b₁ (hb | ⟨hunsure, -⟩) hfirst
      · rw [show b₁ = b from hb]
        refine comes_bind (Naming.comes_register retry n.object
          (hfirst first List.mem_cons_self)) ?_ ?_
        · rintro out b₁ ⟨_, hout, hreg, hfree⟩
          obtain rfl := Except.ok.inj hout
          cases hresult : out.result with
          | error e =>
            rw [hresult] at hreg
            exact hreg
          | ok id =>
            rw [hresult] at hreg
            obtain ⟨reservations, hins, rfl⟩ := hreg
            have hid : (n.object.reservation id).id = id := n.object.reservation_id id
            refine comes_attempt (comes_createIfAbsent owner (n.registration id)) ?_
            rintro result b₁ hmade
            match result with
            | .ok true =>
              obtain ⟨hnew, rfl⟩ := hmade
              refine ⟨⟨id, reservations, rfl, hins, hnew, rfl⟩, ?_⟩
              rw [show (n.registration id).id = id from hid]
              exact hfree id hresult
            | .ok false =>
              -- the name was reserved for nobody, and is given back
              obtain rfl := hmade
              refine comes_bind (Naming.comes_releaseIds [id]) ?_ ?_
              · rintro _ _ ⟨-, rfl⟩
                have hback := Reservations.deleteIds_insert hins
                rw [hid] at hback
                show b.withReservations (Reservations.deleteIds [id] reservations).2 = b
                rw [hback]
                rfl
              · rintro _ _ ⟨he, -⟩
                cases he
            | .error e =>
              have hundone := comes_discard (F := F) habsent hins hmade
              rw [hid] at hundone
              refine comes_bind hundone ?_ ?_
              · rintro _ _ ⟨-, rfl⟩
                exact (rfl : _ = _)
              · rintro _ _ ⟨he, -⟩
                cases he
        · rintro _ _ ⟨_, he, -⟩
          cases he
      · exact hunsure.elim
    · rintro e b₁ (hb | ⟨hunsure, -⟩)
      · exact hb
      · exact hunsure.elim

/-! ### What a creation comes to -/

/-- What a creation has made of the tables: one registration, one reservation, and what the
owner is given. -/
structure Established (owner : Principal) (n : NewPrincipal) (t t' : Tables) (r : Registration) :
    Prop where
  /-- The key is the path of what the principal lies in, and then its identifier. -/
  key : r.aclKey.ids = n.path ++ [r.id]
  described : r.principal = n.principal ∧ r.title = n.title ∧ r.description = n.description
  /-- Nobody was registered as the principal or at the key. -/
  absent : t.directory.find? n.principal = none ∧ t.directory.findAt? r.aclKey = none
  /-- Neither the name nor the identifier was bound. -/
  unbound : t.reservations.idOf? n.principal.toText = none ∧ t.reservations.find? r.id = none
  found : t'.directory.find? n.principal = some r ∧ t'.directory.findAt? r.aclKey = some r
  bound : t'.reservations.idOf? n.principal.toText = some r.id ∧
    t'.reservations.find? r.id =
      some ⟨r.aclKey, .ofPrincipal n.principal.kind, r.id, n.principal.toText⟩
  owned : ∃ v, t'.permissions.find? ⟨r.aclKey, owner⟩ = some v ∧
    (∀ x, v.permissions.contains x = true) ∧ Instant.neverExpires ≤ v.expiration
  otherPrincipals : ∀ p, p ≠ n.principal → t'.directory.find? p = t.directory.find? p
  otherKeys : ∀ key, key ≠ r.aclKey → t'.directory.findAt? key = t.directory.findAt? key
  otherNames : ∀ name, name ≠ n.principal.toText →
    t'.reservations.idOf? name = t.reservations.idOf? name
  otherIds : ∀ id, id ≠ r.id → t'.reservations.find? id = t.reservations.find? id
  otherEntries : ∀ k, k ≠ ⟨r.aclKey, owner⟩ → t'.permissions.find? k = t.permissions.find? k
  memberships : t'.memberships = t.memberships
  cursors : t'.cursors = t.cursors

theorem granted_full (old : Option Entry.Value) (kind : ObjectKind) :
    (∀ x, (Entry.Value.granted old .full kind .neverExpires).permissions.contains x = true) ∧
      Instant.neverExpires ≤ (Entry.Value.granted old .full kind .neverExpires).expiration := by
  cases old with
  | none => exact ⟨PermissionSet.contains_full, .inr ⟨rfl, Nat.le_refl _⟩⟩
  | some v =>
    refine ⟨fun x => ?_, Instant.le_later v.expiration .neverExpires⟩
    show (v.permissions.union .full).contains x = true
    rw [PermissionSet.contains_union, PermissionSet.contains_full, Bool.or_true]

theorem Created.established (hb : b.tables.directory.Consistent) (h : Created owner n b b' r) :
    Established owner n b.tables b'.tables r := by
  obtain ⟨id, reservations, rfl, hins, hnew, rfl⟩ := h
  have hid : (n.registration id).id = id := n.object.reservation_id id
  have hreservation : n.object.reservation id = ⟨(n.registration id).aclKey,
      .ofPrincipal n.principal.kind, id, n.principal.toText⟩ :=
    Reservation.ext rfl rfl (n.object.reservation_id id) rfl
  rw [hreservation] at hins
  obtain ⟨⟨hname, hfree⟩, -⟩ := Reservations.insert?_eq_some hins
  obtain ⟨hprincipal, hkey⟩ := Directory.fst_add.mp hnew
  have hentry := Permissions.find?_mergeOne .full (.ofPrincipal (n.registration id).principal.kind)
    .neverExpires b.tables.permissions ⟨(n.registration id).aclKey, owner⟩
  exact {
    key := by rw [hid]; rfl
    described := ⟨rfl, rfl, rfl⟩
    absent := ⟨hprincipal, by rw [Directory.findAt?, hkey]; rfl⟩
    unbound := ⟨hname, hid.symm ▸ hfree⟩
    found := ⟨(Directory.find?_add hnew _).trans (if_pos rfl),
      (Directory.findAt?_add hb hnew _).trans (if_pos rfl)⟩
    bound := by
      rw [hid]
      exact ⟨(Reservations.idOf?_insert hins _).trans (if_pos rfl),
        (Reservations.find?_insert hins _).trans (if_pos rfl)⟩
    owned := ⟨_, (hentry _).trans (if_pos rfl), granted_full _ _⟩
    otherPrincipals := fun p hp => (Directory.find?_add hnew p).trans (if_neg (Ne.symm hp))
    otherKeys := fun key hk => (Directory.findAt?_add hb hnew key).trans (if_neg (Ne.symm hk))
    otherNames := fun name hne => (Reservations.idOf?_insert hins name).trans (if_neg (Ne.symm hne))
    otherIds := fun x hx => (Reservations.find?_insert hins x).trans
      (if_neg (hid ▸ Ne.symm hx))
    otherEntries := fun k hk => (hentry k).trans (if_neg (Ne.symm hk))
    memberships := rfl
    cursors := rfl }

/-- **A creation is made as a whole or not at all.** Wherever operations and changes of the tables
have led, and whatever is out of service but what undoes a creation, one that fails leaves the
tables and the trail exactly as they were: because the principal is there already, or its key,
because there is no identifier for it, because its name is taken each time, or because its owner
cannot be given what is due. One that succeeds adds the principal under an identifier that was not
bound, and one event, and changes nothing else. If nothing reserved waited at a desk before the
operations, the identifier is not reserved, and nothing reserved waits there afterwards. -/
theorem creation_is_all_or_nothing (before : State) (ops : List Operation)
    {changes : List Tables.Change} (hs : (before.after ops).Mends)
    (htables : (before.after ops).tables = .after changes) (retry : Retry.Policy)
    (owner : Principal) (n : NewPrincipal) :
    let s := before.after ops
    let result := (createPrincipal retry owner n).run.perform s
    (∀ e, result.1 = .error e → result.2.tables = s.tables ∧ result.2.trail = s.trail) ∧
      (∀ r, result.1 = .ok r → Established owner n s.tables result.2.tables r ∧
        result.2.trail = s.trail ++ [.principalCreated r.principal r.aclKey owner r.title]) ∧
      (before.Clear → (∀ elsewhere, .meanwhile elsewhere ∈ ops → elsewhere.Clear) →
        result.2.Clear ∧ ∀ r, result.1 = .ok r → ¬ r.id.IsReserved) := by
  intro s result
  have hcomes := (comes_createPrincipal (F := fun id =>
    .ok id ∈ (createPrincipal retry owner n).answers s) (b := s.books) retry owner n).run hs
    fun _ hid => hid
  have hconsistent : s.books.tables.directory.Consistent := by
    rw [show s.books.tables = .after changes from htables]
    exact Tables.consistent_directory_after changes
  refine ⟨fun e he => ?_, fun r hr => ?_, fun hbefore hops => ?_⟩
  · rw [show ((createPrincipal retry owner n).run.perform s).1 = _ from he] at hcomes
    exact ⟨congrArg Books.tables hcomes, congrArg Books.trail hcomes⟩
  · rw [show ((createPrincipal retry owner n).run.perform s).1 = _ from hr] at hcomes
    obtain ⟨hcreated, -⟩ := hcomes
    refine ⟨hcreated.established hconsistent, ?_⟩
    obtain ⟨_, _, -, -, -, hbooks⟩ := hcreated
    exact congrArg Books.trail hbooks
  · have hclear : s.Clear := State.clear_after ops hbefore hops
    obtain ⟨hafter, hfree⟩ := (createPrincipal retry owner n).clear_run hclear
    refine ⟨hafter, fun r hr => hfree r.id ?_⟩
    rw [show ((createPrincipal retry owner n).run.perform s).1 = _ from hr] at hcomes
    exact hcomes.2

/-- Alice cannot be created while nothing can be granted, and nothing is left of it. As soon as
grants work she is created, with the identifier that comes next. -/
theorem created_at_the_second_try :
    let alice : NewPrincipal := ⟨⟨.user, "alice"⟩, "Alice", "", none⟩
    let create := (createPrincipal (.immediate 1) Standard.systemPrincipal alice).run
    let s : State :=
      { State.start { mode := .random } ⟨0, 0⟩ with outages := [(.merge, ⟨0, some 1⟩)] }
    ∃ e s' r s'', create.perform s = (.error e, s') ∧ s'.tables = s.tables ∧ s'.trail = [] ∧
      create.perform s' = (.ok r, s'') ∧ r.id = .ofRandomBits 1 ∧ ¬ r.id.IsReserved ∧
      Established Standard.systemPrincipal alice s'.tables s''.tables r ∧
      s''.trail = [.principalCreated r.principal r.aclKey Standard.systemPrincipal r.title] := by
  intro alice create s
  have hstart : s.tables = .after [] := rfl
  have hfails : (create.perform s).1.toOption.isNone = true := by decide +kernel
  have hmends' : (create.perform s).2.storage = .memory ∧
      ∀ c ∈ Call.undoing, c ∉ (create.perform s).2.outages.map Prod.fst := by decide +kernel
  have hworks : ((create.perform (create.perform s).2).1.toOption.map Registration.id) =
      some (.ofRandomBits 1) := by decide +kernel
  obtain ⟨hfailed, -⟩ := creation_is_all_or_nothing s [] ⟨rfl, by decide⟩ hstart
    (.immediate 1) Standard.systemPrincipal alice
  rcases hfirst : create.perform s with ⟨e | r, s'⟩
  · rw [hfirst] at hmends' hworks
    have hafter : s.after [.create (.immediate 1) Standard.systemPrincipal alice] = s' :=
      (Action.snd_perform_discard create s).trans (congrArg Prod.snd hfirst)
    have hleft := hfailed e (congrArg Prod.fst hfirst)
    rw [show (createPrincipal (.immediate 1) Standard.systemPrincipal alice).run.perform
      (s.after []) = _ from hfirst] at hleft
    obtain ⟨htables, htrail⟩ := hleft
    have hcreated := creation_is_all_or_nothing s
      [.create (.immediate 1) Standard.systemPrincipal alice] (hafter ▸ ⟨hmends'.1, hmends'.2⟩)
      (hafter ▸ htables.trans hstart) (.immediate 1) Standard.systemPrincipal alice
    rw [hafter] at hcreated
    obtain ⟨-, hcreated, hfree⟩ := hcreated
    rcases hsecond : create.perform s' with ⟨e' | r, s''⟩
    · rw [hsecond] at hworks
      cases hworks
    · rw [hsecond] at hworks
      obtain ⟨hestablished, hevent⟩ := hcreated r (congrArg Prod.fst hsecond)
      obtain ⟨-, hfree⟩ := hfree (State.clear_start { mode := .random } ⟨0, 0⟩) (by simp)
      rw [show (createPrincipal (.immediate 1) Standard.systemPrincipal alice).run.perform s' = _
        from hsecond] at hestablished hevent
      refine ⟨e, s', r, s'', rfl, htables, htrail, hsecond, Option.some.inj hworks,
        hfree r (congrArg Prod.fst hsecond), hestablished, ?_⟩
      rw [hevent, htrail]
      rfl
  · rw [hfirst] at hfails
    cases hfails

end Authorization
end AccessRegistry
