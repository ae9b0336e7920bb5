/-
# The tables hang together

The directory, the memberships and the reservations speak of the same objects. What joins them
is that an identifier belongs to one key only: on no table it is assigned to two. Among the
operations on principals and names only a creation assigns an identifier, and that one was
asked for; all others, the bootstrap included, assign nothing that was not assigned before, for
the identifiers of the standard principals are reserved for them. So if no identifier is issued
twice, and no reserved one, all the tables agree, and whoever is removed takes no reservation of
anybody else along.

Key definitions: `Tables.Assigns`, `Tables.Within`, `Tables.Assigned`, `Tables.Linked`,
`Sparing`, `Operation.Ordinary`, `State.issued`, `Authorization.ReleasesOwn`.
Key theorems: `Operation.Ordinary.sparing`, `Authorization.creation_cases`,
`State.assigned_after`, `State.stays_linked`.
-/
import AccessRegistry.Proofs.Operations
import AccessRegistry.Proofs.Stages

namespace AccessRegistry

namespace Tables

variable {t t' t'' : Tables} {id : Identifier} {key : AclKey}

/-- An identifier is assigned to a key: it is reserved for it, or it is the last one of the key
of somebody who is registered, or who is so after every bootstrap. -/
def Assigns (t : Tables) (id : Identifier) (key : AclKey) : Prop :=
  (∃ v, t.reservations.find? id = some v ∧ v.aclKey = key) ∨
    key.leaf = id ∧ (t.directory.Knows key ∨ ∃ r ∈ Standard.all, r.aclKey = key)

/-- Some tables assign nothing that others do not. -/
def Within (t' t : Tables) : Prop := ∀ id key, t'.Assigns id key → t.Assigns id key

theorem Within.refl (t : Tables) : t.Within t := fun _ _ h => h

theorem Within.trans (h' : t''.Within t') (h : t'.Within t) : t''.Within t :=
  fun id key ha => h id key (h' id key ha)

theorem assigns_standard {r : Registration} (h : r ∈ Standard.all) : t.Assigns r.id r.aclKey :=
  .inr ⟨rfl, .inr ⟨r, h, rfl⟩⟩

theorem assigns_registered {p : Principal} {r : Registration}
    (h : t.directory.find? p = some r) : t.Assigns r.id r.aclKey :=
  .inr ⟨rfl, .inl ⟨p, r, h, rfl⟩⟩

/-- A change of the reservations assigns what it reserves, and nothing else. -/
theorem assigns_naming {c : Reservations.Change}
    (h : ({ t with reservations := c.apply t.reservations } : Tables).Assigns id key) :
    t.Assigns id key ∨ ∃ v, c = .reserve v ∧ v.id = id ∧ v.aclKey = key := by
  rcases h with ⟨v, hv, rfl⟩ | h
  · rcases Reservations.reserved_of_apply hv with hold | ⟨rfl, hid⟩
    · exact .inl (.inl hold)
    · exact .inr ⟨v, rfl, hid, rfl⟩
  · exact .inl (.inr h)

/-- A change of the directory assigns what it adds, and nothing else. -/
theorem assigns_directory {c : Directory.Change}
    (h : ({ t with directory := c.apply t.directory } : Tables).Assigns id key) :
    t.Assigns id key ∨ ∃ r, c = .add r ∧ r.id = id ∧ r.aclKey = key := by
  rcases h with hreserved | ⟨hleaf, hknown | hstandard⟩
  · exact .inl (.inl hreserved)
  · rcases Directory.knows_of_apply hknown with hold | ⟨r, rfl, rfl⟩
    · exact .inl (.inr ⟨hleaf, .inl hold⟩)
    · exact .inr ⟨r, rfl, hleaf, rfl⟩
  · exact .inl (.inr ⟨hleaf, .inr hstandard⟩)

theorem within_of_eq (hreservations : t'.reservations = t.reservations)
    (hdirectory : t'.directory = t.directory) : t'.Within t := by
  intro id key h
  unfold Assigns at h ⊢
  rwa [hreservations, hdirectory] at h

theorem within_naming {c : Reservations.Change} (hc : ∀ v, c ≠ .reserve v) :
    ({ t with reservations := c.apply t.reservations } : Tables).Within t := by
  intro id key h
  rcases assigns_naming h with hold | ⟨v, hv, -⟩
  · exact hold
  · exact absurd hv (hc v)

theorem within_directory {c : Directory.Change} (hc : ∀ r, c ≠ .add r) :
    ({ t with directory := c.apply t.directory } : Tables).Within t := by
  intro id key h
  rcases assigns_directory h with hold | ⟨r, hr, -⟩
  · exact hold
  · exact absurd hr (hc r)

end Tables

/-! ### What assigns nothing -/

/-- A computation assigns no identifier anew, whether it fails or not. -/
def Sparing {ε α : Type} (x : ExceptT ε (StateM State) α) : Prop :=
  ∀ b, Ends x b fun _ b' => b'.tables.Within b.tables

section

variable {ε α β : Type} {x : ExceptT ε (StateM State) α} {f : α → ExceptT ε (StateM State) β}

theorem Idle.sparing (h : Idle x) : Sparing x := fun b =>
  (h b).mono fun _ _ hb => hb ▸ .refl b.tables

theorem sparing_bind (hx : Sparing x) (hf : ∀ a, Sparing (f a)) : Sparing (x >>= f) := fun b =>
  ends_bind (hx b) (fun a b' hb => (hf a b').mono fun _ _ hb' => hb'.trans hb) fun _ _ hb => hb

theorem Idle.sparing_bind (hx : Idle x) (hf : ∀ a, Sparing (f a)) : Sparing (x >>= f) :=
  AccessRegistry.sparing_bind hx.sparing hf

theorem sparing_change (c : Call) {g : Tables → α × Tables} (h : ∀ t, (g t).2.Within t) :
    Sparing (do Action.callRecords c; Action.change g) := fun b =>
  (Action.gives_change c g).ends (h b.tables)

theorem sparing_change_of_eq (c : Call) {g : Tables → α × Tables}
    (h : ∀ t, (g t).2.reservations = t.reservations ∧ (g t).2.directory = t.directory) :
    Sparing (do Action.callRecords c; Action.change g) :=
  sparing_change c fun t => Tables.within_of_eq (h t).1 (h t).2

theorem sparing_record (e : AuditEvent) : Sparing (Action.record e) := fun b =>
  (Action.gives_record e).ends (.refl b.tables)

end

namespace Naming

/-- To reserve a name for a standard principal assigns nothing. -/
theorem sparing_reserveWellKnown {v : Reservation}
    (hv : ∃ r ∈ Standard.all, r.id = v.id ∧ r.aclKey = v.aclKey) :
    Sparing (reserveWellKnown v) := by
  have hwithin : ∀ t : Tables, ({ t with
      reservations := (Reservations.Change.reserve v).apply t.reservations } :
        Tables).Within t := by
    intro t id key h
    rcases Tables.assigns_naming h with hold | ⟨v', hv', rfl, rfl⟩
    · exact hold
    · obtain ⟨r, hr, hid, hkey⟩ := hv
      obtain rfl := Reservations.Change.reserve.inj hv'
      exact hid ▸ hkey ▸ Tables.assigns_standard hr
  have hinsert : Sparing (Store.insertReservation v) := by
    intro b
    have hb := hwithin b.tables
    simp only [Reservations.Change.apply] at hb
    cases hins : b.tables.reservations.insert? v with
    | some reservations =>
      rw [hins, Option.getD_some] at hb
      exact (Store.gives_insertReservation_free hins).ends hb
    | none => exact (Store.gives_insertReservation_taken hins).ends (.refl b.tables)
  unfold reserveWellKnown
  refine sparing_bind hinsert fun bound => ?_
  split
  · exact (idle_pure ()).sparing
  · refine Idle.sparing_bind (Action.idle_records .findById fun t => t.reservations.find? v.id)
      fun found => ?_
    split
    · split
      · exact (idle_pure ()).sparing
      · exact (idle_throw _).sparing
    · exact (idle_throw _).sparing

theorem sparing_releaseIds (ids : List Identifier) : Sparing (releaseIds ids).run := fun _ =>
  (gives_releaseIds ids).ends (Tables.within_naming (c := .deleteIds ids) fun _ h => by cases h)

end Naming

namespace Authorization

theorem sparing_grant (key : AclKey) (p : Principal) (s : PermissionSet) (kind : ObjectKind)
    (expiration : Option Instant) : Sparing (grant key p s kind expiration) := fun b =>
  ends_grant (fun _ => .refl b.tables) fun _ => Tables.within_of_eq rfl rfl

theorem sparing_revoke (key : AclKey) (p : Principal) (s : PermissionSet) :
    Sparing (revoke key p s) := fun b =>
  ends_revoke (fun _ => .refl b.tables) fun _ => Tables.within_of_eq rfl rfl

theorem sparing_updateKind (k : Entry.Key) (kind : ObjectKind) : Sparing (updateKind k kind) := by
  unfold updateKind
  refine sparing_bind (sparing_change_of_eq _ fun _ => ⟨rfl, rfl⟩) fun found => ?_
  split
  · exact (idle_pure ()).sparing
  · exact (idle_throw _).sparing

/-- Who is registered is so under their own identifier: no new one is assigned where a standard
principal comes back. -/
theorem sparing_createIfAbsent (owner : Principal) {r : Registration} (hr : r ∈ Standard.all) :
    Sparing (createIfAbsent owner r).run := by
  intro b
  refine (gives_createIfAbsent owner r).ends ?_
  split
  · intro id key h
    have hadd : ({ b.tables with
        directory := (Directory.Change.add r).apply b.tables.directory } :
          Tables).Assigns id key := h
    rcases Tables.assigns_directory hadd with hold | ⟨r', hr', rfl, rfl⟩
    · exact hold
    · obtain rfl := Directory.Change.add.inj hr'
      exact Tables.assigns_standard hr
  · exact .refl b.tables

theorem sparing_createStandard : ∀ {rs : List Registration}, (∀ r ∈ rs, r ∈ Standard.all) →
    Sparing (createStandard rs)
  | [], _ => (idle_pure 0).sparing
  | r :: rs, h => by
    have hr := h r List.mem_cons_self
    refine sparing_bind (Naming.sparing_reserveWellKnown ⟨r, hr, rfl, rfl⟩) fun _ => ?_
    refine sparing_bind (sparing_createIfAbsent _ hr) fun made => ?_
    refine sparing_bind (sparing_createStandard fun r' hr' => h r' (List.mem_cons_of_mem r hr'))
      fun count => ?_
    exact (idle_pure _).sparing

theorem sparing_addMember (child parent : AclKey) : Sparing (addMember child parent) := fun b =>
  ends_addMember (fun _ _ _ _ => Tables.within_of_eq rfl rfl) fun _ _ => .refl b.tables

theorem sparing_removeMember (child parent : AclKey) : Sparing (removeMember child parent) :=
  fun _ => (gives_removeMember child parent).ends (Tables.within_of_eq rfl rfl)

theorem sparing_updateTitle (p : Principal) (title : String) : Sparing (updateTitle p title) := by
  refine (idle_lookup p).sparing_bind fun r => ?_
  refine sparing_bind (sparing_change _ fun t => ?_) fun _ => (idle_pure ()).sparing
  exact Tables.within_directory (c := .retitle r.aclKey title) fun _ h => by cases h

theorem sparing_deletePrincipal (p : Principal) : Sparing (deletePrincipal p) := by
  refine (idle_lookup p).sparing_bind fun r => ?_
  refine sparing_bind (sparing_change_of_eq _ fun _ => ⟨rfl, rfl⟩) fun edges => ?_
  refine sparing_bind (sparing_change_of_eq _ fun _ => ⟨rfl, rfl⟩) fun held => ?_
  refine sparing_bind (sparing_change_of_eq _ fun _ => ⟨rfl, rfl⟩) fun on => ?_
  have hremove : Sparing (Store.deletePrincipal p) :=
    sparing_change _ fun t => Tables.within_directory (c := .remove p) fun _ h => by cases h
  refine sparing_bind hremove fun _ => ?_
  exact sparing_bind (Naming.sparing_releaseIds [r.id]) fun _ => sparing_record _

theorem sparing_bootstrap : Sparing bootstrap :=
  sparing_bind (sparing_createStandard fun _ h => h) fun _ =>
    sparing_bind (sparing_addMember _ _) fun _ => (Action.idle_say _ _ _ _).sparing

end Authorization

namespace Operation

/-- The operations by which principals and their names are kept, and whatever leaves the records
alone. -/
def Ordinary : Operation → Prop
  | bootstrap | create _ _ _ | delete _ | grant _ _ _ _ _ | revoke _ _ _ | addMember _ _
  | removeMember _ _ | updateTitle _ _ | updateKind _ _ | rename _ _ | renameById _ _
  | releaseIds _ | releaseNames _ | meanwhile _ => True
  | o => o.Asks

/-- A principal is to be created. -/
def Creates : Operation → Prop
  | create _ _ _ => True
  | _ => False

theorem sparing_naming {o : Operation} {c : Reservations.Change} (h : o.naming? = some c) :
    Sparing o.action := by
  intro b
  refine (ends_naming h b).mono fun _ b' hb => ?_
  subst hb
  refine Tables.within_naming fun v hv => ?_
  subst hv
  cases o <;> cases h

/-- Of the ordinary operations only creations assign identifiers. -/
theorem Ordinary.sparing {o : Operation} (h : o.Ordinary) (hcreates : ¬ o.Creates) :
    Sparing o.action := by
  have hasks : ∀ {o : Operation}, o.Asks → Sparing o.action := fun ho => ho.idle.sparing
  cases o with
  | bootstrap => exact Authorization.sparing_bootstrap
  | create => exact absurd trivial hcreates
  | delete p => exact Authorization.sparing_deletePrincipal p
  | grant key p s kind expiration => exact Authorization.sparing_grant key p s kind expiration
  | revoke key p s => exact Authorization.sparing_revoke key p s
  | addMember child parent => exact Authorization.sparing_addMember child parent
  | removeMember child parent => exact Authorization.sparing_removeMember child parent
  | updateTitle p title => exact Authorization.sparing_updateTitle p title
  | updateKind k kind => exact Authorization.sparing_updateKind k kind
  | rename => exact sparing_naming rfl
  | renameById => exact sparing_naming rfl
  | releaseIds => exact sparing_naming rfl
  | releaseNames => exact sparing_naming rfl
  | meanwhile elsewhere =>
    rintro b s hs rfl
    exact ⟨⟨hs.storage, hs.outages⟩, Tables.within_of_eq rfl rfl⟩
  | _ => exact hasks h

/-- The identifiers that are issued while a principal is created. -/
def issued (s : State) : Operation → List Identifier
  | create retry owner n =>
    ((Authorization.createPrincipal retry owner n).answers s).filterMap Except.toOption
  | _ => []

end Operation

/-- The identifiers that are issued during a sequence of operations. -/
def State.issued (s : State) : List Operation → List Identifier
  | [] => []
  | o :: ops => o.issued s ++ (o.action.perform s).2.issued ops

theorem Authorization.NewPrincipal.registration_inj (n : NewPrincipal) {id same : Identifier}
    (h : n.registration id = n.registration same) : id = same := by
  have hleaf := congrArg Registration.id h
  rwa [show (n.registration id).id = id from AclKey.leaf_under n.path id,
    show (n.registration same).id = same from AclKey.leaf_under n.path same] at hleaf

/-- A creation assigns an identifier that it was given, or it leaves the books as they
were. -/
theorem Authorization.creation_cases {s : State} (hs : s.InMemory) (retry : Retry.Policy)
    (owner : Principal) (n : NewPrincipal) :
    ((createPrincipal retry owner n).run.perform s).2.books = s.books ∨
      ∃ id, .ok id ∈ (createPrincipal retry owner n).answers s ∧
        Created owner n s.books ((createPrincipal retry owner n).run.perform s).2.books
          (n.registration id) := by
  have hend := (ends_createPrincipal retry owner n s hs rfl).2
  -- the stage at the end has its identifier from a step that asked for it
  have hwaiting : Stage.waiting.IsGiven [] := fun id hid => by cases hid
  obtain ⟨x, hsettles, hgiven⟩ := (obeys_createPrincipal retry owner n).run
    (I := fun x answers _ => x.IsGiven answers) (fun hrule _ hx => hrule.isGiven hx) hs hwaiting
  cases hresult : ((createPrincipal retry owner n).run.perform s).1 with
  | error e =>
    have herror : (outcome (createPrincipal retry owner n).run s).1 = .error e := hresult
    rw [herror] at hend
    exact .inl hend
  | ok r =>
    have hok : (outcome (createPrincipal retry owner n).run s).1 = .ok r := hresult
    rw [hok] at hend
    rw [hresult] at hsettles
    obtain ⟨id, -, rfl, rfl⟩ := hsettles
    exact .inr ⟨id, hgiven id rfl, hend⟩

/-! ### Each identifier belongs to one key -/

namespace Tables

/-- Identifiers are assigned to keys that end with them; each of them was issued or is reserved,
and none is assigned twice. -/
structure Assigned (ids : List Identifier) (t : Tables) : Prop where
  leaf : ∀ {id key}, t.Assigns id key → key.leaf = id
  issued : ∀ {id key}, t.Assigns id key → id ∈ ids ∨ id.IsReserved
  unique : ∀ {id key key'}, t.Assigns id key → t.Assigns id key' → key = key'

variable {t t' : Tables} {ids : List Identifier}

/-- Where nothing is on the books, the standard principals have their identifiers. -/
theorem assigned_nil (hr : t.reservations = .empty) (hd : t.directory = .empty) :
    Assigned [] t := by
  have hstandard : ∀ {id key}, t.Assigns id key →
      ∃ r ∈ Standard.all, r.id = id ∧ r.aclKey = key := by
    rintro id key (⟨v, hv, -⟩ | ⟨hleaf, ⟨p, r, hp, -⟩ | ⟨r, hmem, rfl⟩⟩)
    · rw [hr] at hv
      simp [Reservations.find?, Reservations.empty] at hv
    · rw [hd] at hp
      simp [Directory.find?, Directory.empty] at hp
    · exact ⟨r, hmem, hleaf, rfl⟩
  have hreserved : ∀ r ∈ Standard.all, r.id.IsReserved := by decide
  have hdistinct : ∀ r ∈ Standard.all, ∀ r' ∈ Standard.all, r.id = r'.id →
      r.aclKey = r'.aclKey := by decide
  constructor
  · intro id key h
    obtain ⟨r, -, rfl, rfl⟩ := hstandard h
    rfl
  · intro id key h
    obtain ⟨r, hmem, rfl, -⟩ := hstandard h
    exact .inr (hreserved r hmem)
  · intro id key key' h h'
    obtain ⟨r, hmem, rfl, rfl⟩ := hstandard h
    obtain ⟨r', hmem', hid, rfl⟩ := hstandard h'
    exact hdistinct r hmem r' hmem' hid.symm

theorem Assigned.mono (h : t.Assigned ids) (hwithin : t'.Within t) (more : List Identifier) :
    t'.Assigned (ids ++ more) where
  leaf ha := h.leaf (hwithin _ _ ha)
  issued ha := (h.issued (hwithin _ _ ha)).imp_left (List.mem_append_left more)
  unique ha ha' := h.unique (hwithin _ _ ha) (hwithin _ _ ha')

/-- An identifier that is neither reserved nor issued before can be assigned to a key that ends
with it. -/
theorem Assigned.assign {id : Identifier} {key : AclKey} {more : List Identifier}
    (h : t.Assigned ids) (hleaf : key.leaf = id) (hmore : id ∈ more) (hnew : id ∉ ids)
    (hfree : ¬ id.IsReserved)
    (hassigns : ∀ {id' key'}, t'.Assigns id' key' → t.Assigns id' key' ∨ id' = id ∧ key' = key) :
    t'.Assigned (ids ++ more) := by
  have hnone : ∀ key', ¬ t.Assigns id key' := fun key' ha => (h.issued ha).elim hnew hfree
  constructor
  · intro id' key' ha
    rcases hassigns ha with hold | ⟨rfl, rfl⟩
    · exact h.leaf hold
    · exact hleaf
  · intro id' key' ha
    rcases hassigns ha with hold | ⟨rfl, rfl⟩
    · exact (h.issued hold).imp_left (List.mem_append_left more)
    · exact .inl (List.mem_append_right ids hmore)
  · intro id' key' key'' ha ha'
    rcases hassigns ha with hold | ⟨rfl, rfl⟩ <;> rcases hassigns ha' with hold' | ⟨hid, rfl⟩
    · exact h.unique hold hold'
    · exact absurd (hid ▸ hold) (hnone key')
    · exact absurd hold' (hnone key'')
    · rfl

/-- A creation assigns the identifier of the principal to its key. -/
theorem assigns_created {owner : Principal} {n : Authorization.NewPrincipal} {b b' : Books}
    {id id' : Identifier} {key : AclKey}
    (h : Authorization.Created owner n b b' (n.registration id))
    (ha : b'.tables.Assigns id' key) :
    b.tables.Assigns id' key ∨ id' = id ∧ key = (n.registration id).aclKey := by
  obtain ⟨same, reservations, hsame, hins, -, rfl⟩ := h
  obtain rfl := n.registration_inj hsame
  have hadd : ({ ({ b.tables with reservations } : Tables) with
      directory := (Directory.Change.add (n.registration id)).apply b.tables.directory } :
      Tables).Assigns id' key := ha
  rcases assigns_directory hadd with hreserve | ⟨r, hr, rfl, rfl⟩
  · have hreserve' : ({ b.tables with reservations :=
        (Reservations.Change.reserve (n.object.reservation id)).apply b.tables.reservations } :
        Tables).Assigns id' key := by
      rwa [Reservations.Change.apply, hins, Option.getD_some]
    rcases assigns_naming hreserve' with hold | ⟨v, hv, rfl, rfl⟩
    · exact .inl hold
    · obtain rfl := Reservations.Change.reserve.inj hv
      exact .inr ⟨n.object.reservation_id id, rfl⟩
  · obtain rfl := Directory.Change.add.inj hr
    exact .inr ⟨AclKey.leaf_under n.path id, rfl⟩

end Tables

namespace State

theorem assigned_action {s : State} (hs : s.InMemory) {ids : List Identifier}
    (h : s.tables.Assigned ids) {o : Operation} (ho : o.Ordinary)
    (hnew : ∀ id ∈ o.issued s, id ∉ ids) (hfree : ∀ id ∈ o.issued s, ¬ id.IsReserved) :
    (o.action.perform s).2.tables.Assigned (ids ++ o.issued s) := by
  by_cases hcreates : o.Creates
  · cases o with
    | create retry owner n =>
      show (((discard (Authorization.createPrincipal retry owner n).run : Action Unit).perform
        s).2).tables.Assigned _
      rw [Action.snd_perform_discard]
      rcases Authorization.creation_cases hs retry owner n with hsame | ⟨id, hid, hcreated⟩
      · have htables := congrArg Books.tables hsame
        exact h.mono (Tables.within_of_eq (congrArg Tables.reservations htables)
          (congrArg Tables.directory htables)) _
      · have hissued : id ∈ (Operation.create retry owner n).issued s :=
          List.mem_filterMap.mpr ⟨.ok id, hid, rfl⟩
        exact h.assign (AclKey.leaf_under n.path id) hissued (hnew id hissued)
          (hfree id hissued) (Tables.assigns_created hcreated)
    | _ => exact hcreates.elim
  · exact h.mono (ho.sparing hcreates s.books s hs rfl).2 _

/-- No sequence of operations assigns an identifier to two keys, if no identifier is issued
twice and no reserved one. -/
theorem assigned_after : ∀ {ops : List Operation} {s : State} {ids : List Identifier},
    s.InMemory → s.tables.Assigned ids → (∀ o ∈ ops, o.Ordinary) →
    (ids ++ s.issued ops).Nodup → (∀ id ∈ s.issued ops, ¬ id.IsReserved) →
    (s.after ops).tables.Assigned (ids ++ s.issued ops)
  | [], s, ids, _, h, _, _, _ => h.mono (.refl s.tables) []
  | o :: ops, s, ids, hs, h, hops, hnodup, hfree => by
    have hs' := (o.orderly s.books s hs rfl).1
    have hsplit : ids ++ s.issued (o :: ops) =
        (ids ++ o.issued s) ++ (o.action.perform s).2.issued ops := (List.append_assoc ..).symm
    rw [hsplit] at hnodup ⊢
    have hnew : ∀ id ∈ o.issued s, id ∉ ids := fun id hid hold =>
      (List.nodup_append'.mp (List.nodup_append'.mp hnodup).1).2.2 hold hid
    have hone := assigned_action hs h (hops o List.mem_cons_self) hnew fun id hid =>
      hfree id (List.mem_append_left _ hid)
    exact assigned_after hs' hone (fun o' ho' => hops o' (List.mem_cons_of_mem o ho')) hnodup
      fun id hid => hfree id (List.mem_append_right _ hid)

end State

/-! ### How the tables are linked -/

/-- The tables of a registry agree with each other. -/
structure Tables.Linked (t : Tables) : Prop where
  /-- Both ends of every membership are keys at which principals are registered. -/
  memberships : ∀ a b, Graph.Leads t.memberships a b →
    (∃ r, t.directory.findAt? a = some r) ∧ ∃ r, t.directory.findAt? b = some r
  /-- The two sides of the directory are inverse to each other. -/
  directory : t.directory.Consistent
  /-- Nobody shares a key with anybody else. -/
  keys : ∀ p q r r', t.directory.find? p = some r → t.directory.find? q = some r' →
    r.aclKey = r'.aclKey → p = q
  /-- Nobody shares an identifier either, wherever their keys lie. -/
  ids : ∀ p q r r', t.directory.find? p = some r → t.directory.find? q = some r' →
    r.id = r'.id → p = q
  /-- Whatever name is reserved for the identifier of a principal is reserved for its key. -/
  reservations : ∀ p r v, t.directory.find? p = some r → t.reservations.find? r.id = some v →
    v.aclKey = r.aclKey

theorem Tables.Assigned.linked {t : Tables} {ids : List Identifier} (h : t.Assigned ids)
    (ht : t.Sound) : t.Linked := by
  have hkeys : ∀ p q r r', t.directory.find? p = some r → t.directory.find? q = some r' →
      r.aclKey = r'.aclKey → p = q := by
    intro p q r r' hp hq hkey
    have hat := (ht.directory.byPrincipal p r hp).2
    have hat' := (ht.directory.byPrincipal q r' hq).2
    rw [hkey, hat'] at hat
    exact (Option.some.inj hat).symm
  exact
    { memberships := fun a b hab =>
        ⟨(Directory.knows_iff ht.directory).mp (ht.known hab).1,
          (Directory.knows_iff ht.directory).mp (ht.known hab).2⟩
      directory := ht.directory
      keys := hkeys
      ids := fun p q r r' hp hq hid => by
        have hother : t.Assigns r.id r'.aclKey := hid ▸ assigns_registered hq
        exact hkeys p q r r' hp hq (h.unique (assigns_registered hp) hother)
      reservations := fun p r v hp hv => h.unique (.inl ⟨v, hv, rfl⟩) (assigns_registered hp) }

namespace Authorization

/-- The removal of a principal releases what is reserved for its own key, and nothing else. -/
structure ReleasesOwn (s : State) (p : Principal) : Prop where
  registered : ∀ r, s.tables.directory.find? p = some r →
    ∃ s', (deletePrincipal p).perform s = (.ok (), s') ∧ ∀ id,
      s'.tables.reservations.find? id =
        (s.tables.reservations.find? id).filter fun v => v.aclKey ≠ r.aclKey
  unregistered : s.tables.directory.find? p = none →
    ((deletePrincipal p).perform s).2.books = s.books

theorem releasesOwn {s : State} (hs : s.InMemory) {ids : List Identifier}
    (h : s.tables.Assigned ids) (p : Principal) : ReleasesOwn s p := by
  constructor
  · intro r hp
    obtain ⟨-, hvalue, hbooks⟩ := gives_deletePrincipal (b := s.books) hp s hs rfl
    refine ⟨(outcome (deletePrincipal p) s).2, Prod.ext hvalue rfl, fun id => ?_⟩
    have hreservations : (outcome (deletePrincipal p) s).2.tables.reservations =
        (Reservations.deleteIds [r.id] s.tables.reservations).2 :=
      congrArg (fun b : Books => b.tables.reservations) hbooks
    rw [hreservations, Reservations.find?_deleteIds]
    simp only [List.mem_singleton]
    cases hv : s.tables.reservations.find? id with
    | none => exact ite_self none
    | some v =>
      -- who has the identifier has the key, and the other way round
      have hassigns : s.tables.Assigns id v.aclKey := .inl ⟨v, hv, rfl⟩
      have hiff : id = r.id ↔ v.aclKey = r.aclKey := by
        constructor
        · rintro rfl
          exact h.unique hassigns (Tables.assigns_registered hp)
        · intro hkey
          rw [← h.leaf hassigns, hkey]
          rfl
      by_cases hid : id = r.id
      · rw [if_pos hid, Option.filter_some, if_neg (by simp [hiff.mp hid])]
      · rw [if_neg hid, Option.filter_some, if_pos (by simp [mt hiff.mpr hid])]
  · intro hp
    have hend : Ends (deletePrincipal p) s.books fun _ b' => b' = s.books := by
      refine ends_bind (ends_lookup_missing hp) ?_ ?_
      · rintro _ _ ⟨he, -⟩
        cases he
      · exact fun _ _ hb => hb.2
    exact (hend s hs rfl).2

end Authorization

/-- **The tables stay linked, whatever is done to principals and their names.** Wherever ordinary
operations lead from a state without records, the directory, the memberships and the reservations
agree, and the removal of a principal releases its own reservation only, if no identifier was
issued twice on the way, nor a reserved one. -/
theorem State.stays_linked {s : State} (h : s.Blank) (ops : List Operation)
    (hops : ∀ o ∈ ops, o.Ordinary) (hnodup : (s.issued ops).Nodup)
    (hfree : ∀ id ∈ s.issued ops, ¬ id.IsReserved) :
    (s.after ops).tables.Linked ∧ ∀ p, Authorization.ReleasesOwn (s.after ops) p := by
  have hblank : s.tables.Assigned [] := Tables.assigned_nil (h.tables ▸ rfl) (h.tables ▸ rfl)
  have hassigned := assigned_after h.toInMemory hblank hops hnodup hfree
  exact ⟨hassigned.linked (sound_after h ops), fun p =>
    Authorization.releasesOwn (advances_after ops h.toInMemory).1 hassigned p⟩

/-- Alice has a team below her, and is called Bob meanwhile, so that nobody can be created under
his name, however many identifiers are tried. Administrators go and come back. When Alice is
removed, the name that she has goes with her, and the one of the team stays. -/
theorem State.other_names_stay :
    let alice : Registration := ⟨.single (.ofRandomBits 0), ⟨.user, "alice"⟩, "Alice", ""⟩
    let team : Registration :=
      ⟨alice.aclKey.child (.ofRandomBits 1), ⟨.organization, "team"⟩, "Team", ""⟩
    let ops : List Operation := [
      .bootstrap,
      .create (.immediate 1) Standard.systemPrincipal ⟨alice.principal, "Alice", "", none⟩,
      .create (.immediate 1) alice.principal ⟨team.principal, "Team", "", some alice.aclKey⟩,
      .addMember alice.aclKey team.aclKey,
      .rename "user:alice" "user:bob",
      .create (.immediate 2) alice.principal ⟨⟨.user, "bob"⟩, "Bob", "", none⟩,
      .delete Standard.adminRole.principal,
      .bootstrap]
    ∃ s s' : State, s = (start { mode := .random } ⟨0, 0⟩).after ops ∧ s.tables.Linked ∧
      (Authorization.deletePrincipal alice.principal).perform s = (.ok (), s') ∧
      s.tables.reservations.idOf? "user:bob" = some alice.id ∧
      s'.tables.reservations.find? alice.id = none ∧
      (s'.tables.reservations.find? team.id).map Reservation.name = some "organization:team" := by
  intro alice team ops
  have hordinary : ∀ o ∈ ops, o.Ordinary := by
    intro o ho
    simp only [ops, List.mem_cons, List.not_mem_nil, or_false] at ho
    rcases ho with rfl | rfl | rfl | rfl | rfl | rfl | rfl | rfl <;> trivial
  have hissued : (start { mode := .random } ⟨0, 0⟩).issued ops =
      [.ofRandomBits 0, .ofRandomBits 1, .ofRandomBits 2, .ofRandomBits 3] := by decide +kernel
  have halice : ((start { mode := .random } ⟨0, 0⟩).after ops).tables.directory.find?
      alice.principal = some alice := by decide +kernel
  have hname : ((start { mode := .random } ⟨0, 0⟩).after ops).tables.reservations.idOf?
      "user:bob" = some alice.id := by decide +kernel
  have hown : ((start { mode := .random } ⟨0, 0⟩).after ops).tables.reservations.find?
      alice.id = some ⟨alice.aclKey, .principal, alice.id, "user:bob"⟩ := by decide +kernel
  have hother : ((start { mode := .random } ⟨0, 0⟩).after ops).tables.reservations.find?
      team.id = some ⟨team.aclKey, .organization, team.id, "organization:team"⟩ := by
    decide +kernel
  obtain ⟨hlinked, hreleases⟩ :=
    stays_linked (blank_start { mode := .random } ⟨0, 0⟩) ops hordinary
      (hissued ▸ by decide) (hissued ▸ by decide)
  obtain ⟨s', hperform, hleft⟩ := (hreleases alice.principal).registered alice halice
  refine ⟨_, s', rfl, hlinked, hperform, hname, ?_, ?_⟩
  · rw [hleft, hown]
    decide
  · rw [hleft, hother]
    decide

end AccessRegistry
