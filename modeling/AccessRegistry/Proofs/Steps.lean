/-
# Steps of the books

Whatever the services do to the records is made of a few kinds of steps, each of which is
recorded in the trail as it has to be: it is told by no event, or by one that says what
changed (`Tables.Step`). What a step says is all that it does, so that what each kind of
step keeps is kept by all services. An operation is *orderly* if it goes by such steps, and
*whole* if, besides, it leaves the books as they were when it fails.

Key definitions: `Tables.Step`, `Tables.Run`, `Tables.Sound`, `Books.Advances`, `Orderly`,
`Whole`.
Key theorems: `Tables.find?_without`, `Tables.sound_step`, `Tables.Run.keeps`, `Tables.sound_run`.
-/
import AccessRegistry.Proofs.Books
import AccessRegistry.Proofs.Graph.Edges
import AccessRegistry.Proofs.Permissions.Query
import AccessRegistry.Proofs.Reservations
import AccessRegistry.Proofs.Tables

namespace AccessRegistry
namespace Tables

/-- The tables without a principal: its memberships and members are gone, the entries that
it has and those on it, and its registration. -/
def without (t : Tables) (p : Principal) (key : AclKey) : Tables :=
  { t with
    memberships := (Memberships.removeAll t.memberships key).2
    permissions := ((t.permissions.deleteOf p).2.deleteOn key).2
    directory := (t.directory.remove p).2 }

/-- The entries that are left are those that the principal does not have and that are not on
it. -/
theorem find?_without {t : Tables} (h : t.permissions.Indexed) (p : Principal) (key : AclKey)
    (k : Entry.Key) : (t.without p key).permissions.find? k =
      if k.principal = p ∨ k.aclKey = key then none else t.permissions.find? k := by
  have hof := (Permissions.deleteOf_eq_filter h p).1 k
  have hindexed : (t.permissions.deleteOf p).2.Indexed := Permissions.indexed_apply h (.deleteOf p)
  refine ((Permissions.deleteOn_eq_filter hindexed key).1 k).trans ?_
  rw [hof]
  by_cases hp : k.principal = p <;> by_cases hk : k.aclKey = key <;> simp [hp, hk]

/-- What is recorded of the removal of a principal: how many memberships there were at its
key, how many entries it had, and how many of the others were on it. -/
def removal (t : Tables) (p : Principal) (key : AclKey) : AuditEvent :=
  .principalDeleted p key (Memberships.removeAll t.memberships key).1 (t.permissions.deleteOf p).1
    ((t.permissions.deleteOf p).2.deleteOn key).1

/-- The tables with a principal that is registered, and with every permission on it for its
owner. -/
def created (t : Tables) (owner : Principal) (r : Registration) : Tables :=
  { t with
    directory := (t.directory.add r).2
    permissions := Permissions.mergeOne .full (.ofPrincipal r.principal.kind) .neverExpires
      t.permissions ⟨r.aclKey, owner⟩ }

/-- One step, the events that tell of it, and the tables after it. -/
inductive Step (t : Tables) : List AuditEvent → Tables → Prop where
  | cursors (cursors : Cursors) : Step t [] { t with cursors }
  | naming (c : Reservations.Change) : Step t [] { t with reservations := c.apply t.reservations }
  | create (owner : Principal) (r : Registration) (h : (t.directory.add r).1 = true) :
    Step t [.principalCreated r.principal r.aclKey owner r.title] (t.created owner r)
  | delete (p : Principal) (r : Registration) (h : t.directory.find? p = some r) :
    Step t [t.removal p r.aclKey] (t.without p r.aclKey)
  | grant (key : AclKey) (p : Principal) (s : PermissionSet) (kind : ObjectKind)
      (expiration : Instant) (h : s.isEmpty = false) :
    Step t [.permissionsGranted p key s]
      { t with permissions := Permissions.mergeOne s kind expiration t.permissions ⟨key, p⟩ }
  | revoke (key : AclKey) (p : Principal) (s : PermissionSet) :
    Step t [.permissionsRevoked p key s]
      { t with permissions := Permissions.subtractOne s t.permissions ⟨key, p⟩ }
  | addMember (child parent : AclKey) (member group : Registration)
      (hchild : t.directory.findAt? child = some member)
      (hparent : t.directory.findAt? parent = some group) :
    Step t [.membershipAdded member.principal parent]
      { t with memberships := (Memberships.add t.memberships child parent).2 }
  | removeMember (child parent : AclKey) (h : Graph.Leads t.memberships child parent) :
    Step t [.membershipRemoved ((t.directory.findAt? child).map Registration.principal) parent]
      { t with memberships := (Memberships.remove t.memberships child parent).2 }
  /-- The same memberships, whichever way they are stored. -/
  | rearrange (memberships : Memberships)
      (h : ∀ a b, Graph.Leads memberships a b ↔ Graph.Leads t.memberships a b) :
    Step t [] { t with memberships }
  | retitle (key : AclKey) (title : String) :
    Step t [] { t with directory := (t.directory.retitle key title).2 }
  | updateKind (k : Entry.Key) (kind : ObjectKind) :
    Step t [] { t with permissions := (t.permissions.updateKind k kind).2 }

/-- Some steps, one after the other, and the events that tell of them. -/
inductive Run : Tables → List AuditEvent → Tables → Prop where
  | nil (t : Tables) : Run t [] t
  | cons {t t' t'' : Tables} {events rest : List AuditEvent} (h : Step t events t')
      (hrest : Run t' rest t'') : Run t (events ++ rest) t''

variable {t t' t'' : Tables} {events rest : List AuditEvent}

theorem Step.run (h : Step t events t') : Run t events t' := by
  have hrun := Run.cons h (Run.nil t')
  rwa [List.append_nil] at hrun

theorem Run.append (h : Run t events t') (h' : Run t' rest t'') : Run t (events ++ rest) t'' := by
  induction h with
  | nil => exact h'
  | cons hstep _ ih =>
    rw [List.append_assoc]
    exact .cons hstep (ih h')

/-- What every step keeps is kept by every run. The step may be told by events of which
something is known. -/
theorem Run.keeps {P : Tables → Prop} {E : AuditEvent → Prop}
    (hstep : ∀ {t t' events}, Step t events t' → (∀ e ∈ events, E e) → P t → P t')
    (h : Run t events t') (hE : ∀ e ∈ events, E e) (hP : P t) : P t' := by
  induction h with
  | nil => exact hP
  | cons hone _ ih =>
    refine ih (fun e he => hE e (List.mem_append_right _ he)) ?_
    exact hstep hone (fun e he => hE e (List.mem_append_left _ he)) hP

/-! ### What every step keeps -/

/-- The tables are kept as the stores keep them, and memberships join registered
principals. -/
structure Sound (t : Tables) : Prop where
  directory : t.directory.Consistent
  permissions : t.permissions.Indexed
  reservations : t.reservations.OneToOne
  known : ∀ {a b : AclKey}, Graph.Leads t.memberships a b →
    t.directory.Knows a ∧ t.directory.Knows b

theorem sound_of_empty (hd : t.directory = .empty) (hp : t.permissions = .empty)
    (hr : t.reservations = .empty) (hm : t.memberships = ∅) : t.Sound where
  directory := hd ▸ Directory.consistent_empty
  permissions := hp ▸ Permissions.indexed_empty
  reservations := hr ▸ Reservations.oneToOne_empty
  known h := absurd (hm ▸ h) Graph.leads_empty

theorem oneToOne_step (h : Step t events t') (ht : t.reservations.OneToOne) :
    t'.reservations.OneToOne := by
  cases h with
  | naming c => exact Reservations.oneToOne_apply ht c
  | _ => exact ht

/-- Every step keeps the tables sound. -/
theorem sound_step (h : Step t events t') (ht : t.Sound) : t'.Sound := by
  have hone : t'.reservations.OneToOne := oneToOne_step h ht.reservations
  cases h with
  | cursors => exact ⟨ht.directory, ht.permissions, hone, ht.known⟩
  | naming => exact ⟨ht.directory, ht.permissions, hone, ht.known⟩
  | create owner r h =>
    refine ⟨Directory.consistent_add ht.directory r,
      Permissions.indexed_mergeOne ht.permissions _ _ _ _, hone, fun {a b} hab => ?_⟩
    obtain ⟨ha, hb⟩ := ht.known hab
    exact ⟨Directory.knows_add r ha, Directory.knows_add r hb⟩
  | delete p r h =>
    refine ⟨Directory.consistent_remove ht.directory p, ?_, hone, fun {a b} hab => ?_⟩
    · exact Permissions.indexed_apply (Permissions.indexed_apply ht.permissions (.deleteOf p))
        (.deleteOn r.aclKey)
    · obtain ⟨hleads, ha, hb⟩ := Graph.leads_removeAll.mp hab
      obtain ⟨hka, hkb⟩ := ht.known hleads
      exact ⟨Directory.knows_remove h hka ha, Directory.knows_remove h hkb hb⟩
  | grant => exact ⟨ht.directory, Permissions.indexed_mergeOne ht.permissions _ _ _ _,
      hone, ht.known⟩
  | revoke => exact ⟨ht.directory, Permissions.indexed_subtractOne ht.permissions _ _,
      hone, ht.known⟩
  | addMember child parent member group hchild hparent =>
    refine ⟨ht.directory, ht.permissions, hone, fun {a b} hab => ?_⟩
    rcases Graph.leads_add.mp hab with ⟨rfl, rfl⟩ | hleads
    · exact ⟨(Directory.knows_iff ht.directory).mpr ⟨member, hchild⟩,
        (Directory.knows_iff ht.directory).mpr ⟨group, hparent⟩⟩
    · exact ht.known hleads
  | removeMember =>
    exact ⟨ht.directory, ht.permissions, hone,
      fun hab => ht.known (Graph.leads_remove.mp hab).2⟩
  | rearrange memberships h =>
    exact ⟨ht.directory, ht.permissions, hone, fun hab => ht.known ((h _ _).mp hab)⟩
  | retitle key title =>
    refine ⟨Directory.consistent_retitle ht.directory key title, ht.permissions, hone,
      fun {a b} hab => ?_⟩
    obtain ⟨ha, hb⟩ := ht.known hab
    exact ⟨Directory.knows_retitle ht.directory key title ha,
      Directory.knows_retitle ht.directory key title hb⟩
  | updateKind k kind =>
    exact ⟨ht.directory, Permissions.indexed_updateKind ht.permissions k kind, hone,
      ht.known⟩

theorem sound_run (h : Run t events t') (ht : t.Sound) : t'.Sound :=
  h.keeps (E := fun _ => True) (fun hstep _ => sound_step hstep) (fun _ _ => trivial) ht

end Tables

/-- From some books steps lead to others, and the trail has grown by the events that tell of
them. -/
def Books.Advances (b b' : Books) : Prop :=
  ∃ events, Tables.Run b.tables events b'.tables ∧ b'.trail = b.trail ++ events

namespace Books.Advances

variable {b b' b'' : Books}

theorem refl (b : Books) : b.Advances b := ⟨[], .nil _, (List.append_nil _).symm⟩

theorem trans (h : b.Advances b') (h' : b'.Advances b'') : b.Advances b'' := by
  obtain ⟨events, hrun, htrail⟩ := h
  obtain ⟨rest, hrun', htrail'⟩ := h'
  exact ⟨events ++ rest, hrun.append hrun', by rw [htrail', htrail, List.append_assoc]⟩

theorem of_step {events : List AuditEvent} {t : Tables} (h : Tables.Step b.tables events t) :
    b.Advances ⟨t, b.trail ++ events⟩ := ⟨events, h.run, rfl⟩

theorem of_silent {t : Tables} (h : Tables.Step b.tables [] t) : b.Advances ⟨t, b.trail⟩ :=
  ⟨[], h.run, (List.append_nil _).symm⟩

end Books.Advances

variable {ε α β : Type} {x : ExceptT ε (StateM State) α} {f : α → ExceptT ε (StateM State) β}

/-- The books advance, whether the computation fails or not. -/
def Orderly (x : ExceptT ε (StateM State) α) : Prop := ∀ b, Ends x b fun _ b' => b.Advances b'

/-- The books advance, or the computation fails and they are as they were. -/
def Whole (x : ExceptT ε (StateM State) α) : Prop :=
  ∀ b, Ends x b fun r b' =>
    match r with
    | .ok _ => b.Advances b'
    | .error _ => b' = b

theorem Idle.whole (h : Idle x) : Whole x := fun b =>
  (h b).mono fun r b' hb => by
    subst hb
    cases r with
    | ok a => exact .refl b'
    | error e => rfl

theorem Whole.orderly (h : Whole x) : Orderly x := fun b =>
  (h b).mono fun r b' hb => by
    cases r with
    | ok a => exact hb
    | error e => exact hb ▸ .refl b

theorem Idle.orderly (h : Idle x) : Orderly x := h.whole.orderly

theorem orderly_bind (hx : Orderly x) (hf : ∀ a, Orderly (f a)) : Orderly (x >>= f) := fun b =>
  ends_bind (hx b) (fun a b' hb => (hf a b').mono fun _ _ hb' => hb.trans hb') fun _ _ hb => hb

theorem Idle.whole_bind (hx : Idle x) (hf : ∀ a, Whole (f a)) : Whole (x >>= f) := fun b =>
  hx.ends_bind (fun a => hf a b) fun _ => rfl

theorem Whole.map (hx : Whole x) (g : α → β) : Whole (x >>= fun a => pure (g a)) := fun b =>
  ends_bind (hx b) (fun _ _ hb => ends_pure hb) fun _ _ he => he

end AccessRegistry
