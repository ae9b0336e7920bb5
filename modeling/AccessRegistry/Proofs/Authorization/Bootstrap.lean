/-
# When a bootstrap sets things right

Each standard principal has a name, an identifier and a key of its own. It is in its place if
nobody else has any of them: its name goes with its identifier in the reservations, and it goes
with its key in the directory, where they occur at all. A bootstrap makes the standard
principals one after the other. It is refused where a name is out of place, but where somebody
is, it goes on and leaves them; and it takes nobody's registration away. So it sets things right
just when all standard principals are in their places when it begins.

Key definitions: `Registration.Apart`, `Reservations.Keeps`, `Directory.Keeps`,
`Directory.Registers`, `Tables.InPlace`, `Authorization.Recovers`.
Key theorems: `Naming.ends_reserveStandard`, `Authorization.ends_createStandard`,
`Authorization.recovers_iff`.
-/
import AccessRegistry.Proofs.Authorization.Services

namespace AccessRegistry

/-- Two registrations share neither name nor identifier. -/
def Registration.Apart (r r' : Registration) : Prop :=
  r.principal.toText ≠ r'.principal.toText ∧ r.id ≠ r'.id

instance : DecidableRel Registration.Apart := fun r r' =>
  inferInstanceAs (Decidable (r.principal.toText ≠ r'.principal.toText ∧ r.id ≠ r'.id))

namespace Registration.Apart

variable {r r' : Registration}

theorem principal_ne (h : r.Apart r') : r.principal ≠ r'.principal :=
  fun he => h.1 (congrArg Principal.toText he)

theorem aclKey_ne (h : r.Apart r') : r.aclKey ≠ r'.aclKey :=
  fun he => h.2 (congrArg AclKey.leaf he)

end Registration.Apart

theorem Standard.pairwise_apart : all.Pairwise Registration.Apart := by decide +kernel

/-- The name of a standard principal is bound to its identifier, and its identifier to its name,
if they are bound. -/
def Reservations.Keeps (t : Reservations) (r : Registration) : Prop :=
  ∀ id v, t.find? id = some v → (v.name = r.principal.toText ↔ id = r.id)

/-- A standard principal is registered under its key, and under its key nobody else, if they are
registered. -/
def Directory.Keeps (t : Directory) (r : Registration) : Prop :=
  ∀ p found, t.find? p = some found → (p = r.principal ↔ found.aclKey = r.aclKey)

/-- A principal is registered under its key. -/
def Directory.Registers (t : Directory) (r : Registration) : Prop :=
  ∃ found, t.find? r.principal = some found ∧ found.aclKey = r.aclKey

/-- A standard principal is in its place: nobody else has what belongs to it. -/
structure Tables.InPlace (t : Tables) (r : Registration) : Prop where
  name : t.reservations.Keeps r
  key : t.directory.Keeps r

/-! ### Reservations and registrations -/

namespace Reservations

variable {t t' : Reservations} {r r' : Registration}

/-- What is reserved for one standard principal is no other one's. -/
theorem keeps_insert {v : Reservation} (h : t.insert? v = some t')
    (hv : v.name = r.principal.toText ↔ v.id = r.id) : t'.Keeps r ↔ t.Keeps r := by
  have hfind := find?_insert h
  obtain ⟨⟨-, hfree⟩, -⟩ := insert?_eq_some h
  constructor
  · intro hkeeps id w hw
    refine hkeeps id w ?_
    rw [hfind, if_neg, hw]
    rintro rfl
    rw [hfree] at hw
    cases hw
  · intro hkeeps id w hw
    rw [hfind] at hw
    split at hw
    · rename_i hid
      obtain rfl := Option.some.inj hw
      rw [hv, hid]
    · exact hkeeps id w hw

theorem keeps_of_free (ht : t.OneToOne) (hname : t.idOf? r.principal.toText = none)
    (hid : t.find? r.id = none) : t.Keeps r := by
  intro id v hv
  constructor
  · intro he
    have hbound := (ht.byId id v hv).2
    rw [he, hname] at hbound
    cases hbound
  · rintro rfl
    rw [hid] at hv
    cases hv

theorem keeps_of_bound (ht : t.OneToOne) {v : Reservation} (hv : t.find? r.id = some v)
    (hname : v.name = r.principal.toText) : t.Keeps r := by
  intro id w hw
  constructor
  · intro he
    have hw' := (ht.byId id w hw).2
    have hv' := (ht.byId r.id v hv).2
    rw [he] at hw'
    rw [hname, hw'] at hv'
    exact Option.some.inj hv'
  · rintro rfl
    obtain rfl := Option.some.inj (hv.symm.trans hw)
    exact hname

end Reservations

open AccessRegistry.Authorization in
/-- The name of a standard principal is reserved where nobody has it, and refused where
somebody has. What others have to do with it does not change. -/
theorem Naming.ends_reserveStandard {b : Books} (hb : b.tables.reservations.OneToOne)
    (r : Registration) :
    Ends (reserveWellKnown (standardReservation r)) b fun
      | .ok _, b' => b.tables.reservations.Keeps r ∧ ∃ reservations : Reservations,
          b' = b.withReservations reservations ∧ reservations.OneToOne ∧
            ∀ r', r.Apart r' → (reservations.Keeps r' ↔ b.tables.reservations.Keeps r')
      | .error _, b' => ¬ b.tables.reservations.Keeps r ∧ b' = b := by
  unfold reserveWellKnown
  cases hins : b.tables.reservations.insert? (standardReservation r) with
  | some reservations =>
    obtain ⟨⟨hname, hid⟩, -⟩ := Reservations.insert?_eq_some hins
    refine gives_bind (Store.gives_insertReservation_free hins) (ends_pure ?_)
    refine ⟨Reservations.keeps_of_free hb hname hid, reservations, rfl,
      Reservations.oneToOne_insert hb hins, fun r' hr' => ?_⟩
    exact Reservations.keeps_insert hins ⟨fun h => absurd h hr'.1, fun h => absurd h hr'.2⟩
  | none =>
    have htaken : ¬ (b.tables.reservations.insert? (standardReservation r)).isSome := by
      simp [hins]
    rw [Reservations.isSome_insert?] at htaken
    refine gives_bind (Store.gives_insertReservation_taken hins) ?_
    refine gives_bind (Store.gives_reservation? r.id) ?_
    cases hbound : b.tables.reservations.find? r.id with
    | none =>
      -- so it is the name that somebody has
      refine ends_throw ⟨fun hkeeps => htaken ⟨?_, hbound⟩, rfl⟩
      rw [Option.eq_none_iff_forall_not_mem]
      intro id hid
      obtain ⟨v, hv, hname⟩ := hb.byName _ id hid
      obtain rfl := (hkeeps id v hv).mp hname
      rw [hbound] at hv
      cases hv
    | some bound =>
      dsimp only
      split
      · rename_i hname
        refine ends_pure ⟨Reservations.keeps_of_bound hb hbound hname, ?_⟩
        exact ⟨b.tables.reservations, rfl, hb, fun _ _ => Iff.rfl⟩
      · rename_i hname
        exact ends_throw ⟨fun hkeeps => hname ((hkeeps r.id bound hbound).mpr rfl), rfl⟩

namespace Directory

variable {t : Directory} {r r' : Registration}

theorem find?_add_of_some {p : Principal} {found : Registration} (h : t.find? p = some found)
    (r : Registration) : (t.add r).2.find? p = some found := by
  cases hnew : (t.add r).1 with
  | false => rwa [add_of_fst_eq_false hnew]
  | true =>
    rw [find?_add hnew, if_neg, h]
    rintro rfl
    rw [(fst_add.mp hnew).1] at h
    cases h

/-- A standard principal that is in its place is registered under its key after it was made. -/
theorem registers_add (ht : t.Consistent) (h : t.Keeps r) : (t.add r).2.Registers r := by
  cases hnew : (t.add r).1 with
  | true => exact ⟨r, by rw [find?_add hnew, if_pos rfl], rfl⟩
  | false =>
    rw [add_of_fst_eq_false hnew]
    have htaken : ¬ (t.find? r.principal = none ∧ t.byAclKey[r.aclKey]? = none) := by
      rw [← fst_add, hnew]
      exact Bool.false_ne_true
    cases hfound : t.find? r.principal with
    | some found => exact ⟨found, hfound, (h _ _ hfound).mp rfl⟩
    | none =>
      -- so it is the key that is taken, by the principal itself
      obtain ⟨p, hp⟩ := Option.ne_none_iff_exists'.mp fun hkey => htaken ⟨hfound, hkey⟩
      obtain ⟨found, hp, hkey⟩ := ht.byAclKey _ p hp
      obtain rfl := (h p found hp).mpr hkey
      exact ⟨found, hp, hkey⟩

theorem keeps_add (h : r.principal = r'.principal ↔ r.aclKey = r'.aclKey) :
    (t.add r).2.Keeps r' ↔ t.Keeps r' := by
  constructor
  · intro hkeeps p found hp
    exact hkeeps p found (find?_add_of_some hp r)
  · intro hkeeps p found hp
    cases hnew : (t.add r).1 with
    | false =>
      rw [add_of_fst_eq_false hnew] at hp
      exact hkeeps p found hp
    | true =>
      rw [find?_add hnew] at hp
      split at hp
      · rename_i hsame
        obtain rfl := Option.some.inj hp
        rw [← hsame, h]
      · exact hkeeps p found hp

/-- Where a principal is registered under its key, and was so if it was registered before, nobody
had its key before either. -/
theorem keeps_of_registers {t' : Directory} (ht' : t'.Consistent)
    (hstay : ∀ p found, t.find? p = some found → t'.find? p = some found)
    (h : t'.Registers r) : t.Keeps r := by
  obtain ⟨here, hhere, hkey⟩ := h
  intro p found hp
  have hp' := hstay p found hp
  constructor
  · rintro rfl
    obtain rfl := Option.some.inj (hhere.symm.trans hp')
    exact hkey
  · intro he
    have hbyKey := (ht'.byPrincipal p found hp').2
    rw [he, ← hkey, (ht'.byPrincipal _ here hhere).2] at hbyKey
    exact (Option.some.inj hbyKey).symm

end Directory

namespace Authorization

variable {b : Books}

/-! ### Bootstraps -/

/-- Who is created is added to the directory, and no reservation is touched. -/
theorem ends_createIfAbsent (owner : Principal) (r : Registration) :
    Ends (createIfAbsent owner r).run b fun result b' =>
      result = .ok (b.tables.directory.add r).1 ∧
        b'.tables.reservations = b.tables.reservations ∧
        b'.tables.directory = (b.tables.directory.add r).2 := by
  refine (gives_createIfAbsent owner r).mono ?_
  rintro result b' ⟨rfl, rfl⟩
  cases hnew : (b.tables.directory.add r).1 with
  | false =>
    rw [Directory.add_of_fst_eq_false hnew]
    exact ⟨rfl, rfl, rfl⟩
  | true => exact ⟨rfl, rfl, rfl⟩

/-- What comes of the making of some standard principals. -/
structure Made (b : Books) (rs : List Registration) (result : Except ServiceError Nat)
    (b' : Books) : Prop where
  consistent : b'.tables.directory.Consistent
  /-- Whoever is registered stays so. -/
  stay : ∀ p found, b.tables.directory.find? p = some found →
    b'.tables.directory.find? p = some found
  /-- It is refused just where a name is out of its place. -/
  names : (∃ count, result = .ok count) ↔ ∀ r ∈ rs, b.tables.reservations.Keeps r
  /-- If it is not, all those are registered under their keys that are in their places. -/
  keys : ∀ count, result = .ok count → ∀ r ∈ rs, b.tables.directory.Keeps r →
    b'.tables.directory.Registers r

theorem Made.cons {b₁ b' : Books} {r : Registration} {rs : List Registration}
    {result result' : Except ServiceError Nat} (hd : b.tables.directory.Consistent)
    (hapart : ∀ r' ∈ rs, r.Apart r') (hname : b.tables.reservations.Keeps r)
    (hothers : ∀ r', r.Apart r' →
      (b₁.tables.reservations.Keeps r' ↔ b.tables.reservations.Keeps r'))
    (hdir : b₁.tables.directory = (b.tables.directory.add r).2)
    (hsame : (∃ count, result' = .ok count) ↔ ∃ count, result = .ok count)
    (h : Made b₁ rs result b') : Made b (r :: rs) result' b' where
  consistent := h.consistent
  stay p found hp := h.stay p found (hdir ▸ Directory.find?_add_of_some hp r)
  names := by
    rw [hsame, h.names, List.forall_mem_cons, and_iff_right hname]
    exact forall₂_congr fun r' hr' => hothers r' (hapart r' hr')
  keys count hok r' hr' hkeeps := by
    obtain ⟨count', hok'⟩ := hsame.mp ⟨count, hok⟩
    rcases List.mem_cons.mp hr' with rfl | hr'
    · obtain ⟨found, hfound, hkey⟩ := Directory.registers_add hd hkeeps
      exact ⟨found, h.stay _ found (hdir ▸ hfound), hkey⟩
    · refine h.keys count' hok' r' hr' ?_
      have hne := hapart r' hr'
      rw [hdir, Directory.keeps_add ⟨fun he => absurd he hne.principal_ne,
        fun he => absurd he hne.aclKey_ne⟩]
      exact hkeeps

/-- Standard principals are made as far as they are in their places. -/
theorem ends_createStandard : ∀ {rs : List Registration}, rs.Pairwise Registration.Apart →
    ∀ {b : Books}, b.tables.reservations.OneToOne → b.tables.directory.Consistent →
      Ends (createStandard rs) b (Made b rs)
  | [], _, b, _, hd => ends_pure
    { consistent := hd
      stay := fun _ _ h => h
      names := ⟨fun _ _ hr => absurd hr List.not_mem_nil, fun _ => ⟨0, rfl⟩⟩
      keys := fun _ _ _ hr => absurd hr List.not_mem_nil }
  | r :: rs, hapart, b, hr, hd => by
    obtain ⟨hhead, hrest⟩ := List.pairwise_cons.mp hapart
    unfold createStandard
    refine ends_bind (Naming.ends_reserveStandard hr r) ?_ ?_
    · rintro _ _ ⟨hname, reservations, rfl, hone, hothers⟩
      refine ends_bind (ends_createIfAbsent _ r) ?_ ?_
      · rintro made b₁ ⟨-, hres, hdir⟩
        have hr₁ : b₁.tables.reservations.OneToOne := hres ▸ hone
        have hd₁ : b₁.tables.directory.Consistent := hdir ▸ Directory.consistent_add hd r
        have hcons : ∀ {result result' : Except ServiceError Nat} {b' : Books},
            ((∃ count, result' = .ok count) ↔ ∃ count, result = .ok count) →
              Made b₁ rs result b' → Made b (r :: rs) result' b' :=
          Made.cons hd hhead hname (hres ▸ hothers) hdir
        refine ends_bind (ends_createStandard hrest hr₁ hd₁) ?_ ?_
        · intro count b' hmade
          exact ends_pure (hcons ⟨fun _ => ⟨count, rfl⟩, fun _ => ⟨_, rfl⟩⟩ hmade)
        · intro e b' hmade
          exact hcons Iff.rfl hmade
      · rintro e b' ⟨he, -⟩
        cases he
    · rintro e _ ⟨hname, rfl⟩
      exact
        { consistent := hd
          stay := fun _ _ h => h
          names := ⟨fun ⟨_, h⟩ => (nomatch h), fun h => absurd (h r List.mem_cons_self) hname⟩
          keys := fun _ h => (nomatch h) }

/-- Nobody is registered or removed by a membership; and two who are registered can have one. -/
theorem ends_addMember_found (child parent : AclKey) :
    Ends (addMember child parent) b fun result b' =>
      b'.tables.directory = b.tables.directory ∧
        (b.tables.directory.findAt? child ≠ none → b.tables.directory.findAt? parent ≠ none →
          result = .ok () ∧ Graph.Leads b'.tables.memberships child parent) := by
  refine ends_addMember (fun _ _ _ _ => ⟨rfl, fun _ _ => ⟨rfl, ?_⟩⟩) fun hmissing e => ⟨rfl, ?_⟩
  · exact Graph.leads_add.mpr (.inl ⟨rfl, rfl⟩)
  · exact fun hc hp => (hmissing.elim hc hp).elim

theorem findAt?_ne_none {t : Directory} (ht : t.Consistent) {r : Registration}
    (h : t.Registers r) : t.findAt? r.aclKey ≠ none := by
  obtain ⟨found, hfound, hkey⟩ := h
  obtain ⟨here, hhere⟩ := (Directory.knows_iff ht).mp ⟨r.principal, found, hfound, hkey⟩
  rw [hhere]
  exact Option.some_ne_none here

/-- All is right after a bootstrap: it succeeded, each standard principal is registered under its
key, and administrators count as authenticated. -/
structure SetRight (result : Except ServiceError Unit) (t : Tables) : Prop where
  succeeds : result = .ok ()
  registers : ∀ r ∈ Standard.all, t.directory.Registers r
  member : Graph.Leads t.memberships Standard.adminRole.aclKey Standard.authenticatedRole.aclKey

theorem ends_bootstrap (hb : b.tables.Sound) :
    Ends bootstrap b fun result b' =>
      SetRight result b'.tables ↔ ∀ r ∈ Standard.all, b.tables.InPlace r := by
  unfold bootstrap
  refine ends_bind (ends_createStandard Standard.pairwise_apart hb.reservations hb.directory) ?_ ?_
  · intro count b₁ hmade
    have hregisters : (∀ r ∈ Standard.all, b.tables.InPlace r) →
        ∀ r ∈ Standard.all, b₁.tables.directory.Registers r :=
      fun hplace r hr => hmade.keys count rfl r hr (hplace r hr).key
    have hfound : (∀ r ∈ Standard.all, b.tables.InPlace r) →
        ∀ r ∈ Standard.all, b₁.tables.directory.findAt? r.aclKey ≠ none :=
      fun hplace r hr => findAt?_ne_none hmade.consistent (hregisters hplace r hr)
    have hadmin : Standard.adminRole ∈ Standard.all := by decide
    have hauthenticated : Standard.authenticatedRole ∈ Standard.all := by decide
    refine ends_bind (ends_addMember_found _ _) ?_ ?_
    · rintro ⟨⟩ b₂ ⟨hdir, hmember⟩
      refine (Action.gives_say _ _ _ _).ends ⟨fun hright r hr => ?_, fun hplace => ?_⟩
      · refine ⟨hmade.names.mp ⟨count, rfl⟩ r hr, ?_⟩
        exact Directory.keeps_of_registers hmade.consistent hmade.stay
          (hdir ▸ hright.registers r hr)
      · obtain ⟨-, hleads⟩ :=
          hmember (hfound hplace _ hadmin) (hfound hplace _ hauthenticated)
        exact ⟨rfl, hdir ▸ hregisters hplace, hleads⟩
    · rintro e b₂ ⟨-, hmember⟩
      refine ⟨fun hright => (nomatch hright.succeeds), fun hplace => ?_⟩
      cases (hmember (hfound hplace _ hadmin) (hfound hplace _ hauthenticated)).1
  · intro e b₁ hmade
    refine ⟨fun hright => (nomatch hright.succeeds), fun hplace => ?_⟩
    obtain ⟨count, hcount⟩ := hmade.names.mpr fun r hr => (hplace r hr).name
    cases hcount

/-- A bootstrap sets things right. -/
def Recovers (s : State) : Prop :=
  SetRight (bootstrap.perform s).1 (bootstrap.perform s).2.tables

/-- A bootstrap sets things right just when all standard principals are in their places. -/
theorem recovers_iff {s : State} (hs : s.InMemory) (ht : s.tables.Sound) :
    Recovers s ↔ ∀ r ∈ Standard.all, s.tables.InPlace r :=
  (ends_bootstrap (b := s.books) ht s hs rfl).2

end Authorization
end AccessRegistry
