/-
# What memberships change

Who counts for somebody is who is reached from them, so a change of the memberships changes who
counts by the paths that it opens or cuts. A new membership of a child in a parent adds those who
count for the parent, for exactly those for whom the child counts, whatever cycles it closes; and
if it is ended at once, everything is as it was. A membership that ends takes away at most from
those for whom the child counts, and leaves whoever can be reached without it.

Key definitions: `Authorization.CountsWithout`, `Authorization.Noted`, `Authorization.Joined`,
`Authorization.Parted`.
Key theorems: `Authorization.countsFor_iff`, `Authorization.countsFor_joined`,
`Authorization.closureOf_joined`, `Authorization.memberships_are_exact`.
-/
import AccessRegistry.Proofs.Authorization.Decisions
import AccessRegistry.Proofs.Authorization.Services

namespace AccessRegistry.Authorization

open Std (ExtTreeSet)

variable {t t' : Tables} {s s' : State} {p q : Principal} {r c d : Registration}
  {child parent : AclKey}

/-- For who is registered those count who are registered at a key that is reached. -/
theorem countsFor_iff (h : t.directory.Consistent) (hp : t.directory.find? p = some r) :
    CountsFor t p q ↔ ∃ r', t.directory.find? q = some r' ∧
      Graph.Reaches t.memberships r.aclKey r'.aclKey := by
  unfold CountsFor
  constructor
  · rintro (rfl | ⟨r₁, r', hr₁, hr', habove⟩)
    · exact ⟨r, hp, .refl⟩
    · obtain rfl : r = r₁ := Option.some.inj (hp.symm.trans hr₁)
      exact ⟨r', hr', habove.to_reflTransGen⟩
  · rintro ⟨r', hr', hreach⟩
    obtain hkey | habove := Graph.reaches_iff.mp hreach
    · have hhere := (h.byPrincipal p r hp).2
      have hthere := (h.byPrincipal q r' hr').2
      rw [hkey, hhere] at hthere
      exact .inl (Option.some.inj hthere).symm
    · exact .inr ⟨r, r', hp, hr', habove⟩

theorem countsFor_missing (hp : t.directory.find? p = none) : CountsFor t p q ↔ q = p := by
  unfold CountsFor
  simp [hp]

/-- Who is registered at a key counts for those from whom the key is reached. -/
theorem countsFor_at (h : t.directory.Consistent) (hp : t.directory.find? p = some r)
    (hc : t.directory.findAt? child = some c) :
    CountsFor t p c.principal ↔ Graph.Reaches t.memberships r.aclKey child := by
  obtain ⟨hfind, hkey⟩ := (Directory.findAt?_eq_some_iff h).mp hc
  rw [countsFor_iff h hp]
  constructor
  · rintro ⟨r', hr', hreach⟩
    obtain rfl := Option.some.inj (hfind.symm.trans hr')
    exact hkey ▸ hreach
  · exact fun hreach => ⟨c, hfind, hkey.symm ▸ hreach⟩

/-! ### A membership more, and one less -/

/-- With a membership more those for whom the child counts gain whom the parent has, and
nobody else gains anybody. -/
theorem countsFor_joined (h : t.directory.Consistent) (hdir : t'.directory = t.directory)
    (hm : t'.memberships = (Memberships.add t.memberships child parent).2)
    (hc : t.directory.findAt? child = some c) (hd : t.directory.findAt? parent = some d) :
    CountsFor t' p q ↔
      CountsFor t p q ∨ (CountsFor t p c.principal ∧ CountsFor t d.principal q) := by
  obtain ⟨hdfind, hdkey⟩ := (Directory.findAt?_eq_some_iff h).mp hd
  cases hp : t.directory.find? p with
  | none =>
    have hnot : ¬ CountsFor t p c.principal := by
      rw [countsFor_missing hp]
      rintro rfl
      rw [((Directory.findAt?_eq_some_iff h).mp hc).1] at hp
      cases hp
    rw [countsFor_missing (hdir ▸ hp), countsFor_missing hp]
    exact ⟨.inl, fun hq => hq.resolve_right fun hboth => hnot hboth.1⟩
  | some r =>
    have hc' : t'.directory.Consistent := hdir ▸ h
    rw [countsFor_iff hc' (hdir ▸ hp), countsFor_iff h hp, countsFor_at h hp hc,
      countsFor_iff h hdfind, hdkey, hdir, hm]
    simp only [Graph.reaches_add]
    constructor
    · rintro ⟨r', hr', hreach | ⟨hchild, hparent⟩⟩
      · exact .inl ⟨r', hr', hreach⟩
      · exact .inr ⟨hchild, r', hr', hparent⟩
    · rintro (⟨r', hr', hreach⟩ | ⟨hchild, r', hr', hparent⟩)
      · exact ⟨r', hr', .inl hreach⟩
      · exact ⟨r', hr', .inr ⟨hchild, hparent⟩⟩

theorem closureOf_joined (h : t.directory.Consistent) (hdir : t'.directory = t.directory)
    (hm : t'.memberships = (Memberships.add t.memberships child parent).2)
    (hc : t.directory.findAt? child = some c) (hd : t.directory.findAt? parent = some d)
    (p : Principal) :
    closureOf t' p = if c.principal ∈ closureOf t p then
      closureOf t p ∪ closureOf t d.principal else closureOf t p := by
  have hmem : ∀ q, q ∈ closureOf t' p ↔ q ∈ closureOf t p ∨
      (c.principal ∈ closureOf t p ∧ q ∈ closureOf t d.principal) := by
    intro q
    rw [mem_closureOf (hdir ▸ h), mem_closureOf h, mem_closureOf h, mem_closureOf h]
    exact countsFor_joined h hdir hm hc hd
  apply ExtTreeSet.ext_mem
  intro q
  rw [hmem]
  by_cases hchild : c.principal ∈ closureOf t p
  · rw [if_pos hchild, ExtTreeSet.mem_union_iff]
    simp only [hchild, true_and]
  · rw [if_neg hchild]
    simp only [hchild, false_and, or_false]

/-- Whether the grants of a principal count for another without the membership of a child in a
parent: it is the same, or both are registered and other memberships lead from the other to
it. -/
def CountsWithout (t : Tables) (child parent : AclKey) (p q : Principal) : Prop :=
  q = p ∨ ∃ r r' : Registration, t.directory.find? p = some r ∧ t.directory.find? q = some r' ∧
    Graph.AboveBut t.memberships child parent r.aclKey r'.aclKey

theorem countsFor_parted (hdir : t'.directory = t.directory)
    (hm : t'.memberships = (Memberships.remove t.memberships child parent).2) :
    CountsFor t' p q ↔ CountsWithout t child parent p q := by
  unfold CountsFor CountsWithout
  simp only [hdir, hm, Graph.above_remove]

theorem CountsWithout.countsFor (h : CountsWithout t child parent p q) : CountsFor t p q := by
  refine h.imp id ?_
  rintro ⟨r, r', hr, hr', hbut⟩
  exact ⟨r, r', hr, hr', hbut.above⟩

/-- Those for whom the child does not count do not miss the membership. -/
theorem countsWithout_of_not_countsFor (h : t.directory.Consistent)
    (hc : t.directory.findAt? child = some c) (hnot : ¬ CountsFor t p c.principal)
    (hq : CountsFor t p q) : CountsWithout t child parent p q := by
  refine hq.imp id ?_
  rintro ⟨r, r', hr, hr', habove⟩
  rw [countsFor_at h hr hc] at hnot
  exact ⟨r, r', hr, hr', Graph.aboveBut_of_not_reaches hnot habove⟩

/-! ### Exactly that -/

/-- The trail tells of a change of the memberships exactly if they have changed. -/
def Noted (s s' : State) (e : AuditEvent) : Prop :=
  ((∀ a b, Graph.Leads s'.tables.memberships a b ↔ Graph.Leads s.tables.memberships a b) ∧
    s'.tables = s.tables ∧ s'.trail = s.trail) ∨
  ((∃ a b, ¬ (Graph.Leads s'.tables.memberships a b ↔ Graph.Leads s.tables.memberships a b)) ∧
    s'.trail = s.trail ++ [e])

/-- What a new membership does: it is there, and those for whom the child counts gain whom the
parent has, and nothing else changes. -/
structure Joined (s s' : State) (child parent : AclKey) (c d : Principal) : Prop where
  rest : s'.tables = { s.tables with memberships := s'.tables.memberships }
  edges : ∀ a b, Graph.Leads s'.tables.memberships a b ↔
    (child = a ∧ parent = b) ∨ Graph.Leads s.tables.memberships a b
  noted : Noted s s' (.membershipAdded c parent)
  closures : ∀ q, ∃ old new gained, (closure q).Reads s old ∧ (closure q).Reads s' new ∧
    (closure d).Reads s gained ∧ new = if c ∈ old then old ∪ gained else old

/-- What the end of a membership does: it is gone, and with it who is reached by it only, from
where the child is reached, and nothing else changes. -/
structure Parted (s s' : State) (child parent : AclKey) : Prop where
  rest : s'.tables = { s.tables with memberships := s'.tables.memberships }
  edges : ∀ a b, Graph.Leads s'.tables.memberships a b ↔
    ¬ (child = a ∧ parent = b) ∧ Graph.Leads s.tables.memberships a b
  noted : Noted s s' (.membershipRemoved
    ((s.tables.directory.findAt? child).map Registration.principal) parent)
  closures : ∀ q, ∃ old new, (closure q).Reads s old ∧ (closure q).Reads s' new ∧
    (∀ p ∈ new, p ∈ old) ∧
    (∀ c, s.tables.directory.findAt? child = some c → c.principal ∉ old → new = old) ∧
    ∀ p, p ∈ new ↔ CountsWithout s.tables child parent q p

/-- A new membership on the books is all that it does. -/
theorem joined_of_books (h : s.InMemory) (h' : s'.InMemory)
    (hcons : s.tables.directory.Consistent) (htidy : s.tables.memberships.Tidy)
    (hc : s.tables.directory.findAt? child = some c)
    (hd : s.tables.directory.findAt? parent = some d)
    (htables : s'.tables = { s.tables with
      memberships := (Memberships.add s.tables.memberships child parent).2 })
    (htrail : s'.trail = s.trail ++ if Memberships.holds s.tables.memberships child parent then []
      else [.membershipAdded c.principal parent]) :
    Joined s s' child parent c.principal d.principal := by
  have hm := congrArg Tables.memberships htables
  have hdir := congrArg Tables.directory htables
  have hedges : ∀ a b, Graph.Leads s'.tables.memberships a b ↔
      (child = a ∧ parent = b) ∨ Graph.Leads s.tables.memberships a b := by
    intro a b
    rw [hm]
    exact Graph.leads_add
  refine ⟨hm ▸ htables, hedges, ?_, fun q => ?_⟩
  · by_cases hheld : Graph.Leads s.tables.memberships child parent
    · have hsame : s'.tables = s.tables := by
        rw [htables, Graph.add_of_leads htidy hheld]
      rw [Graph.holds_iff.mpr hheld, if_pos rfl, List.append_nil] at htrail
      exact .inl ⟨fun a b => by rw [hsame], hsame, htrail⟩
    · have hnew : Graph.Leads s'.tables.memberships child parent :=
        (hedges child parent).mpr (.inl ⟨rfl, rfl⟩)
      rw [if_neg fun hholds => hheld (Graph.holds_iff.mp hholds)] at htrail
      exact .inr ⟨⟨child, parent, fun hiff => hheld (hiff.mp hnew)⟩, htrail⟩
  · exact ⟨_, _, _, reads_closure h q, reads_closure h' q, reads_closure h d.principal,
      closureOf_joined hcons hdir hm hc hd q⟩

/-- The end of a membership on the books is all that it does. -/
theorem parted_of_books (h : s.InMemory) (h' : s'.InMemory)
    (hcons : s.tables.directory.Consistent) (htidy : s.tables.memberships.Tidy)
    (htables : s'.tables = { s.tables with
      memberships := (Memberships.remove s.tables.memberships child parent).2 })
    (htrail : s'.trail = s.trail ++ if Memberships.holds s.tables.memberships child parent then
      [.membershipRemoved ((s.tables.directory.findAt? child).map Registration.principal) parent]
      else []) :
    Parted s s' child parent := by
  have hm := congrArg Tables.memberships htables
  have hdir := congrArg Tables.directory htables
  have hedges : ∀ a b, Graph.Leads s'.tables.memberships a b ↔
      ¬ (child = a ∧ parent = b) ∧ Graph.Leads s.tables.memberships a b := by
    intro a b
    rw [hm]
    exact Graph.leads_remove
  refine ⟨hm ▸ htables, hedges, ?_, fun q => ?_⟩
  · by_cases hheld : Graph.Leads s.tables.memberships child parent
    · have hgone : ¬ Graph.Leads s'.tables.memberships child parent := fun hstill =>
        ((hedges child parent).mp hstill).1 ⟨rfl, rfl⟩
      rw [Graph.holds_iff.mpr hheld, if_pos rfl] at htrail
      exact .inr ⟨⟨child, parent, fun hiff => hgone (hiff.mpr hheld)⟩, htrail⟩
    · have hsame : s'.tables = s.tables := by
        rw [htables, Graph.remove_of_not_leads htidy hheld]
      rw [if_neg fun hholds => hheld (Graph.holds_iff.mp hholds), List.append_nil] at htrail
      exact .inl ⟨fun a b => by rw [hsame], hsame, htrail⟩
  · have hnew : ∀ p, p ∈ closureOf s'.tables q ↔ CountsWithout s.tables child parent q p := by
      intro p
      rw [mem_closureOf (hdir ▸ hcons)]
      exact countsFor_parted hdir hm
    have hless : ∀ p ∈ closureOf s'.tables q, p ∈ closureOf s.tables q := fun p hp =>
      (mem_closureOf hcons).mpr ((hnew p).mp hp).countsFor
    refine ⟨_, _, reads_closure h q, reads_closure h' q, hless, fun c hc hnot => ?_, hnew⟩
    apply ExtTreeSet.ext_mem
    intro p
    refine ⟨hless p, fun hp => (hnew p).mpr ?_⟩
    rw [mem_closureOf hcons] at hnot hp
    exact countsWithout_of_not_countsFor hcons hc hnot hp

/-- **Memberships have exactly their effect.** Who is registered can be made a member of who is
registered: those for whom the child counts gain the closure of the parent, nobody else gains
anybody, and if the membership is new and ended at once, everything is as it was. A membership
that is ended takes away only from those for whom the child counts, and only whom they do not
reach without it. The trail tells of it exactly if the memberships have changed; and where one of
the two is not registered, nothing is done. -/
theorem memberships_are_exact {changes : List Tables.Change} (h : s.InMemory)
    (hs : s.tables = .after changes) (child parent : AclKey) :
    (∀ c d, s.tables.directory.findAt? child = some c →
      s.tables.directory.findAt? parent = some d →
      ∃ s', (addMember child parent).perform s = (.ok (), s') ∧
        Joined s s' child parent c.principal d.principal ∧
        (¬ Graph.Leads s.tables.memberships child parent →
          ∃ s'', (removeMember child parent).perform s' = (.ok (), s'') ∧
            s''.tables = s.tables ∧
            ∀ q, ∃ members, (closure q).Reads s members ∧ (closure q).Reads s'' members)) ∧
    (∃ s', (removeMember child parent).perform s = (.ok (), s') ∧ Parted s s' child parent) ∧
    (s.tables.directory.findAt? child = none ∨ s.tables.directory.findAt? parent = none →
      ∃ missing, (missing = child ∨ missing = parent) ∧
        s.tables.directory.findAt? missing = none ∧
        (addMember child parent).perform s =
          (.error (.notFound s!"no principal at {missing}"), s)) := by
  have hcons : s.tables.directory.Consistent := hs ▸ Tables.consistent_directory_after changes
  have htidy : s.tables.memberships.Tidy := hs ▸ Tables.tidy_memberships_after changes
  refine ⟨fun c d hc hd => ?_, ?_, fun hmissing => ?_⟩
  · obtain ⟨s', hadd, h', hbooks⟩ := Action.perform_of_gives h (gives_addMember hc hd)
    have htables : s'.tables = { s.tables with
        memberships := (Memberships.add s.tables.memberships child parent).2 } :=
      congrArg Books.tables hbooks
    refine ⟨s', hadd, joined_of_books h h' hcons htidy hc hd htables (congrArg Books.trail hbooks),
      fun hnew => ?_⟩
    obtain ⟨s'', hremove, h'', hbooks''⟩ :=
      Action.perform_of_gives h' (gives_removeMember child parent)
    have hback : s''.tables = s.tables :=
      calc s''.tables = { s'.tables with
              memberships := (Memberships.remove s'.tables.memberships child parent).2 } :=
            congrArg Books.tables hbooks''
        _ = { s.tables with memberships := (Memberships.remove
              (Memberships.add s.tables.memberships child parent).2 child parent).2 } := by
            rw [htables]
        _ = s.tables := by rw [Graph.remove_add htidy hnew]
    exact ⟨s'', hremove, hback, fun q => ⟨_, reads_closure h q, hback ▸ reads_closure h'' q⟩⟩
  · obtain ⟨s', hremove, h', hbooks⟩ :=
      Action.perform_of_gives h (gives_removeMember child parent)
    exact ⟨s', hremove, parted_of_books h h' hcons htidy (congrArg Books.tables hbooks)
      (congrArg Books.trail hbooks)⟩
  · have hrefused := perform_addMember_missing h hmissing
    by_cases hchild : s.tables.directory.findAt? child = none
    · rw [if_pos hchild] at hrefused
      exact ⟨child, .inl rfl, hchild, hrefused⟩
    · rw [if_neg hchild] at hrefused
      exact ⟨parent, .inr rfl, hmissing.resolve_left hchild, hrefused⟩

/-- A team that becomes a member of its own member closes a cycle, and gains the member. A member
that leaves the team instead loses it. The trail tells of both, and nobody becomes a member of a
key at which nobody is registered. -/
theorem cycle_closed_and_cut :
    let alice : Registration := ⟨.single (.system 1), ⟨.user, "alice"⟩, "", ""⟩
    let team : Registration := ⟨.single (.system 2), ⟨.role, "team"⟩, "", ""⟩
    let s : State := { State.start {} ⟨0, 0⟩ with
      tables := Tables.after [.directory (.add alice), .directory (.add team),
        .addEdge alice.aclKey team.aclKey] }
    (∃ s' old new, (addMember team.aclKey alice.aclKey).perform s = (.ok (), s') ∧
      (closure team.principal).Reads s old ∧ alice.principal ∉ old ∧
      (closure team.principal).Reads s' new ∧ alice.principal ∈ new ∧
      s'.trail = [.membershipAdded team.principal alice.aclKey]) ∧
    (∃ s' new, (removeMember alice.aclKey team.aclKey).perform s = (.ok (), s') ∧
      (closure alice.principal).Reads s' new ∧ team.principal ∉ new ∧
      s'.trail = [.membershipRemoved (some alice.principal) team.aclKey]) ∧
    (addMember alice.aclKey (.single (.system 3))).perform s =
      (.error (.notFound s!"no principal at {AclKey.single (.system 3)}"), s) := by
  intro alice team s
  have h : s.InMemory := ⟨rfl, rfl⟩
  have hreach : s.tables = Tables.after _ := rfl
  have halice : s.tables.directory.findAt? alice.aclKey = some alice := by decide +kernel
  have hteam : s.tables.directory.findAt? team.aclKey = some team := by decide +kernel
  refine ⟨?_, ?_, ?_⟩
  · obtain ⟨hjoin, -, -⟩ := memberships_are_exact h hreach team.aclKey alice.aclKey
    obtain ⟨s', hadd, hjoined, -⟩ := hjoin team alice hteam halice
    obtain ⟨old, new, gained, hold, hnew, hgained, heq⟩ := hjoined.closures team.principal
    obtain rfl := (reads_closure h team.principal).unique hold
    obtain rfl := (reads_closure h alice.principal).unique hgained
    refine ⟨s', _, new, hadd, hold, by decide +kernel, hnew, ?_, ?_⟩
    · rw [heq]
      decide +kernel
    · obtain ⟨hsame, -⟩ | ⟨-, htrail⟩ := hjoined.noted
      · exact absurd ((hsame _ _).mp ((hjoined.edges _ _).mpr (.inl ⟨rfl, rfl⟩)))
          (by decide +kernel)
      · exact htrail
  · obtain ⟨-, ⟨s', hremove, hparted⟩, -⟩ := memberships_are_exact h hreach alice.aclKey team.aclKey
    obtain ⟨old, new, -, hnew, -, -, hiff⟩ := hparted.closures alice.principal
    refine ⟨s', new, hremove, hnew, fun hmem => ?_, ?_⟩
    · obtain hsame | ⟨r, r', hr, -, hbut⟩ := (hiff _).mp hmem
      · exact absurd hsame (by decide)
      · have hfind : s.tables.directory.find? alice.principal = some alice := by decide +kernel
        obtain rfl : alice = r := Option.some.inj (hfind.symm.trans hr)
        obtain ⟨key, ⟨hne, hleads⟩, -⟩ := Relation.TransGen.head'_iff.mp hbut
        obtain ⟨-, hkey⟩ | hnone := Graph.leads_add.mp hleads
        · exact hne ⟨rfl, hkey⟩
        · exact Graph.leads_empty hnone
    · obtain ⟨hsame, -⟩ | ⟨-, htrail⟩ := hparted.noted
      · have hheld : Graph.Leads s.tables.memberships alice.aclKey team.aclKey := by decide +kernel
        exact absurd ⟨rfl, rfl⟩ ((hparted.edges _ _).mp ((hsame _ _).mpr hheld)).1
      · rw [halice] at htrail
        exact htrail
  · obtain ⟨-, -, hmissing⟩ := memberships_are_exact h hreach alice.aclKey (.single (.system 3))
    obtain ⟨missing, hkey, hnone, hrefused⟩ := hmissing (.inr (by decide +kernel))
    obtain rfl : missing = .single (.system 3) := by
      refine hkey.resolve_left ?_
      rintro rfl
      rw [halice] at hnone
      cases hnone
    exact hrefused

end AccessRegistry.Authorization
