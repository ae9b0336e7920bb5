/-
# Closures of many principals

The closures of a list of roots are answered with one walk for each root and one look
into the directory for all of them. Here they are taken apart into these two steps, and
the result is compared with the ancestors of each root alone.

Key definitions: `Graph.walks`, `Graph.names`, `Graph.closureMap`.
Key theorems: `Graph.reads_closures`, `Graph.getElem?_names`, `Graph.mem_closureMap`,
`Graph.closures_are_reachability`.
-/
import AccessRegistry.Proofs.Graph.Ancestors
import AccessRegistry.Proofs.Graph.Walk

namespace AccessRegistry.Graph

open Std (ExtTreeMap ExtTreeSet)

/-- The keys of some registrations. -/
def rootKeys (roots : List Registration) : Keys := ExtTreeSet.ofList (roots.map Registration.aclKey)

/-- What each of some roots leads to. -/
def walks (m : Memberships) (roots : List Registration) : List (Registration × Keys) :=
  roots.map fun r => (r, walk (loadedFor m (rootKeys roots)).parents r.aclKey)

/-- All that was walked over. -/
def walked (ws : List (Registration × Keys)) : Keys := ws.foldl (fun found w => found ∪ w.2) ∅

/-- The principals at the keys that were walked over: the roots are known, the rest is
looked for in the directory. -/
def names (t : Directory) (roots : List Registration) (keys : Keys) :
    ExtTreeMap AclKey Principal :=
  roots.foldl (fun names r => names.insert r.aclKey r.principal)
    ((t.findMany (without keys (rootKeys roots)).toList).map fun _ r => r.principal)

/-- The principals at the end of a walk. -/
def members (named : ExtTreeMap AclKey Principal) (keys : Keys) : List Principal :=
  keys.toList.filterMap fun key => named[key]?

/-- The walks of one principal, put together. -/
def addClosure (named : ExtTreeMap AclKey Principal)
    (closures : ExtTreeMap Principal (ExtTreeSet Principal)) (w : Registration × Keys) :
    ExtTreeMap Principal (ExtTreeSet Principal) :=
  closures.insert w.1.principal
    ((members named w.2).foldl .insert ((closures.getD w.1.principal ∅).insert w.1.principal))

/-- The closures of some roots. -/
def closureMap (t : Tables) (roots : List Registration) :
    ExtTreeMap Principal (ExtTreeSet Principal) :=
  let ws := walks t.memberships roots
  ws.foldl (addClosure (names t.directory roots (walked ws))) ∅

variable {s : State}

theorem reads_load : ∀ (more : Nat) (l : Loaded) (frontier : Keys) {s : State}, s.InMemory →
    (load l frontier more).Reads s (loaded s.tables.memberships l frontier more)
  | 0, l, _, s, _ => Action.reads_pure l s
  | more + 1, l, frontier, s, h => by
    unfold load loaded
    split
    · exact Action.reads_pure l s
    · exact Action.reads_bind (Store.reads_parents h frontier.toList) fun log =>
        reads_load more _ _ (h.withLog log)

/-- The closures are read, whatever keys have to be dropped. -/
theorem reads_closures (h : s.InMemory) (roots : List Registration) :
    (closures roots).Reads s (closureMap s.tables roots) := by
  refine Action.reads_bind (Action.reads_tables s) fun log => ?_
  refine Action.reads_bind (reads_load _ _ _ (h.withLog log)) fun log => ?_
  refine Action.reads_bind (Store.reads_lookupAt (h.withLog log) _) fun log => ?_
  refine Action.reads_bind (Action.reads_forIn _ _ fun w log => ?_) fun log => ?_
  · refine Action.reads_bind (Action.reads_forIn _ _ fun key log => ?_) fun log => ?_
    · split
      · exact Action.reads_bind (Action.reads_say _ _ _ _ _) fun _ => Action.reads_pure _ _
      · exact Action.reads_pure _ _
    · exact Action.reads_pure _ _
  · exact Action.reads_bind (Action.reads_say _ _ _ _ _) fun _ => Action.reads_pure _ _

/-! ### What it means -/

variable {t : Tables} {roots : List Registration}

/-- Known or looked for, the principal at a key is the one that the directory has there. -/
theorem getElem?_names {d : Directory} {keys : Keys} {key : AclKey}
    (hroots : ∀ r ∈ roots, d.findAt? r.aclKey = some r) (hkey : key ∈ keys) :
    (names d roots keys)[key]? = (d.findAt? key).map Registration.principal := by
  let principal? (key : AclKey) : Option Principal := (d.findAt? key).map Registration.principal
  have hnames : names d roots keys =
      (roots.map Registration.aclKey).foldl
        (fun found key => (principal? key).elim found (found.insert key))
        ((d.findMany (without keys (rootKeys roots)).toList).map fun _ r => r.principal) := by
    unfold names
    rw [List.foldl_map]
    refine List.foldl_ext _ _ _ fun found r hr => ?_
    simp only [principal?, hroots r hr, Option.map_some, Option.elim_some]
  rw [hnames, getElem?_foldl_elim, ExtTreeMap.getElem?_map, Directory.getElem?_findMany]
  simp only [ExtTreeSet.mem_toList, mem_without, rootKeys, mem_setOfList, hkey, true_and]
  by_cases hin : key ∈ roots.map Registration.aclKey
  · rw [if_pos hin, if_neg (not_not_intro hin), Option.map_none, Option.or_none]
  · rw [if_neg hin, if_pos hin]

theorem mem_members {named : ExtTreeMap AclKey Principal} {keys : Keys} {q : Principal} :
    q ∈ members named keys ↔ ∃ key ∈ keys, named[key]? = some q := by
  unfold members
  simp only [List.mem_filterMap, ExtTreeSet.mem_toList]

section Fold

variable (named : ExtTreeMap AclKey Principal)

theorem mem_foldl_addClosure (p : Principal) : ∀ (ws : List (Registration × Keys))
    (c : ExtTreeMap Principal (ExtTreeSet Principal)),
    p ∈ ws.foldl (addClosure named) c ↔ p ∈ c ∨ ∃ w ∈ ws, w.1.principal = p
  | [], c => by simp
  | w :: ws, c => by
    rw [List.foldl_cons, mem_foldl_addClosure p ws]
    unfold addClosure
    rw [ExtTreeMap.mem_insert, Std.LawfulEqOrd.compare_eq_iff_eq]
    simp only [List.mem_cons, exists_eq_or_imp]
    rw [or_assoc, or_left_comm]

/-- The closure of a principal gathers what each of its walks ends with. -/
theorem mem_getD_foldl_addClosure (p q : Principal) : ∀ (ws : List (Registration × Keys))
    (c : ExtTreeMap Principal (ExtTreeSet Principal)),
    q ∈ (ws.foldl (addClosure named) c).getD p ∅ ↔
      q ∈ c.getD p ∅ ∨ ∃ w ∈ ws, w.1.principal = p ∧ (q = p ∨ q ∈ members named w.2)
  | [], c => by simp
  | w :: ws, c => by
    have hone : q ∈ (addClosure named c w).getD p ∅ ↔
        q ∈ c.getD p ∅ ∨ (w.1.principal = p ∧ (q = p ∨ q ∈ members named w.2)) := by
      unfold addClosure
      rw [ExtTreeMap.getD_insert]
      simp only [Std.LawfulEqOrd.compare_eq_iff_eq]
      by_cases hp : w.1.principal = p
      · subst hp
        rw [if_pos rfl, mem_foldl_insert, ExtTreeSet.mem_insert,
          Std.LawfulEqOrd.compare_eq_iff_eq]
        constructor
        · rintro ((hq | hq) | hq)
          · exact Or.inr ⟨rfl, Or.inl hq.symm⟩
          · exact Or.inl hq
          · exact Or.inr ⟨rfl, Or.inr hq⟩
        · rintro (hq | ⟨-, hq | hq⟩)
          · exact Or.inl (Or.inr hq)
          · exact Or.inl (Or.inl hq.symm)
          · exact Or.inr hq
      · simp [hp]
    rw [List.foldl_cons, mem_getD_foldl_addClosure p q ws, hone]
    simp only [List.mem_cons, exists_eq_or_imp]
    rw [or_assoc]

end Fold

theorem mem_closureMap {p : Principal} :
    p ∈ closureMap t roots ↔ ∃ r ∈ roots, r.principal = p := by
  unfold closureMap
  rw [mem_foldl_addClosure]
  simp [walks]

theorem mem_walked {ws : List (Registration × Keys)} {key : AclKey} :
    key ∈ walked ws ↔ ∃ w ∈ ws, key ∈ w.2 := by
  unfold walked
  rw [mem_foldl_union (Prod.snd : Registration × Keys → Keys)]
  simp

/-- The walk of a root ends at the principals that are the root or above it. -/
theorem mem_members_walk (h : t.directory.Consistent)
    (hroots : ∀ r ∈ roots, t.directory.find? r.principal = some r) {w : Registration × Keys}
    (hw : w ∈ walks t.memberships roots) {q : Principal} :
    q ∈ members (names t.directory roots (walked (walks t.memberships roots))) w.2 ↔
      q = w.1.principal ∨ ∃ a ∈ ancestorList t w.1, a.principal = q := by
  obtain ⟨r, hr, rfl⟩ := List.mem_map.mp hw
  have hat : ∀ r ∈ roots, t.directory.findAt? r.aclKey = some r := fun r hr =>
    (Directory.findAt?_eq_some_iff h).mpr ⟨hroots r hr, rfl⟩
  have hroot : r.aclKey ∈ rootKeys roots := mem_setOfList.mpr (List.mem_map_of_mem hr)
  have hwalk : ∀ key, key ∈ walk (loadedFor t.memberships (rootKeys roots)).parents r.aclKey ↔
      key = r.aclKey ∨ Above t.memberships r.aclKey key := fun key => mem_walk_loadedFor hroot
  rw [mem_members]
  constructor
  · rintro ⟨key, hkey, hq⟩
    rw [getElem?_names hat (mem_walked.mpr ⟨_, hw, hkey⟩), Option.map_eq_some_iff] at hq
    obtain ⟨a, ha, rfl⟩ := hq
    rcases (hwalk key).mp hkey with rfl | habove
    · obtain rfl := Option.some.inj ((hat r hr).symm.trans ha)
      exact Or.inl rfl
    · obtain ⟨hfind, rfl⟩ := (Directory.findAt?_eq_some_iff h).mp ha
      exact Or.inr ⟨a, (mem_ancestorList h).mpr ⟨hfind, habove⟩, rfl⟩
  · have hend : ∀ a : Registration, t.directory.findAt? a.aclKey = some a →
        a.aclKey ∈ walk (loadedFor t.memberships (rootKeys roots)).parents r.aclKey →
        (names t.directory roots (walked (walks t.memberships roots)))[a.aclKey]? =
          some a.principal := by
      intro a ha hkey
      rw [getElem?_names hat (mem_walked.mpr ⟨_, hw, hkey⟩), ha, Option.map_some]
    rintro (rfl | ⟨a, ha, rfl⟩)
    · have hkey := (hwalk r.aclKey).mpr (Or.inl rfl)
      exact ⟨r.aclKey, hkey, hend r (hat r hr) hkey⟩
    · obtain ⟨hfind, habove⟩ := (mem_ancestorList h).mp ha
      have hkey := (hwalk a.aclKey).mpr (Or.inr habove)
      exact ⟨a.aclKey, hkey, hend a ((Directory.findAt?_eq_some_iff h).mpr ⟨hfind, rfl⟩) hkey⟩

/-- The closure of a root is the root and its ancestors, whatever the other roots are. -/
theorem getElem?_closureMap (h : t.directory.Consistent)
    (hroots : ∀ r ∈ roots, t.directory.find? r.principal = some r) {r : Registration}
    (hr : r ∈ roots) :
    ∃ closure : ExtTreeSet Principal, (closureMap t roots)[r.principal]? = some closure ∧
      ∀ q, q ∈ closure ↔ q = r.principal ∨ ∃ a ∈ ancestorList t r, a.principal = q := by
  obtain ⟨closure, hclosure⟩ : ∃ closure, (closureMap t roots)[r.principal]? = some closure :=
    Option.isSome_iff_exists.mp
      (ExtTreeMap.mem_iff_isSome_getElem?.mp (mem_closureMap.mpr ⟨r, hr, rfl⟩))
  have hgetD : (closureMap t roots).getD r.principal ∅ = closure := by
    rw [ExtTreeMap.getD_eq_getD_getElem?, hclosure, Option.getD_some]
  refine ⟨closure, hclosure, fun q => ?_⟩
  rw [← hgetD, closureMap, mem_getD_foldl_addClosure]
  constructor
  · rintro (hq | ⟨w, hw, hp, hq⟩)
    · simp at hq
    · have hsame : w.1 = r := by
        obtain ⟨r', hr', rfl⟩ := List.mem_map.mp hw
        have hfind := hroots r' hr'
        rw [hp, hroots r hr] at hfind
        exact (Option.some.inj hfind).symm
      rcases hq with hq | hq
      · exact Or.inl hq
      · rwa [mem_members_walk h hroots hw, hsame] at hq
  · intro hq
    have hw : (r, walk (loadedFor t.memberships (rootKeys roots)).parents r.aclKey) ∈
        walks t.memberships roots := List.mem_map_of_mem hr
    exact Or.inr ⟨_, hw, rfl, Or.inr ((mem_members_walk h hroots hw).mpr hq)⟩

/-- **Closures are reachability.** Whoever asks for the closures of some registered
principals gets one for each of them. It holds the principal and its ancestors, and is the
one that the principal gets alone. The ancestors are the registered principals that one or
more memberships lead to, so that a principal is its own ancestor exactly on a cycle. -/
theorem closures_are_reachability (h : s.InMemory) (changes : List Directory.Change)
    (hd : s.tables.directory = Directory.after changes) (roots : List Registration)
    (hroots : ∀ r ∈ roots, s.tables.directory.find? r.principal = some r) :
    ∃ closed, (closures roots).Reads s closed ∧
      (∀ p, p ∈ closed ↔ ∃ r ∈ roots, r.principal = p) ∧
      ∀ r ∈ roots, ∃ (above : List Registration) (closure : ExtTreeSet Principal)
          (alone : ExtTreeMap Principal (ExtTreeSet Principal)),
        (ancestors r).Reads s above ∧ (closures [r]).Reads s alone ∧
        closed[r.principal]? = some closure ∧ alone[r.principal]? = some closure ∧
        (∀ q, q ∈ closure ↔ q = r.principal ∨ ∃ a ∈ above, a.principal = q) ∧
        above.Nodup ∧
        (∀ a, a ∈ above ↔ s.tables.directory.find? a.principal = some a ∧
          Above s.tables.memberships r.aclKey a.aclKey) ∧
        (r ∈ above ↔ Above s.tables.memberships r.aclKey r.aclKey) := by
  have hc : s.tables.directory.Consistent := hd ▸ Directory.consistent_after changes
  refine ⟨closureMap s.tables roots, reads_closures h roots, fun p => mem_closureMap, ?_⟩
  intro r hr
  obtain ⟨closure, hclosure, hmem⟩ := getElem?_closureMap hc hroots hr
  have hroot : ∀ r' ∈ [r], s.tables.directory.find? r'.principal = some r' := by
    intro r' hr'
    obtain rfl := List.mem_singleton.mp hr'
    exact hroots r' hr
  obtain ⟨alone, halone, hmem'⟩ := getElem?_closureMap hc hroot List.mem_cons_self
  have hsame : alone = closure := ExtTreeSet.ext_mem fun q => (hmem' q).trans (hmem q).symm
  refine ⟨ancestorList s.tables r, closure, closureMap s.tables [r], reads_ancestors h r,
    reads_closures h [r], hclosure, hsame ▸ halone, hmem, nodup_ancestorList hc r,
    fun a => mem_ancestorList hc, ?_⟩
  rw [mem_ancestorList hc, and_iff_right (hroots r hr)]

/-- A principal whose only way up leads to a key that nobody has, and from there back. -/
theorem own_ancestor_on_cycle :
    let r : Registration := default
    let nobody : AclKey := .single (.system 1)
    let s : State := { State.start {} ⟨0, 0⟩ with
      tables := { Tables.empty with
        directory := Directory.after [.add r]
        memberships := Index.add (Index.add ∅ r.aclKey nobody) nobody r.aclKey } }
    ∃ above, (ancestors r).Reads s above ∧ r ∈ above := by
  intro r nobody s
  have hr : s.tables.directory.find? r.principal = some r := by decide
  obtain ⟨_, -, -, h⟩ := closures_are_reachability (s := s) ⟨rfl, rfl⟩ [.add r] rfl [r]
    (by simpa using hr)
  obtain ⟨above, _, _, habove, -, -, -, -, -, -, hcycle⟩ := h r List.mem_cons_self
  refine ⟨above, habove, hcycle.mpr ?_⟩
  exact .tail (.single (b := nobody) (by decide)) (by decide)

end AccessRegistry.Graph
