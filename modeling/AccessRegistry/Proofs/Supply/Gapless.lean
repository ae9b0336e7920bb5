/-
# Minting leaves no gaps

Cursors are given to partitions and identifiers are taken from them in any order. Of each
partition the identifiers that are minted follow one another: they begin where the partition
was at first, and end right before the place where it is at last. A scroll takes the same
number from a partition each time that it is listed, or says that too few are left and leaves
the partition where it is.

Key definitions: `Cursors.place`, `Cursors.stretch`, `Cursors.Gapless`, `Cursors.Scrolled`,
`Drawing`, `State.mint`.
Key theorems: `Cursors.Gapless.append`, `Cursors.gapless_scroll`, `Cursors.scrolled_scroll`,
`State.gapless_mint`, `State.minting_is_gapless`.
-/
import AccessRegistry.Proofs.Actions
import AccessRegistry.Proofs.Supply.Minting

namespace AccessRegistry

namespace Cursors

open Std (ExtTreeMap)

variable {t t' t'' : Cursors} {p q : Partition} {c : Cursor} {count first middle last : Nat}
  {ids ids' : List Identifier}

/-- The counter that is minted next in a partition. One that has no cursor yet begins at zero,
and partition zero after the reserved identifiers. -/
def place (t : Cursors) (p : Partition) : Nat :=
  match t[p]? with
  | some c => c.next.counter
  | none => if p = 0 then reservedCount else 0

theorem counter_start (p : Partition) :
    (Cursor.start p).next.counter = if p = 0 then reservedCount else 0 := by
  unfold Cursor.start
  rw [Cursor.next_pointingTo, Identifier.counter_ofParts]
  split <;> rfl

theorem place_eq (t : Cursors) (p : Partition) : t.place p = (t.current p).next.counter := by
  unfold place current
  rw [ExtTreeMap.getD_eq_getD_getElem?]
  cases t[p]? with
  | none => exact (counter_start p).symm
  | some c => rfl

theorem place_lt (t : Cursors) (p : Partition) : t.place p < counterLimit := by
  rw [place_eq]
  exact Nat.mod_lt _ (by decide)

theorem place_insert : place (t.insert p c) q = if p = q then c.next.counter else t.place q := by
  rw [place_eq, place_eq, current_insert]
  split <;> rfl

/-- The identifiers of a partition from one counter up to another. -/
def stretch (p : Partition) (first last : Nat) : List Identifier :=
  (List.range' first (last - first)).map (.ofParts p)

theorem stretch_self (p : Partition) (first : Nat) : stretch p first first = [] := by
  unfold stretch
  rw [Nat.sub_self]
  rfl

theorem stretch_append (h : first ≤ middle) (h' : middle ≤ last) :
    stretch p first middle ++ stretch p middle last = stretch p first last := by
  have hsum : last - first = (middle - first) + (last - middle) := by omega
  have hmiddle : first + 1 * (middle - first) = middle := by omega
  unfold stretch
  rw [← List.map_append, hsum, ← List.range'_append, hmiddle]

theorem filter_stretch (p q : Partition) (first last : Nat) :
    (stretch p first last).filter (·.partition = q) =
      if p = q then stretch p first last else [] := by
  have hpartition : ∀ id ∈ stretch p first last, id.partition = p := by
    intro id hid
    obtain ⟨i, -, rfl⟩ := List.mem_map.mp hid
    exact Identifier.partition_ofParts p i
  by_cases hpq : p = q
  · rw [if_pos hpq, List.filter_eq_self]
    intro id hid
    exact decide_eq_true ((hpartition id hid).trans hpq)
  · rw [if_neg hpq, List.filter_eq_nil_iff]
    intro id hid hq
    exact hpq ((hpartition id hid).symm.trans (of_decide_eq_true hq))

/-- What a cursor gives is a stretch from its place on. -/
theorem advance_stretch {c' : Cursor} (h : c.advance? count = some (ids, c')) :
    ids = stretch c.partition c.next.counter (c.next.counter + count) := by
  obtain ⟨-, rfl, -⟩ := Cursor.advance?_eq_some h
  unfold stretch
  rw [Nat.add_sub_cancel_left, List.range'_eq_map_range, List.map_map]
  rfl

/-- Between two tables of cursors identifiers were minted: of each partition, those from its
place in the one up to its place in the other. -/
structure Gapless (t t' : Cursors) (ids : List Identifier) : Prop where
  filed : t'.Filed
  le : ∀ p, t.place p ≤ t'.place p
  ids : ∀ p, ids.filter (·.partition = p) = stretch p (t.place p) (t'.place p)

theorem gapless_of_place (h : t'.Filed) (hplace : ∀ p, t'.place p = t.place p) :
    Gapless t t' [] where
  filed := h
  le p := Nat.le_of_eq (hplace p).symm
  ids p := by
    rw [hplace, stretch_self]
    rfl

/-- What is minted later goes on where it ended before. -/
theorem Gapless.append (h : Gapless t t' ids) (h' : Gapless t' t'' ids') :
    Gapless t t'' (ids ++ ids') where
  filed := h'.filed
  le p := Nat.le_trans (h.le p) (h'.le p)
  ids p := by
    rw [List.filter_append, h.ids, h'.ids]
    exact stretch_append (h.le p) (h'.le p)

theorem gapless_ensure (h : t.Filed) (count : Nat) : Gapless t (t.ensure count) [] :=
  gapless_of_place (filed_ensure h count) fun p => by
    rw [place_eq, place_eq, current_ensure]

/-- A partition that has too few left stays where it is. -/
theorem gapless_current (h : t.Filed) (p : Partition) : Gapless t (t.insert p (t.current p)) [] :=
  gapless_of_place (filed_insert h (partition_current h p)) fun q => by
    rw [place_insert, place_eq t q]
    split
    · rename_i hpq
      rw [hpq]
    · rfl

theorem gapless_advance (h : t.Filed) (ha : (t.current p).advance? count = some (ids, c)) :
    Gapless t (t.insert p c) ids := by
  obtain ⟨-, -, hpartition, hcounter⟩ := Cursor.advance?_eq_some ha
  have hids := advance_stretch ha
  rw [partition_current h] at hids hpartition
  rw [← place_eq] at hids hcounter
  refine ⟨filed_insert h hpartition, fun q => ?_, fun q => ?_⟩
  · rw [place_insert]
    split
    · rename_i hpq
      subst hpq
      omega
    · exact Nat.le_refl _
  · rw [hids, filter_stretch, place_insert]
    split
    · rename_i hpq
      subst hpq
      rw [hcounter]
    · rw [stretch_self]

/-- A scroll leaves no gaps. -/
theorem gapless_scroll (count : Nat) : ∀ (ps : List Partition) {t : Cursors}, t.Filed →
    Gapless t (scroll count ps t).2 (scroll count ps t).1.ids
  | [], _, h => gapless_of_place h fun _ => rfl
  | p :: ps, t, h => by
    unfold scroll
    cases ha : (t.current p).advance? count with
    | none =>
      have hone := gapless_current h p
      exact hone.append (gapless_scroll count ps hone.filed)
    | some found =>
      have hone := gapless_advance h ha
      exact hone.append (gapless_scroll count ps hone.filed)

/-! ### One scroll -/

/-- What a scroll does to each partition: each time that it is listed it moves by the count, or
is reported because it has too few left. -/
structure Scrolled (count : Nat) (ps : List Partition) (t t' : Cursors)
    (exhausted : List Partition) : Prop where
  reported : ∀ p, exhausted.count p ≤ ps.count p
  moved : ∀ p, t'.place p = t.place p + (ps.count p - exhausted.count p) * count
  short : ∀ p ∈ exhausted, counterLimit ≤ t'.place p + count
  /-- A partition that is reported each time keeps its cursor. -/
  kept : ∀ p, exhausted.count p = ps.count p → t'.current p = t.current p
  /-- One that is not listed is not touched. -/
  untouched : ∀ p, p ∉ ps → t'[p]? = t[p]?

/-- One scroll after the other is a scroll of all that is listed. -/
theorem Scrolled.append {ps qs exhausted exhausted' : List Partition}
    (h : Scrolled count ps t t' exhausted) (h' : Scrolled count qs t' t'' exhausted') :
    Scrolled count (ps ++ qs) t t'' (exhausted ++ exhausted') where
  reported p := by
    rw [List.count_append, List.count_append]
    exact Nat.add_le_add (h.reported p) (h'.reported p)
  moved p := by
    have hr := h.reported p
    have hr' := h'.reported p
    have hsplit : ps.count p + qs.count p - (exhausted.count p + exhausted'.count p) =
        (ps.count p - exhausted.count p) + (qs.count p - exhausted'.count p) := by omega
    rw [h'.moved, h.moved, List.count_append, List.count_append, hsplit, Nat.add_mul,
      Nat.add_assoc]
  short p hp := by
    rcases List.mem_append.mp hp with hp | hp
    · have hfar : t'.place p ≤ t''.place p := by
        rw [h'.moved]
        exact Nat.le_add_right _ _
      exact Nat.le_trans (h.short p hp) (Nat.add_le_add_right hfar count)
    · exact h'.short p hp
  kept p hp := by
    rw [List.count_append, List.count_append] at hp
    have hr := h.reported p
    have hr' := h'.reported p
    rw [h'.kept p (by omega), h.kept p (by omega)]
  untouched p hp := by
    rw [List.mem_append, not_or] at hp
    rw [h'.untouched p hp.2, h.untouched p hp.1]

theorem getElem?_insert_of_not_mem (h : q ∉ [p]) : (t.insert p c)[q]? = t[q]? := by
  rw [ExtTreeMap.getElem?_insert, if_neg]
  simp only [Std.LawfulEqOrd.compare_eq_iff_eq]
  exact fun he => h (he ▸ List.mem_cons_self)

theorem scrolled_current (ha : (t.current p).advance? count = none) :
    Scrolled count [p] t (t.insert p (t.current p)) [p] where
  reported q := Nat.le_refl _
  moved q := by
    rw [Nat.sub_self, Nat.zero_mul, Nat.add_zero, place_insert, place_eq t q]
    split
    · rename_i hpq
      rw [hpq]
    · rfl
  short q hq := by
    obtain rfl := List.mem_singleton.mp hq
    rw [place_insert, if_pos rfl]
    exact Cursor.advance?_eq_none ha
  kept q _ := by
    rw [current_insert]
    split
    · rename_i hpq
      rw [hpq]
    · rfl
  untouched q hq := getElem?_insert_of_not_mem hq

theorem scrolled_advance (ha : (t.current p).advance? count = some (ids, c)) :
    Scrolled count [p] t (t.insert p c) [] where
  reported q := Nat.zero_le _
  moved q := by
    obtain ⟨-, -, -, hcounter⟩ := Cursor.advance?_eq_some ha
    rw [place_insert, List.count_nil, Nat.sub_zero, List.count_singleton]
    by_cases hpq : p = q
    · subst hpq
      rw [if_pos rfl, hcounter, place_eq, beq_self_eq_true, if_pos rfl, Nat.one_mul]
    · rw [if_neg hpq, beq_false_of_ne hpq, if_neg Bool.false_ne_true, Nat.zero_mul, Nat.add_zero]
  short q hq := absurd hq List.not_mem_nil
  kept q hq := by
    rw [List.count_nil, List.count_singleton] at hq
    rw [current_insert, if_neg]
    rintro rfl
    rw [beq_self_eq_true, if_pos rfl] at hq
    cases hq
  untouched q hq := getElem?_insert_of_not_mem hq

/-- A scroll moves each partition or reports it, as often as it is listed. -/
theorem scrolled_scroll (count : Nat) : ∀ (ps : List Partition) (t : Cursors),
    Scrolled count ps t (scroll count ps t).2 (scroll count ps t).1.exhausted
  | [], t =>
    { reported := fun _ => Nat.le_refl _
      moved := fun _ => by rw [scroll, Nat.sub_self, Nat.zero_mul, Nat.add_zero]
      short := fun _ hp => absurd hp List.not_mem_nil
      kept := fun _ _ => rfl
      untouched := fun _ _ => rfl }
  | p :: ps, t => by
    unfold scroll
    cases ha : (t.current p).advance? count with
    | none => exact (scrolled_current ha).append (scrolled_scroll count ps _)
    | some found => exact (scrolled_advance ha).append (scrolled_scroll count ps _)

/-- A partition that has a cursor keeps it when others get their first one. -/
theorem getElem?_ensure (h : t[p]? = some c) (count : Nat) : (t.ensure count)[p]? = some c := by
  have hone : ∀ (q : Partition) {t : Cursors}, t[p]? = some c → (t.ensureOne q)[p]? = some c := by
    intro q t ht
    unfold ensureOne
    rw [ExtTreeMap.getElem?_insertIfNew, if_neg, ht]
    rintro ⟨hqp, hmissing⟩
    rw [Std.LawfulEqOrd.compare_eq_iff_eq] at hqp
    subst hqp
    exact hmissing (ExtTreeMap.mem_iff_isSome_getElem?.mpr (Option.isSome_of_eq_some ht))
  have hfold : ∀ (ps : List Partition) {t : Cursors}, t[p]? = some c →
      (ps.foldl ensureOne t)[p]? = some c := by
    intro ps
    induction ps with
    | nil => exact fun ht => ht
    | cons q ps ih => exact fun ht => ih (hone q ht)
  exact hfold _ h

/-- What is minted from no cursors on is not reserved. -/
theorem Gapless.not_isReserved (h : Gapless ∅ t ids) : ∀ id ∈ ids, ¬ id.IsReserved := by
  rintro id hid ⟨hpartition, hcounter⟩
  have hmem : id ∈ ids.filter (·.partition = 0) :=
    List.mem_filter.mpr ⟨hid, decide_eq_true hpartition⟩
  have hbegin : place ∅ 0 = reservedCount := by
    unfold place
    rw [ExtTreeMap.getElem?_empty]
    rfl
  rw [h.ids, hbegin] at hmem
  obtain ⟨i, hi, rfl⟩ := List.mem_map.mp hmem
  have hlast := place_lt t 0
  rw [List.mem_range'_1] at hi
  rw [Identifier.counter_ofParts, Nat.mod_eq_of_lt (by omega)] at hcounter
  omega

end Cursors

/-! ### Runs -/

/-- The state with other cursors. -/
def State.withCursors (s : State) (cursors : Cursors) : State :=
  { s with tables := { s.tables with cursors } }

/-- What is asked of the table of cursors. -/
inductive Drawing where
  /-- The first `count` partitions get their first cursors, if they have none. -/
  | ensure (count : Nat)
  /-- So many identifiers are taken from each partition of a list. -/
  | scroll (ps : List Partition) (count : Nat)

/-- What is done, and the identifiers that are minted. -/
def Drawing.action : Drawing → Action (List Identifier)
  | ensure count => do
    Store.ensureCursors count
    return []
  | scroll ps count => return (← Store.scroll ps count).ids

namespace State

/-- All that is minted when some things are asked one after the other, and the state after
them. -/
def mint (s : State) : List Drawing → List Identifier × State
  | [] => ([], s)
  | d :: ds =>
    match d.action.perform s with
    | (.ok ids, s') =>
      let (rest, s'') := s'.mint ds
      (ids ++ rest, s'')
    | (.error _, s') => s'.mint ds

variable {s : State}

theorem perform_ensureCursors (hs : s.InMemory) (count : Nat) :
    (Store.ensureCursors count).perform s =
      (.ok (), s.withCursors (s.tables.cursors.ensure count)) := Action.perform_change hs _ _

theorem perform_scroll (hs : s.InMemory) (ps : List Partition) (count : Nat) :
    (Store.scroll ps count).perform s =
      (.ok (Cursors.scroll count ps s.tables.cursors).1,
        s.withCursors (Cursors.scroll count ps s.tables.cursors).2) := Action.perform_change hs _ _

/-- Whatever is asked, nothing fails and no gap is left. -/
theorem gapless_action (hs : s.InMemory) (h : s.tables.cursors.Filed) (d : Drawing) :
    ∃ ids cursors, d.action.perform s = (.ok ids, s.withCursors cursors) ∧
      Cursors.Gapless s.tables.cursors cursors ids := by
  cases d with
  | ensure count =>
    refine ⟨[], s.tables.cursors.ensure count, ?_, Cursors.gapless_ensure h count⟩
    unfold Drawing.action
    rw [Action.perform_bind, perform_ensureCursors hs]
    rfl
  | scroll ps count =>
    refine ⟨_, _, ?_, Cursors.gapless_scroll count ps h⟩
    unfold Drawing.action
    rw [Action.perform_bind, perform_scroll hs]
    rfl

/-- A run leaves no gaps, either. -/
theorem gapless_mint : ∀ (ds : List Drawing) {s : State}, s.InMemory → s.tables.cursors.Filed →
    (s.mint ds).2.InMemory ∧
      Cursors.Gapless s.tables.cursors (s.mint ds).2.tables.cursors (s.mint ds).1
  | [], s, hs, h => ⟨hs, Cursors.gapless_of_place h fun _ => rfl⟩
  | d :: ds, s, hs, h => by
    obtain ⟨ids, cursors, hperform, hone⟩ := gapless_action hs h d
    have hs' : (s.withCursors cursors).InMemory := ⟨hs.storage, hs.outages⟩
    obtain ⟨hs'', hrest⟩ := gapless_mint ds hs' hone.filed
    unfold mint
    rw [hperform]
    exact ⟨hs'', hone.append hrest⟩

/-- **Minting leaves no gaps.** Whatever is asked of cursors that are filed under their own
partitions, as all are that were ever saved: the identifiers of a partition that are minted are
those with the counters from its first place up to its last one, in order. In every state that
is come to, cursors that are there are kept when others get their first one, and a scroll moves
each partition by the count or reports it, each time that it is listed, and touches no other.
Nothing that is reserved is minted from the beginning on. -/
theorem minting_is_gapless (hs : s.InMemory) (h : s.tables.cursors.Filed) (ds : List Drawing)
    {ids : List Identifier} {s' : State} (hmint : s.mint ds = (ids, s')) :
    (∀ p, s.tables.cursors.place p ≤ s'.tables.cursors.place p ∧
      ids.filter (·.partition = p) =
        Cursors.stretch p (s.tables.cursors.place p) (s'.tables.cursors.place p)) ∧
    (∀ count, ∃ cursors : Cursors,
      (Store.ensureCursors count).perform s' = (.ok (), s'.withCursors cursors) ∧
        ∀ (p : Partition) (c : Cursor), s'.tables.cursors[p]? = some c → cursors[p]? = some c) ∧
    (∀ ps count, ∃ r cursors,
      (Store.scroll ps count).perform s' = (.ok r, s'.withCursors cursors) ∧
        Cursors.Scrolled count ps s'.tables.cursors cursors r.exhausted) ∧
    (s.tables.cursors = ∅ → ∀ id ∈ ids, ¬ id.IsReserved) := by
  obtain ⟨hs', hgapless⟩ := gapless_mint ds hs h
  rw [hmint] at hs' hgapless
  refine ⟨fun p => ⟨hgapless.le p, hgapless.ids p⟩, fun count => ?_, fun ps count => ?_,
    fun hempty => ?_⟩
  · exact ⟨_, perform_ensureCursors hs' count, fun _ _ hc => Cursors.getElem?_ensure hc count⟩
  · exact ⟨_, _, perform_scroll hs' ps count, Cursors.scrolled_scroll count ps _⟩
  · rw [hempty] at hgapless
    exact hgapless.not_isReserved

/-- A partition that is listed twice gives twice, partition zero begins after the reserved
identifiers, and a partition that is asked for too many is reported and keeps its place. -/
theorem asked_for_too_many :
    let s := State.start {} ⟨0, 0⟩
    let ds : List Drawing := [.ensure 2, .scroll [0, 5, 0] 2, .ensure 10, .scroll [5, 0] 1]
    ∃ ids s', s.mint ds = (ids, s') ∧
      ids = [.ofParts 0 1024, .ofParts 0 1025, .ofParts 5 0, .ofParts 5 1, .ofParts 0 1026,
        .ofParts 0 1027, .ofParts 5 2, .ofParts 0 1028] ∧
      ids.filter (·.partition = 5) = Cursors.stretch 5 0 3 ∧ (∀ id ∈ ids, ¬ id.IsReserved) ∧
      ∃ r cursors, (Store.scroll [5] counterLimit).perform s' = (.ok r, s'.withCursors cursors) ∧
        5 ∈ r.exhausted ∧ cursors.place 5 = 3 := by
  intro s ds
  have hs : s.InMemory := ⟨rfl, rfl⟩
  have hminted : (s.mint ds).1 = [.ofParts 0 1024, .ofParts 0 1025, .ofParts 5 0, .ofParts 5 1,
      .ofParts 0 1026, .ofParts 0 1027, .ofParts 5 2, .ofParts 0 1028] := by decide +kernel
  have hfirst : s.tables.cursors.place 5 = 0 := by decide +kernel
  have hlast : (s.mint ds).2.tables.cursors.place 5 = 3 := by decide +kernel
  obtain ⟨⟨ids, s'⟩, hmint⟩ : ∃ out, s.mint ds = out := ⟨_, rfl⟩
  rw [hmint] at hminted hlast
  obtain ⟨hstretch, -, hscroll, hreserved⟩ :=
    minting_is_gapless hs Cursors.filed_empty ds hmint
  obtain ⟨r, cursors, hperform, hscrolled⟩ := hscroll [5] counterLimit
  -- it cannot have been moved: its place would be beyond the partition
  have hlimit := Cursors.place_lt cursors 5
  have hmoved := hscrolled.moved 5
  have hreported := hscrolled.reported 5
  rw [List.count_singleton_self] at hmoved hreported
  rw [hlast] at hmoved
  have hone : r.exhausted.count 5 = 1 := by
    by_contra hne
    have hzero : r.exhausted.count 5 = 0 := by omega
    rw [hzero] at hmoved
    omega
  refine ⟨ids, s', hmint, hminted, ?_, hreserved rfl, r, cursors, hperform, ?_, ?_⟩
  · rw [(hstretch 5).2, hfirst, hlast]
  · exact List.count_pos_iff.mp (by omega)
  · rw [hmoved, hone]
    rfl

end State
end AccessRegistry
