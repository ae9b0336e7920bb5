/-
# What a round brings

A round that gets the lock at once asks each active partition for as many identifiers as a
scroll has. A partition that has as many left is moved by that many, and one that has not stays
where it is and is retired. Of what the partitions were moved past, what is not reserved comes
into the queue, one partition after the other in their order. The lock is free again then. A
round that waits for the lock in vain, or has no partition to ask, does nothing.

Key definitions: `Replenisher.Brings`, `Replenisher.lastTry`.
Key theorems: `Cursors.ids_scroll`, `Cursors.Scrolled.mem_exhausted`, `Replenisher.brings_scroll`,
`Replenisher.perform_round_room`, `Replenisher.round_is_accounted_for`.
-/
import AccessRegistry.Proofs.Supply.Minters
import AccessRegistry.Proofs.Supply.Rounds

namespace AccessRegistry

open AccessRegistry.Action

namespace Cursors

variable {t t' : Cursors} {p q : Partition} {count : Nat} {ps exhausted : List Partition}

theorem place_congr (h : t'[p]? = t[p]?) : t'.place p = t.place p := by
  unfold place
  rw [h]

theorem Scrolled.mem_exhausted (h : Scrolled count ps t t' exhausted) (hps : ps.Nodup) :
    p ∈ exhausted ↔ p ∈ ps ∧ counterLimit ≤ t.place p + count := by
  have hreported := h.reported p
  have hmoved := h.moved p
  constructor
  · intro hp
    have hlisted : ps.count p ≤ 1 := List.nodup_iff_count_le_one.mp hps p
    have hpositive : 0 < exhausted.count p := List.count_pos_iff.mpr hp
    have hstays : ps.count p - exhausted.count p = 0 := by omega
    rw [hstays, Nat.zero_mul, Nat.add_zero] at hmoved
    exact ⟨List.count_pos_iff.mp (by omega), hmoved ▸ h.short p hp⟩
  · rintro ⟨hp, hshort⟩
    by_contra hnot
    -- it was moved then, out of the partition
    rw [List.count_eq_zero_of_not_mem hnot, List.count_eq_one_of_mem hps hp, Nat.sub_zero,
      Nat.one_mul] at hmoved
    have hlt := place_lt t' p
    omega

theorem Scrolled.place_eq_add (h : Scrolled count ps t t' exhausted) (hps : ps.Nodup)
    (hp : p ∈ ps) (hnot : p ∉ exhausted) : t'.place p = t.place p + count := by
  have hmoved := h.moved p
  rwa [List.count_eq_zero_of_not_mem hnot, List.count_eq_one_of_mem hps hp, Nat.sub_zero,
    Nat.one_mul] at hmoved

theorem Scrolled.current_eq (h : Scrolled count ps t t' exhausted) (hps : ps.Nodup)
    (hp : p ∈ exhausted) : t'.current p = t.current p := by
  refine h.kept p (Nat.le_antisymm (h.reported p) ?_)
  exact Nat.le_trans (List.nodup_iff_count_le_one.mp hps p) (List.count_pos_iff.mpr hp)

/-- A scroll gives what the partitions were moved past, one after the other. -/
theorem ids_scroll (count : Nat) : ∀ (ps : List Partition) {t : Cursors}, t.Filed → ps.Nodup →
    (scroll count ps t).1.ids =
      ps.flatMap fun p => stretch p (t.place p) ((scroll count ps t).2.place p)
  | [], _, _, _ => rfl
  | p :: ps, t, h, hnodup => by
    obtain ⟨hp, hps⟩ := List.nodup_cons.mp hnodup
    -- what the first one does is seen by none of the others, and stays as it is
    have hrest : ∀ {c : Cursor}, c.partition = p →
        (scroll count ps (t.insert p c)).1.ids = (ps.flatMap fun q =>
          stretch q (t.place q) ((scroll count ps (t.insert p c)).2.place q)) ∧
        (scroll count ps (t.insert p c)).2.place p = c.next.counter := by
      intro c hc
      constructor
      · rw [ids_scroll count ps (filed_insert h hc) hps]
        refine List.flatMap_congr fun q hq => ?_
        rw [place_insert, if_neg fun hpq : p = q => hp (hpq ▸ hq)]
      · rw [place_congr ((scrolled_scroll count ps _).untouched p hp), place_insert, if_pos rfl]
    unfold scroll
    rw [List.flatMap_cons]
    cases ha : (t.current p).advance? count with
    | none =>
      obtain ⟨hids, hplace⟩ := hrest (partition_current h p)
      dsimp only
      rw [hids, hplace, ← place_eq, stretch_self, List.nil_append]
    | some found =>
      obtain ⟨ids, c⟩ := found
      obtain ⟨-, -, hpartition, hcounter⟩ := Cursor.advance?_eq_some ha
      have hgiven := advance_stretch ha
      rw [partition_current h] at hgiven hpartition
      rw [← place_eq] at hgiven hcounter
      obtain ⟨hids, hplace⟩ := hrest hpartition
      dsimp only
      rw [hids, hplace, hcounter, ← hgiven]

end Cursors

theorem Queue.push?_of_hasRoom {q : Queue} (h : q.hasRoom = true) (batch : List Identifier) :
    q.push? batch = some ⟨q.capacity, q.items ++ batch⟩ := by
  unfold push?
  rw [if_pos h]
  split
  · rename_i hempty
    rw [List.isEmpty_iff.mp hempty, List.append_nil]
  · rfl

namespace Replenisher

variable {r r' : Replenisher} {s : State} {t t' : Cursors} {q : Partition}

/-- The active partitions are those that the settings name and that are not retired. -/
theorem mem_active : q ∈ r.active ↔ q.toNat < r.settings.partitions ∧ q ∉ r.retired := by
  have hlt : q.toNat < partitionCount := q.toNat_lt
  unfold active
  rw [List.mem_filter, List.mem_map, decide_eq_true_eq]
  refine and_congr_left fun _ => ⟨?_, fun h => ?_⟩
  · rintro ⟨n, hn, rfl⟩
    have hn := List.mem_range.mp hn
    rw [UInt16.toNat_ofNat_of_lt' (Nat.lt_of_lt_of_le hn (Nat.min_le_right _ _))]
    exact Nat.lt_of_lt_of_le hn (Nat.min_le_left _ _)
  · exact ⟨q.toNat, List.mem_range.mpr (Nat.lt_min.mpr ⟨h, hlt⟩), UInt16.ofNat_toNat⟩

theorem active_ascending (r : Replenisher) : r.active.Pairwise (· < ·) := by
  have hmin : min r.settings.partitions partitionCount ≤ partitionCount := Nat.min_le_right _ _
  unfold active
  refine List.Pairwise.filter _ (List.pairwise_map.mpr ?_)
  refine List.Pairwise.imp_of_mem ?_ List.pairwise_lt_range
  intro m n hm hn hmn
  have hm := Nat.lt_of_lt_of_le (List.mem_range.mp hm) hmin
  have hn := Nat.lt_of_lt_of_le (List.mem_range.mp hn) hmin
  rwa [UInt16.lt_iff_toNat_lt, UInt16.toNat_ofNat_of_lt' hm, UInt16.toNat_ofNat_of_lt' hn]

theorem active_nodup (r : Replenisher) : r.active.Nodup :=
  r.active_ascending.imp fun hlt => UInt16.ne_of_lt hlt

theorem mem_retire {exhausted : List Partition} :
    q ∈ (r.retire exhausted).retired ↔ q ∈ r.retired ∨ q ∈ exhausted :=
  mem_foldl_insert q exhausted r.retired

/-! ### What is brought -/

/-- What a round makes of a replenisher and of the cursors, and what it brings. -/
structure Brings (r r' : Replenisher) (t t' : Cursors) (batch : List Identifier) : Prop where
  settings : r'.settings = r.settings
  /-- Those are retired that have too few left. -/
  retired : ∀ q, q ∈ r'.retired ↔
    q ∈ r.retired ∨ q ∈ r.active ∧ counterLimit ≤ t.place q + r.settings.scrollSize
  moved : ∀ q ∈ r.active, q ∉ r'.retired → t'.place q = t.place q + r.settings.scrollSize
  stayed : ∀ q ∈ r.active, q ∈ r'.retired → t'.current q = t.current q
  untouched : ∀ q, q ∉ r.active → t'[q]? = t[q]?
  filed : t.Filed → t'.Filed
  /-- What the partitions were moved past, but for what is reserved; each has a cursor of its own,
  as all have that were ever saved. -/
  batch : t.Filed → batch = (r.active.flatMap fun q =>
    Cursors.stretch q (t.place q) (t'.place q)).filter fun id => ¬ id.IsReserved

/-- A scroll of the active partitions brings what it gives. -/
theorem brings_scroll {scrolled : Scroll}
    (hscroll : Cursors.scroll r.settings.scrollSize r.active t = (scrolled, t')) :
    Brings r (r.retire scrolled.exhausted) t t'
      (scrolled.ids.filter fun id => ¬ id.IsReserved) := by
  have hscrolled := Cursors.scrolled_scroll r.settings.scrollSize r.active t
  have hids := fun h => Cursors.ids_scroll r.settings.scrollSize r.active (t := t) h r.active_nodup
  have hfiled := fun h => (Cursors.mints_scroll r.settings.scrollSize r.active (t := t) h).filed
  rw [hscroll] at hscrolled hids hfiled
  have hexhausted : ∀ q, q ∈ scrolled.exhausted ↔ _ :=
    fun q => hscrolled.mem_exhausted r.active_nodup
  refine ⟨rfl, fun q => ?_, fun q hq hnot => ?_, fun q hq hretired => ?_, hscrolled.untouched,
    hfiled, fun h => congrArg _ (hids h)⟩
  · rw [mem_retire, hexhausted]
  · rw [mem_retire, not_or] at hnot
    exact hscrolled.place_eq_add r.active_nodup hq hnot.2
  · refine hscrolled.current_eq r.active_nodup ?_
    exact (mem_retire.mp hretired).resolve_left (mem_active.mp hq).2

theorem brings_nothing (hactive : r.active = []) : Brings r r t t [] := by
  refine ⟨rfl, fun q => ?_, fun q hq => ?_, fun _ _ _ => rfl, fun _ _ => rfl, id, fun _ => ?_⟩
  · rw [hactive]
    exact (or_iff_left fun hq => absurd hq.1 List.not_mem_nil).symm
  · rw [hactive] at hq
    cases hq
  · rw [hactive]
    rfl

theorem perform_round_idle (hactive : r.active = []) (p : Patience) (s : State) :
    (round r p).perform s = (.ok (r, .ok (.delivered 0)), s) := by
  unfold round mint
  dsimp only
  rw [hactive]
  rfl

/-- The state after a round that brought a batch. -/
def brought (s : State) (cursors : Cursors) (batch : List Identifier) (locks : Locks)
    (log : List Log.Record) : State :=
  { s.withCursors cursors with
    queue := { s.queue with items := s.queue.items ++ batch }, locks, log }

/-- A round under a free lock delivers what it brings, if there is room. -/
theorem perform_round_room (hs : s.InMemory)
    (hfree : s.locks.isHeld lockName s.clock = false) (hroom : s.queue.hasRoom = true)
    (r : Replenisher) (p : Patience) :
    ∃ r' batch cursors locks log,
      (round r p).perform s =
        (.ok (r', .ok (.delivered batch.length)), brought s cursors batch locks log) ∧
      Brings r r' s.tables.cursors cursors batch ∧ GivenBack s locks := by
  by_cases hactive : r.active = []
  · refine ⟨r, [], s.tables.cursors, s.locks, s.log, ?_, brings_nothing hactive,
      ⟨hfree, fun _ _ => rfl⟩⟩
    rw [perform_round_idle hactive, brought, List.append_nil]
    rfl
  · obtain ⟨⟨scrolled, cursors⟩, hscroll⟩ :
      ∃ out, Cursors.scroll r.settings.scrollSize r.active s.tables.cursors = out := ⟨_, rfl⟩
    obtain ⟨locks, log, hback, hround⟩ := perform_round hs hfree hactive p hscroll
    have hminted : ({ s.withCursors cursors with locks, log } : State).InMemory :=
      ⟨hs.storage, hs.outages⟩
    obtain ⟨log', hdeliver⟩ := perform_deliver hminted
      (Queue.push?_of_hasRoom hroom (scrolled.ids.filter fun id => ¬ id.IsReserved)) p
    refine ⟨_, _, cursors, locks, log', ?_, brings_scroll hscroll, hback⟩
    rw [hround, hdeliver]
    rfl

/-- When a round tries for the last time to take the lock: at the first try that does not come
before its wait is over. -/
def lastTry (r : Replenisher) (start : Nat) : Nat :=
  start + (r.settings.lockWait + (pollInterval - 1)) / pollInterval * pollInterval

/-- A rest is cut off, or the round is called off meanwhile, or it lasts as long as it should. -/
theorem perform_rest_cases (p : Patience) (ms : Nat) (s : State) :
    (∃ clock, (p.rest ms).perform s = (.ok .cut, { s with clock }) ∧ p.limit.isSome) ∨
      (∃ clock, (p.rest ms).perform s = (.ok .calledOff, { s with clock })) ∨
      (p.rest ms).perform s = (.ok .rested, { s with clock := s.clock + ms }) := by
  unfold Patience.rest
  rw [perform_bind, perform_get]
  dsimp only
  cases hcut : p.limit.filter (p.cuts s.clock (p.wakeUp s.clock (s.clock + ms)).1
      (p.wakeUp s.clock (s.clock + ms)).2) with
  | some l =>
    refine .inl ⟨max l s.clock, rfl, ?_⟩
    rw [(Option.filter_eq_some_iff.mp hcut).1]
    rfl
  | none =>
    refine .inr ?_
    unfold Patience.wakeUp
    cases p.calledOff.filter fun _ => p.isOver (s.clock + ms) with
    | some c => exact .inl ⟨max c s.clock, rfl⟩
    | none => exact .inr rfl

/-- The wait for the lock was in vain: the round was cut off, or the lock is busy still. -/
def InVain (p : Patience) (a : Acquisition) : Prop := a = .busy ∨ a = .cut ∧ p.limit.isSome

/-- Who finds the lock held is turned away, or tries again after a pause. -/
theorem perform_tryLock_held {again : Action Acquisition} {deadline : Nat} (hs : s.InMemory)
    (hheld : s.locks.isHeld lockName s.clock = true) (p : Patience)
    (hagain : s.clock < deadline → ∃ a clock log,
      again.perform { s with clock := s.clock + pollInterval } = (.ok a, { s with clock, log }) ∧
        InVain p a) :
    ∃ a clock log, (tryLock again r p deadline).perform s = (.ok a, { s with clock, log }) ∧
      InVain p a := by
  have hacquire : s.locks.acquire lockName r.settings.lockTtl s.clock = (none, s.locks) :=
    if_pos hheld
  unfold tryLock
  rw [perform_bind, Store.perform_acquireLock hs, hacquire]
  dsimp only
  rw [perform_bind, perform_get]
  dsimp only
  split
  · exact ⟨.busy, s.clock, _, rfl, .inl rfl⟩
  · rename_i hearly
    rw [perform_bind]
    rcases perform_rest_cases p pollInterval s with ⟨clock, h, hlimit⟩ | ⟨clock, h⟩ | h
    · rw [h]
      exact ⟨.cut, clock, s.log, rfl, .inr ⟨rfl, hlimit⟩⟩
    · rw [h]
      exact ⟨.busy, clock, s.log, rfl, .inl rfl⟩
    · rw [h]
      exact hagain (Nat.lt_of_not_le hearly)

/-- Each try but the last one is followed by another one after a pause. -/
theorem perform_pollLock_held {deadline last : Nat} (hlast : deadline ≤ last) (p : Patience) :
    ∀ (more tries : Nat) {s : State}, s.InMemory → s.locks.isHeld lockName last = true →
      last = s.clock + tries * pollInterval →
      ∃ a clock log, (pollLock r p deadline more).perform s = (.ok a, { s with clock, log }) ∧
        InVain p a
  | more, tries, s, hs, hheld, htries => by
    have hnow : s.locks.isHeld lockName s.clock = true :=
      Locks.isHeld_of_le hheld (htries ▸ Nat.le_add_right _ _)
    cases more with
    | zero =>
      exact perform_tryLock_held hs hnow p fun _ => ⟨.busy, _, s.log, rfl, .inl rfl⟩
    | succ more =>
      refine perform_tryLock_held hs hnow p fun hearly => ?_
      cases tries with
      | zero => omega
      | succ tries =>
        refine perform_pollLock_held hlast p more tries (s := { s with clock := _ })
          ⟨hs.storage, hs.outages⟩ hheld ?_
        rw [htries, Nat.succ_mul]
        dsimp only
        omega

theorem perform_waitForLock_held (hs : s.InMemory)
    (hheld : s.locks.isHeld lockName (r.lastTry s.clock) = true) (p : Patience) :
    ∃ a clock log, (waitForLock r p).perform s = (.ok a, { s with clock, log }) ∧ InVain p a := by
  have hlast : s.clock + r.settings.lockWait ≤ r.lastTry s.clock := by
    unfold lastTry pollInterval
    omega
  unfold waitForLock
  rw [perform_bind, perform_get]
  exact perform_pollLock_held hlast p _ _ hs hheld rfl

/-- A round that waits for the lock in vain does nothing but wait. -/
theorem perform_round_held (hs : s.InMemory)
    (hheld : s.locks.isHeld lockName (r.lastTry s.clock) = true) (p : Patience) :
    ∃ delivery clock log, (round r p).perform s = (.ok (r, .ok delivery), { s with clock, log }) ∧
      (delivery = .delivered 0 ∨ delivery = .cut ∧ p.limit.isSome) := by
  by_cases hactive : r.active = []
  · exact ⟨.delivered 0, s.clock, s.log, perform_round_idle hactive p s, .inl rfl⟩
  · obtain ⟨a, clock, log, hwait, hvain⟩ := perform_waitForLock_held hs hheld p
    unfold round mint
    dsimp only
    rw [if_neg (by simpa using hactive), perform_bind, perform_attempt, perform_bind, hwait]
    rcases hvain with rfl | ⟨rfl, hlimit⟩
    · exact ⟨.delivered 0, clock, log, rfl, .inl rfl⟩
    · exact ⟨.cut, clock, log, rfl, .inr ⟨rfl, hlimit⟩⟩

/-! ### Every round -/

/-- **A round accounts for all that it mints.** The active partitions, in ascending order, are
those that the settings name and that are not retired. If the lock is free, or over, and the
queue has room, the round moves each of them by the scroll size, or retires it and leaves it
where it is if it has too few left; it puts into the queue just what they were moved past and is
not reserved, in the order of the partitions, says how much that is, touches no other partition
and gives the lock back (`Brings`, `GivenBack`). If the lock is held until the round tries to
take it for the last time, or there is no partition that is not retired, nothing is delivered and
all stays as it is, but for the time that goes by. -/
theorem round_is_accounted_for (hs : s.InMemory) (r : Replenisher) (p : Patience) :
    (r.active.Pairwise (· < ·) ∧
      ∀ q, q ∈ r.active ↔ q.toNat < r.settings.partitions ∧ q ∉ r.retired) ∧
    (s.locks.isHeld lockName s.clock = false → s.queue.hasRoom = true →
      ∃ r' batch cursors locks log,
        (round r p).perform s = (.ok (r', .ok (.delivered batch.length)),
          { s.withCursors cursors with
            queue := ⟨s.queue.capacity, s.queue.items ++ batch⟩, locks, log }) ∧
        Brings r r' s.tables.cursors cursors batch ∧ GivenBack s locks) ∧
    (s.locks.isHeld lockName (r.lastTry s.clock) = true →
      ∃ delivery clock log,
        (round r p).perform s = (.ok (r, .ok delivery), { s with clock, log }) ∧
        (delivery = .delivered 0 ∨ delivery = .cut ∧ p.limit.isSome)) ∧
    ((∀ q, q.toNat < r.settings.partitions → q ∈ r.retired) →
      (round r p).perform s = (.ok (r, .ok (.delivered 0)), s)) := by
  refine ⟨⟨r.active_ascending, fun q => mem_active⟩, fun hfree hroom => ?_,
    fun hheld => perform_round_held hs hheld p, fun hretired => ?_⟩
  · exact perform_round_room hs hfree hroom r p
  · refine perform_round_idle (List.eq_nil_iff_forall_not_mem.mpr fun q hq => ?_) p s
    obtain ⟨hlt, hnot⟩ := mem_active.mp hq
    exact hnot (hretired q hlt)

/-- Partition zero was put before the end of what is reserved, partition one has three left, and
partition two was never asked: a round of five each brings three, none and five. The lock is over
just now. -/
theorem reserved_and_exhausted_bring_less :
    let cursors : Cursors :=
      [.pointingTo (.ofParts 0 1022), .pointingTo (.ofParts 1 (counterLimit - 3))].foldl .save ∅
    let start := State.start { queueCapacity := 2 } ⟨0, 0⟩
    let locks := (Locks.empty.acquire lockName 5 0).2
    let s : State := { start.withCursors cursors with
      queue := ⟨2, [.ofParts 9 9]⟩, locks, clock := 5 }
    let r := ofSettings { partitions := 3, scrollSize := 5 }
    s.InMemory ∧ s.locks.isHeld lockName s.clock = false ∧ s.queue.hasRoom = true ∧
      ∃ r' s', (round r .endless).perform s = (.ok (r', .ok (.delivered 8)), s') ∧
        s'.queue.items = [.ofParts 9 9, .ofParts 0 1024, .ofParts 0 1025, .ofParts 0 1026,
          .ofParts 2 0, .ofParts 2 1, .ofParts 2 2, .ofParts 2 3, .ofParts 2 4] ∧
        (∀ q, q ∈ r'.retired ↔ q = 1) ∧ s'.tables.cursors.place 1 = counterLimit - 3 ∧
        s'.locks.isHeld lockName 5 = false := by
  intro cursors start locks s r
  have hs : s.InMemory := ⟨rfl, rfl⟩
  have hfree : s.locks.isHeld lockName s.clock = false := by decide +kernel
  have hroom : s.queue.hasRoom = true := by decide
  have hqueue : ((round r .endless).perform s).2.queue.items =
      [.ofParts 9 9, .ofParts 0 1024, .ofParts 0 1025, .ofParts 0 1026, .ofParts 2 0,
        .ofParts 2 1, .ofParts 2 2, .ofParts 2 3, .ofParts 2 4] := by decide +kernel
  obtain ⟨-, hround, -, -⟩ := round_is_accounted_for hs r .endless
  obtain ⟨r', batch, cursors', locks', log, hperform, hbrings, hback⟩ := hround hfree hroom
  rw [hperform] at hqueue
  obtain rfl := List.append_cancel_left hqueue
  have hretired : ∀ q, q ∈ r'.retired ↔ q = 1 := by
    intro q
    rw [hbrings.retired]
    constructor
    · rintro (hnone | ⟨hactive, hshort⟩)
      · exact absurd hnone Std.ExtTreeSet.not_mem_empty
      · have hlt : q.toNat < 3 := (mem_active.mp hactive).1
        have hfirst : q = 0 ∨ q = 1 ∨ q = 2 := by
          simp only [← UInt16.toNat_inj]
          exact (show q.toNat = 0 ∨ q.toNat = 1 ∨ q.toNat = 2 by omega)
        rcases hfirst with rfl | rfl | rfl
        · exact absurd hshort (by decide +kernel)
        · rfl
        · exact absurd hshort (by decide +kernel)
    · rintro rfl
      exact .inr (by decide +kernel)
  refine ⟨hs, hfree, hroom, r', _, hperform, rfl, hretired, ?_, hback.free⟩
  have hstayed := hbrings.stayed 1 (by decide +kernel) ((hretired 1).mpr rfl)
  show cursors'.place 1 = _
  rw [Cursors.place_eq, hstayed]
  decide +kernel

end Replenisher
end AccessRegistry
