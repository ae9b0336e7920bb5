/-
# Who holds a lock

The locks know of each name only the lease that was given last. What was said of the tokens
is in the history of the asks that were served: when each was given and for how long, and when
one was ended. A token is alive from when it was given until its time is over or it is ended.
For the instants from now on the last lease of a name says which token is alive; that is kept
by every ask. A token is given only where the last lease is over, so that no two tokens of a
name are ever alive at once, in the past or in the future.

Key definitions: `Locks.Ask`, `Locks.Event`, `Locks.serve`, `Locks.history`, `Locks.Live`,
`Locks.Told`.
Key theorems: `Locks.Told.serve`, `Locks.Told.after`, `Locks.only_its_holder_ends_a_lock`.
-/
import Mathlib.Logic.Basic
import AccessRegistry.Supply.Locks

namespace AccessRegistry
namespace Locks

/-- What the locks are asked for. -/
inductive Ask where
  /-- A lock, for some milliseconds. -/
  | acquire (name : String) (ttl : Nat)
  /-- The end of a lock, by the token that was issued for it. -/
  | release (name : String) (token : LockToken)
  deriving DecidableEq, Repr

/-- What became of an ask. -/
inductive Event where
  | given (name : String) (token : LockToken) (ttl : Nat)
  | refused (name : String)
  | ended (name : String) (token : LockToken)
  | kept (name : String) (token : LockToken)
  deriving DecidableEq, Repr

/-- Serves an ask at a time. -/
def serve (l : Locks) (now : Nat) : Ask → Event × Locks
  | .acquire name ttl =>
    match l.acquire name ttl now with
    | (some token, l') => (.given name token ttl, l')
    | (none, l') => (.refused name, l')
  | .release name token =>
    match l.release name token now with
    | (true, l') => (.ended name token, l')
    | (false, l') => (.kept name token, l')

/-- The locks after some asks, each at its time. -/
def after (l : Locks) : List (Nat × Ask) → Locks
  | [] => l
  | (now, ask) :: asks => (l.serve now ask).2.after asks

/-- What became of some asks, and when. -/
def history (l : Locks) : List (Nat × Ask) → List (Nat × Event)
  | [] => []
  | (now, ask) :: asks => (now, (l.serve now ask).1) :: (l.serve now ask).2.history asks

/-- A token of a name is alive at an instant: it was given before for longer than that, and was
not ended by then. -/
def Live (h : List (Nat × Event)) (name : String) (token : LockToken) (x : Nat) : Prop :=
  (∃ t ttl, (t, .given name token ttl) ∈ h ∧ t ≤ x ∧ x < t + ttl) ∧
    ∀ t, (t, .ended name token) ∈ h → x < t

variable {l : Locks} {h : List (Nat × Event)} {now x : Nat} {name n : String}
  {token k k' : LockToken} {ttl : Nat}

theorem history_append_singleton (now : Nat) (ask : Ask) : ∀ (l : Locks) (asks : List (Nat × Ask)),
    l.history (asks ++ [(now, ask)]) =
      l.history asks ++ [(now, ((l.after asks).serve now ask).1)]
  | _, [] => rfl
  | l, (t, a) :: asks => congrArg ((t, (l.serve t a).1) :: ·)
      (history_append_singleton now ask (l.serve t a).2 asks)

/-- A lock is given when no lease of it runs. Its token is a new one, and its lease takes the
place of the last one. -/
theorem acquire_cases (l : Locks) (name : String) (ttl now : Nat) :
    (∃ lease, l.leases[name]? = some lease ∧ now < lease.expiry ∧
      l.acquire name ttl now = (none, l)) ∨
    (∀ lease, l.leases[name]? = some lease → lease.expiry ≤ now) ∧
      l.acquire name ttl now = (some (.issued l.issued),
        ⟨l.leases.insert name ⟨.issued l.issued, now + ttl⟩, l.issued + 1⟩) := by
  cases hheld : l.isHeld name now with
  | true =>
    obtain ⟨lease, hlease, hnow⟩ := (Option.any_eq_true _ _).mp hheld
    exact .inl ⟨lease, hlease, of_decide_eq_true hnow, if_pos hheld⟩
  | false =>
    refine .inr ⟨fun lease hlease => ?_, if_neg (by simp [hheld])⟩
    simpa [isHeld, hlease] using hheld

/-- A lock ends when its last lease runs and is of the token. -/
theorem release_cases (l : Locks) (name : String) (token : LockToken) (now : Nat) :
    (∃ expiry, l.leases[name]? = some ⟨token, expiry⟩ ∧ now < expiry ∧
      l.release name token now = (true, ⟨l.leases.erase name, l.issued⟩)) ∨
    (∀ expiry, l.leases[name]? = some ⟨token, expiry⟩ → expiry ≤ now) ∧
      l.release name token now = (false, l) := by
  by_cases hheld : (l.leases[name]?.any fun lease =>
      decide (lease.token = token ∧ now < lease.expiry)) = true
  · obtain ⟨⟨given, expiry⟩, hlease, hrun⟩ := (Option.any_eq_true _ _).mp hheld
    obtain ⟨rfl, hnow⟩ := of_decide_eq_true hrun
    exact .inl ⟨expiry, hlease, hnow, if_pos hheld⟩
  · refine .inr ⟨fun expiry hlease => ?_, if_neg hheld⟩
    simpa [hlease] using hheld

theorem isHeld_of_le {later : Nat} (h : l.isHeld name later = true) (hle : now ≤ later) :
    l.isHeld name now = true := by
  obtain ⟨lease, hlease, hlater⟩ := (Option.any_eq_true _ _).mp h
  refine (Option.any_eq_true _ _).mpr ⟨lease, hlease, decide_eq_true ?_⟩
  exact Nat.lt_of_le_of_lt hle (of_decide_eq_true hlater)

/-- A lock that is given back at once is not held, and no other lock is touched. -/
theorem release_acquire (h : l.isHeld name now = false) (ttl : Nat) :
    let l' := ((l.acquire name ttl now).2.release name (.issued l.issued) now).2
    l'.isHeld name now = false ∧ ∀ n, n ≠ name → l'.leases[n]? = l.leases[n]? := by
  have hacquire : (l.acquire name ttl now).2 =
      ⟨l.leases.insert name ⟨.issued l.issued, now + ttl⟩, l.issued + 1⟩ := by
    rw [acquire, if_neg (by simp [h])]
  have hother : ∀ n, n ≠ name →
      (l.leases.insert name ⟨.issued l.issued, now + ttl⟩)[n]? = l.leases[n]? := by
    intro n hn
    simp [Std.ExtTreeMap.getElem?_insert, Ne.symm hn]
  dsimp only
  rw [hacquire]
  rcases release_cases _ name (.issued l.issued) now with ⟨expiry, -, -, heq⟩ | ⟨hover, heq⟩
  · rw [heq]
    refine ⟨by simp [isHeld], fun n hn => ?_⟩
    rw [← hother n hn]
    simp [Std.ExtTreeMap.getElem?_erase, Ne.symm hn]
  · -- nobody holds a lock that was given for no time
    have hover := hover (now + ttl) Std.ExtTreeMap.getElem?_insert_self
    rw [heq]
    refine ⟨?_, hother⟩
    simpa [isHeld] using Nat.le_antisymm (by omega) (Nat.zero_le ttl)

theorem mem_next {t : Nat} {e e' : Event} :
    (t, e) ∈ h ++ [(now, e')] ↔ (t, e) ∈ h ∨ t = now ∧ e = e' := by
  rw [List.mem_append, List.mem_singleton, Prod.mk.injEq]

theorem live_next_of_other {e : Event} (hgiven : ∀ ttl, e ≠ .given n k ttl)
    (hended : e ≠ .ended n k) : Live (h ++ [(now, e)]) n k x ↔ Live h n k x := by
  have hg : ∀ t ttl, (t, Event.given n k ttl) ∈ h ++ [(now, e)] ↔ (t, .given n k ttl) ∈ h :=
    fun t ttl => mem_next.trans (or_iff_left fun heq => hgiven ttl heq.2.symm)
  have he : ∀ t, (t, Event.ended n k) ∈ h ++ [(now, e)] ↔ (t, .ended n k) ∈ h :=
    fun t => mem_next.trans (or_iff_left fun heq => hended heq.2.symm)
  simp only [Live, hg, he]

theorem live_next_ended : Live (h ++ [(now, .ended name token)]) n k x ↔
    Live h n k x ∧ ¬ (n = name ∧ k = token ∧ now ≤ x) := by
  by_cases hsame : n = name ∧ k = token
  · obtain ⟨rfl, rfl⟩ := hsame
    simp [Live, or_imp, forall_and, and_assoc]
  · rw [live_next_of_other (by simp) (by simpa [eq_comm] using hsame)]
    exact (and_iff_left fun hboth => hsame ⟨hboth.1, hboth.2.1⟩).symm

/-- A token that was not ended yet lives for the time that it is given for. -/
theorem live_next_given (hnew : ∀ t, (t, .ended name token) ∉ h) :
    Live (h ++ [(now, .given name token ttl)]) n k x ↔
      Live h n k x ∨ n = name ∧ k = token ∧ now ≤ x ∧ x < now + ttl := by
  by_cases hsame : n = name ∧ k = token
  · obtain ⟨rfl, rfl⟩ := hsame
    simp [Live, hnew, or_and_right, exists_or, and_assoc]
  · have hother : ∀ d, Event.given name token ttl ≠ .given n k d := by
      intro d heq
      obtain ⟨rfl, rfl, -⟩ := Event.given.inj heq
      exact hsame ⟨rfl, rfl⟩
    rw [live_next_of_other hother (by simp)]
    exact (or_iff_left fun hboth => hsame ⟨hboth.1, hboth.2.1⟩).symm

/-! ### What the leases tell of the history -/

/-- The locks as they are at a time agree with a history up to then. -/
structure Told (h : List (Nat × Event)) (now : Nat) (l : Locks) : Prop where
  past : ∀ t e, (t, e) ∈ h → t ≤ now
  given : ∀ t name token ttl, (t, .given name token ttl) ∈ h → ∃ i < l.issued, token = .issued i
  ended : ∀ t name token, (t, .ended name token) ∈ h → ∃ s ttl, (s, .given name token ttl) ∈ h
  /-- From now on, what is alive is what the last lease of a name is of, until it is over. -/
  current : ∀ name token x, now ≤ x →
    (Live h name token x ↔ ∃ expiry, l.leases[name]? = some ⟨token, expiry⟩ ∧ x < expiry)
  /-- Of a name there is at most one token alive, at any instant. -/
  alone : ∀ name k k' x, Live h name k x → Live h name k' x → k = k'

namespace Told

theorem empty (now : Nat) : Told [] now Locks.empty where
  past := nofun
  given := nofun
  ended := nofun
  current := by simp [Live, Locks.empty]
  alone _ _ _ _ hk := by simp [Live] at hk

theorem mono {later : Nat} (hl : Told h now l) (hlater : now ≤ later) : Told h later l where
  past t e he := Nat.le_trans (hl.past t e he) hlater
  given := hl.given
  ended := hl.ended
  current name token x hx := hl.current name token x (Nat.le_trans hlater hx)
  alone := hl.alone

theorem fresh (hl : Told h now l) (t : Nat) (name : String) :
    (t, .ended name (.issued l.issued)) ∉ h := by
  intro ht
  obtain ⟨s, ttl, hs⟩ := hl.ended _ _ _ ht
  obtain ⟨i, hi, heq⟩ := hl.given _ _ _ _ hs
  exact Nat.ne_of_gt hi (LockToken.issued.inj heq)

theorem dead (hl : Told h now l)
    (hover : ∀ lease, l.leases[name]? = some lease → lease.expiry ≤ now) (hx : now ≤ x) :
    ¬ Live h name k x := by
  intro hk
  obtain ⟨expiry, hlease, hlt⟩ := (hl.current name k x hx).mp hk
  exact Nat.not_lt.mpr (Nat.le_trans (hover _ hlease) hx) hlt

/-- A lock is given when none of its tokens is alive. -/
theorem acquire_iff (hl : Told h now l) (name : String) (ttl : Nat) :
    (l.acquire name ttl now).1.isSome ↔ ∀ token, ¬ Live h name token now := by
  rcases acquire_cases l name ttl now with ⟨⟨token, expiry⟩, hlease, hnow, heq⟩ | ⟨hover, heq⟩
  · have hlive : Live h name token now :=
      (hl.current name token now (Nat.le_refl _)).mpr ⟨expiry, hlease, hnow⟩
    simp only [heq, Option.isSome_none, Bool.false_eq_true, false_iff, not_forall, not_not]
    exact ⟨token, hlive⟩
  · simp only [heq, Option.isSome_some, true_iff]
    exact fun token => hl.dead hover (Nat.le_refl _)

/-- A lock ends when the token for it is alive. -/
theorem release_iff (hl : Told h now l) (name : String) (token : LockToken) :
    (l.release name token now).1 = true ↔ Live h name token now := by
  rw [hl.current name token now (Nat.le_refl _)]
  rcases release_cases l name token now with ⟨expiry, hlease, hnow, heq⟩ | ⟨hover, heq⟩
  · simp only [heq, true_iff]
    exact ⟨expiry, hlease, hnow⟩
  · simp only [heq, Bool.false_eq_true, false_iff]
    rintro ⟨expiry, hlease, hnow⟩
    exact Nat.not_lt.mpr (hover expiry hlease) hnow

/-- What gives and ends nothing leaves all as it is. -/
theorem idle (hl : Told h now l) {e : Event} (hgiven : ∀ n k ttl, e ≠ .given n k ttl)
    (hended : ∀ n k, e ≠ .ended n k) : Told (h ++ [(now, e)]) now l where
  past t e' ht := by
    rcases mem_next.mp ht with ht | ⟨rfl, -⟩
    · exact hl.past t e' ht
    · exact Nat.le_refl _
  given t n k ttl ht := by
    rcases mem_next.mp ht with ht | ⟨-, heq⟩
    · exact hl.given t n k ttl ht
    · exact absurd heq.symm (hgiven n k ttl)
  ended t n k ht := by
    rcases mem_next.mp ht with ht | ⟨-, heq⟩
    · obtain ⟨s, ttl, hs⟩ := hl.ended t n k ht
      exact ⟨s, ttl, List.mem_append_left _ hs⟩
    · exact absurd heq.symm (hended n k)
  current n k x hx := by
    rw [live_next_of_other (hgiven n k) (hended n k)]
    exact hl.current n k x hx
  alone n k k' x := by
    rw [live_next_of_other (hgiven n k) (hended n k),
      live_next_of_other (hgiven n k') (hended n k')]
    exact hl.alone n k k' x

/-- A lock that no lease of runs is given to the next token. -/
theorem give (hl : Told h now l) (ttl : Nat)
    (hover : ∀ lease, l.leases[name]? = some lease → lease.expiry ≤ now) :
    Told (h ++ [(now, .given name (.issued l.issued) ttl)]) now
      ⟨l.leases.insert name ⟨.issued l.issued, now + ttl⟩, l.issued + 1⟩ := by
  have hlive : ∀ {n k x}, Live (h ++ [(now, .given name (.issued l.issued) ttl)]) n k x ↔
      Live h n k x ∨ n = name ∧ k = .issued l.issued ∧ now ≤ x ∧ x < now + ttl :=
    live_next_given fun t => hl.fresh t name
  refine ⟨fun t e ht => ?past, fun t n k d ht => ?given, fun t n k ht => ?ended,
    fun n k x hx => ?current, fun n k k' x hk hk' => ?alone⟩
  case past =>
    rcases mem_next.mp ht with ht | ⟨rfl, -⟩
    · exact hl.past t e ht
    · exact Nat.le_refl _
  case given =>
    rcases mem_next.mp ht with ht | ⟨-, heq⟩
    · obtain ⟨i, hi, rfl⟩ := hl.given t n k d ht
      exact ⟨i, Nat.lt_succ_of_lt hi, rfl⟩
    · exact ⟨l.issued, Nat.lt_succ_self _, (Event.given.inj heq).2.1⟩
  case ended =>
    rcases mem_next.mp ht with ht | ⟨-, heq⟩
    · obtain ⟨s, d, hs⟩ := hl.ended t n k ht
      exact ⟨s, d, List.mem_append_left _ hs⟩
    · cases heq
  case current =>
    rw [hlive]
    by_cases hn : n = name
    · subst hn
      rw [or_iff_right (hl.dead hover hx), Std.ExtTreeMap.getElem?_insert_self]
      constructor
      · rintro ⟨-, rfl, -, hlt⟩
        exact ⟨now + ttl, rfl, hlt⟩
      · rintro ⟨expiry, heq, hlt⟩
        obtain ⟨rfl, rfl⟩ := Lease.mk.inj (Option.some.inj heq)
        exact ⟨rfl, rfl, hx, hlt⟩
    · simp [hn, hl.current n k x hx, Std.ExtTreeMap.getElem?_insert, Ne.symm hn]
  case alone =>
    rcases hlive.mp hk with hold | ⟨rfl, rfl, hx, -⟩
    · rcases hlive.mp hk' with hold' | ⟨rfl, -, hx, -⟩
      · exact hl.alone n k k' x hold hold'
      · exact absurd hold (hl.dead hover hx)
    · rcases hlive.mp hk' with hold' | ⟨-, rfl, -⟩
      · exact absurd hold' (hl.dead hover hx)
      · rfl

/-- A lock that a token's lease runs of is ended by it. -/
theorem finish (hl : Told h now l) {expiry : Nat}
    (hlease : l.leases[name]? = some ⟨token, expiry⟩) (hnow : now < expiry) :
    Told (h ++ [(now, .ended name token)]) now ⟨l.leases.erase name, l.issued⟩ := by
  have hheld : Live h name token now :=
    (hl.current name token now (Nat.le_refl _)).mpr ⟨expiry, hlease, hnow⟩
  refine ⟨fun t e ht => ?past, fun t n k d ht => ?given, fun t n k ht => ?ended,
    fun n k x hx => ?current, fun n k k' x hk hk' => ?alone⟩
  case past =>
    rcases mem_next.mp ht with ht | ⟨rfl, -⟩
    · exact hl.past t e ht
    · exact Nat.le_refl _
  case given =>
    rcases mem_next.mp ht with ht | ⟨-, heq⟩
    · exact hl.given t n k d ht
    · cases heq
  case ended =>
    rcases mem_next.mp ht with ht | ⟨-, heq⟩
    · obtain ⟨s, d, hs⟩ := hl.ended t n k ht
      exact ⟨s, d, List.mem_append_left _ hs⟩
    · obtain ⟨rfl, rfl⟩ := Event.ended.inj heq
      obtain ⟨s, d, hs, -⟩ := hheld.1
      exact ⟨s, d, List.mem_append_left _ hs⟩
  case current =>
    rw [live_next_ended, hl.current n k x hx]
    by_cases hn : n = name
    · subst hn
      rw [Std.ExtTreeMap.getElem?_erase_self]
      constructor
      · rintro ⟨⟨expiry', heq, -⟩, hother⟩
        obtain ⟨rfl, -⟩ := Lease.mk.inj (Option.some.inj (hlease.symm.trans heq))
        exact absurd ⟨rfl, rfl, hx⟩ hother
      · rintro ⟨expiry', heq, -⟩
        cases heq
    · simp [hn, Std.ExtTreeMap.getElem?_erase, Ne.symm hn]
  case alone =>
    exact hl.alone n k k' x (live_next_ended.mp hk).1 (live_next_ended.mp hk').1

/-- What the leases tell stays true, whatever is asked. -/
theorem serve (hl : Told h now l) (ask : Ask) :
    Told (h ++ [(now, (l.serve now ask).1)]) now (l.serve now ask).2 := by
  cases ask with
  | acquire name ttl =>
    rcases acquire_cases l name ttl now with ⟨lease, -, -, heq⟩ | ⟨hover, heq⟩
    · simp only [Locks.serve, heq]
      exact hl.idle nofun nofun
    · simp only [Locks.serve, heq]
      exact hl.give ttl hover
  | release name token =>
    rcases release_cases l name token now with ⟨expiry, hlease, hnow, heq⟩ | ⟨-, heq⟩
    · simp only [Locks.serve, heq]
      exact hl.finish hlease hnow
    · simp only [Locks.serve, heq]
      exact hl.idle nofun nofun

/-- After any asks, none of them before the one that came before it, the leases tell what
became of all. -/
theorem after : ∀ {asks : List (Nat × Ask)} {h : List (Nat × Event)} {l : Locks} {now later : Nat},
    Told h now l → (now :: (asks.map Prod.fst ++ [later])).Pairwise (· ≤ ·) →
      Told (h ++ l.history asks) later (l.after asks)
  | [], h, l, now, later, hl, hsorted => by
    rw [history, List.append_nil]
    exact hl.mono (List.rel_of_pairwise_cons hsorted List.mem_cons_self)
  | (t, ask) :: asks, h, l, now, later, hl, hsorted => by
    have ht : Told h t l := hl.mono (List.rel_of_pairwise_cons hsorted List.mem_cons_self)
    have hrest := after (ht.serve ask) (List.Pairwise.of_cons hsorted)
    rwa [List.append_assoc] at hrest

end Told

/-! ### The locks from their start on -/

/-- **A lock has one holder at a time, and only the holder can end it.** After any asks that came
one after the other, from no locks on: at no instant are two tokens of a name alive. A lock is
given just when no token of it is alive, and if it is not given, nothing changes. A token ends
its lock just when it is alive, and then it alone lives no longer. A token whose time is over,
that was ended already or that was never given for the name ends nothing and changes nothing. -/
theorem only_its_holder_ends_a_lock {asks : List (Nat × Ask)} {now : Nat}
    (hsorted : (asks.map Prod.fst ++ [now]).Pairwise (· ≤ ·)) :
    (∀ name k k' x, Live (empty.history asks) name k x → Live (empty.history asks) name k' x →
      k = k') ∧
    (∀ name ttl,
      (((empty.after asks).acquire name ttl now).1.isSome ↔
        ∀ token, ¬ Live (empty.history asks) name token now) ∧
      (((empty.after asks).acquire name ttl now).1 = none →
        ((empty.after asks).acquire name ttl now).2 = empty.after asks) ∧
      ∀ token, ((empty.after asks).acquire name ttl now).1 = some token →
        ∀ n k x, Live (empty.history (asks ++ [(now, .acquire name ttl)])) n k x ↔
          Live (empty.history asks) n k x ∨ n = name ∧ k = token ∧ now ≤ x ∧ x < now + ttl) ∧
    (∀ name token,
      (((empty.after asks).release name token now).1 = true ↔
        Live (empty.history asks) name token now) ∧
      (((empty.after asks).release name token now).1 = true →
        ∀ n k x, Live (empty.history (asks ++ [(now, .release name token)])) n k x ↔
          Live (empty.history asks) n k x ∧ ¬ (n = name ∧ k = token ∧ now ≤ x)) ∧
      ((∀ t ttl, (t, .given name token ttl) ∈ empty.history asks → t + ttl ≤ now) ∨
          (∃ t, (t, .ended name token) ∈ empty.history asks) →
        (empty.after asks).release name token now = (false, empty.after asks))) := by
  have htold : Told (empty.history asks) now (empty.after asks) :=
    Told.after (Told.empty 0) (hsorted.cons fun _ _ => Nat.zero_le _)
  refine ⟨htold.alone, fun name ttl => ⟨htold.acquire_iff name ttl, ?refused, ?given⟩,
    fun name token => ⟨htold.release_iff name token, ?ended, ?stale⟩⟩
  case refused =>
    rcases acquire_cases (empty.after asks) name ttl now with ⟨-, -, -, heq⟩ | ⟨-, heq⟩
    · exact fun _ => congrArg Prod.snd heq
    · simp [heq]
  case given =>
    intro token hgiven n k x
    rcases acquire_cases (empty.after asks) name ttl now with ⟨-, -, -, heq⟩ | ⟨-, heq⟩
    · simp [heq] at hgiven
    · obtain rfl : LockToken.issued (empty.after asks).issued = token := by
        simpa [heq] using hgiven
      rw [history_append_singleton, serve, heq]
      exact live_next_given fun t => htold.fresh t name
  case ended =>
    intro hended n k x
    rcases release_cases (empty.after asks) name token now with ⟨-, -, -, heq⟩ | ⟨-, heq⟩
    · rw [history_append_singleton, serve, heq]
      exact live_next_ended
    · simp [heq] at hended
  case stale =>
    intro hstale
    have hdead : ¬ Live (empty.history asks) name token now := by
      rintro ⟨⟨t, ttl, ht, -, hlt⟩, hnever⟩
      rcases hstale with hover | ⟨t', ht'⟩
      · exact Nat.not_lt.mpr (hover t ttl ht) hlt
      · exact Nat.not_lt.mpr (htold.past t' _ ht') (hnever t' ht')
    rcases release_cases (empty.after asks) name token now with ⟨expiry, hlease, hnow, -⟩ | ⟨-, heq⟩
    · exact absurd ((htold.current name token now (Nat.le_refl _)).mpr ⟨expiry, hlease, hnow⟩) hdead
    · exact heq

/-- Asks for one lock by two holders, the second at the instant when the time of the first is
over, and for another one. -/
def takeover : List (Nat × Ask) :=
  [(0, .acquire "ids" 5), (5, .acquire "ids" 5), (6, .acquire "other" 0)]

/-- The first holder of a lock that was taken over ends nothing. -/
theorem takeover_is_final :
    (takeover.map Prod.fst ++ [7]).Pairwise (· ≤ ·) ∧
      (empty.after takeover).release "ids" (.issued 0) 7 = (false, empty.after takeover) := by
  have hsorted : (takeover.map Prod.fst ++ [7]).Pairwise (· ≤ ·) := by decide
  have hhistory : empty.history takeover = [(0, .given "ids" (.issued 0) 5),
      (5, .given "ids" (.issued 1) 5), (6, .given "other" (.issued 2) 0)] := by decide +kernel
  have hover : ∀ t ttl, (t, .given "ids" (.issued 0) ttl) ∈ empty.history takeover →
      t + ttl ≤ 7 := by
    intro t ttl ht
    obtain ⟨rfl, rfl⟩ : t = 0 ∧ ttl = 5 := by simpa [hhistory] using ht
    decide
  obtain ⟨-, -, hrelease⟩ := only_its_holder_ends_a_lock hsorted
  exact ⟨hsorted, (hrelease "ids" (.issued 0)).2.2 (.inl hover)⟩

end Locks
end AccessRegistry
