/-
# The value under a key is its own history

Whatever is granted, revoked, relabelled and deleted, in whichever order and with keys
that stand in a list twice, the value under a key is what the changes that mention the key
make of it, one after the other; what is done to other keys has no say (`find?_foldl_apply`).
An entry that is there was made by one grant and has been there since. Its permissions are
the unions and differences since then, its expiration is the latest that was given, and its
kind is the one that was set last (`lifetime_of_find?`).

Grants that follow each other commute, and a grant that is repeated adds nothing, except for
one thing: the first of them to meet an absent key decides of which kind the entry is. All
the rest of an entry, its *term*, changes by itself (`Change.term_onValue`), and on terms the
order and the number of the grants do not count (`Grant.foldl_onTerm`).

Key definitions: `Permissions.Change.mentions`, `Permissions.Change.onValue`,
`Permissions.valueAfter`, `Permissions.Grant`, `Permissions.Lifetime`,
`Permissions.ToldByHistory`.
Key theorems: `Permissions.find?_apply`, `Permissions.find?_foldl_apply`,
`Permissions.lifetime_of_find?`, `Permissions.Grant.foldl_onTerm`,
`Permissions.values_are_told_by_history`.
-/
import AccessRegistry.Proofs.Bindings
import AccessRegistry.Proofs.Permissions.Query
import AccessRegistry.Proofs.Permissions.Values
import Mathlib.Data.List.Induction

namespace AccessRegistry

namespace Instant

/-- An instant is one of a list, and none of them is later. -/
def IsLatest (t : Instant) (ts : List Instant) : Prop := t ∈ ts ∧ ∀ x ∈ ts, x ≤ t

theorem isLatest_singleton (t : Instant) : IsLatest t [t] := by
  refine ⟨List.mem_singleton_self t, fun x hx => ?_⟩
  rw [List.mem_singleton.mp hx]
  exact le_refl t

theorem IsLatest.append {t : Instant} {ts : List Instant} (h : IsLatest t ts) (x : Instant) :
    IsLatest (t.later x) (ts ++ [x]) := by
  obtain ⟨hle, hx⟩ := later_le_iff.mp (le_refl (t.later x))
  refine ⟨?_, fun y hy => ?_⟩
  · rcases later_eq_or t x with he | he
    · exact List.mem_append_left _ (he.symm ▸ h.1)
    · exact List.mem_append_right _ (he.symm ▸ List.mem_singleton_self x)
  · rcases List.mem_append.mp hy with hy | hy
    · exact le_trans (h.2 y hy) hle
    · exact List.mem_singleton.mp hy ▸ hx

end Instant

namespace Entry.Value

theorem granted_granted (old : Option Entry.Value) (s : PermissionSet) (kind : ObjectKind)
    (expiration : Instant) :
    granted (some (granted old s kind expiration)) s kind expiration =
      granted old s kind expiration := by
  cases old with
  | none => simp only [granted, PermissionSet.union_self, Instant.later_self]
  | some v => simp only [granted, PermissionSet.union_union, Instant.later_later]

theorem revoked_revoked (v : Entry.Value) (s : PermissionSet) :
    (v.revoked s).bind (·.revoked s) = v.revoked s := by
  unfold revoked
  dsimp only
  split
  · rfl
  · rename_i hleft
    simp only [Option.bind_some, PermissionSet.difference_difference, if_neg hleft]

end Entry.Value

namespace Permissions

variable {t : Permissions} {k : Entry.Key}

/-- A change that works on one key after the other, and the second time on the same key
does nothing, works on the keys of a list as if each stood there once. -/
theorem find?_foldl {f : Permissions → Entry.Key → Permissions}
    {g : Option Entry.Value → Option Entry.Value}
    (hf : ∀ t k x, (f t k).find? x = if k = x then g (t.find? k) else t.find? x)
    (hg : ∀ old, g (g old) = g old) (x : Entry.Key) :
    ∀ (ks : List Entry.Key) (t : Permissions),
      (ks.foldl f t).find? x = if x ∈ ks then g (t.find? x) else t.find? x
  | [], t => by simp
  | k :: ks, t => by
    rw [List.foldl_cons, find?_foldl hf hg x ks, hf]
    by_cases hk : k = x
    · subst hk
      simp [hg]
    · simp [hk, Ne.symm hk]

namespace Change

/-- Whether a change is about a key. -/
def mentions (k : Entry.Key) : Change → Bool
  | merge ks _ _ _ => k ∈ ks
  | subtract ks _ => k ∈ ks
  | updateKind key _ => key = k
  | deleteOn key => k.aclKey = key
  | deleteOf p => k.principal = p

/-- What a change makes of the value under a key that it mentions. -/
def onValue (old : Option Entry.Value) : Change → Option Entry.Value
  | merge _ s kind expiration => some (.granted old s kind expiration)
  | subtract _ s => old.bind (·.revoked s)
  | updateKind _ kind => old.map fun v => { v with kind }
  | deleteOn _ => none
  | deleteOf _ => none

end Change

/-! ### Replaying the changes of one key -/

/-- A change touches the values under the keys that it mentions, each by itself and
once. -/
theorem find?_apply (h : t.Indexed) (c : Change) (k : Entry.Key) :
    (c.apply t).find? k = if c.mentions k then c.onValue (t.find? k) else t.find? k := by
  cases c with
  | merge ks s kind expiration =>
    simp only [Change.mentions, decide_eq_true_eq]
    exact find?_foldl (g := fun old => some (.granted old s kind expiration))
      (find?_mergeOne s kind expiration)
      (fun old => congrArg some (Entry.Value.granted_granted old s kind expiration)) k ks t
  | subtract ks s =>
    simp only [Change.mentions, decide_eq_true_eq]
    refine find?_foldl (g := fun old => old.bind (·.revoked s)) (find?_subtractOne s)
      (fun old => ?_) k ks t
    cases old with
    | none => rfl
    | some v => exact Entry.Value.revoked_revoked v s
  | updateKind key kind =>
    simp only [Change.mentions, decide_eq_true_eq]
    refine (find?_updateKind t key k kind).trans ?_
    split
    · rename_i hk
      rw [hk]
      rfl
    · rfl
  | deleteOn key =>
    simp only [Change.mentions, decide_eq_true_eq]
    exact (deleteOn_eq_filter h key).1 k
  | deleteOf p =>
    simp only [Change.mentions, decide_eq_true_eq]
    exact (deleteOf_eq_filter h p).1 k

/-- What is under a key when the changes of a list that mention it have been made. -/
def valueAfter (k : Entry.Key) (old : Option Entry.Value) (cs : List Change) :
    Option Entry.Value :=
  (cs.filter (·.mentions k)).foldl Change.onValue old

theorem valueAfter_append (k : Entry.Key) (old : Option Entry.Value) (cs cs' : List Change) :
    valueAfter k old (cs ++ cs') = valueAfter k (valueAfter k old cs) cs' := by
  unfold valueAfter
  rw [List.filter_append, List.foldl_append]

theorem valueAfter_singleton (k : Entry.Key) (old : Option Entry.Value) (c : Change) :
    valueAfter k old [c] = if c.mentions k then c.onValue old else old := by
  unfold valueAfter
  rw [List.filter_singleton]
  cases c.mentions k <;> rfl

/-- After some changes there is under a key what those that mention it made of what was
there before. -/
theorem find?_foldl_apply (k : Entry.Key) : ∀ (cs : List Change) {t : Permissions}, t.Indexed →
    (cs.foldl Change.apply t).find? k = valueAfter k (t.find? k) cs
  | [], _, _ => rfl
  | c :: cs, t, h => by
    rw [List.foldl_cons, find?_foldl_apply k cs (indexed_apply h c), find?_apply h c k,
      ← valueAfter_singleton, ← valueAfter_append, List.singleton_append]

theorem find?_after_append (k : Entry.Key) (before rest : List Change) :
    (after (before ++ rest)).find? k = valueAfter k ((after before).find? k) rest := by
  unfold after
  rw [List.foldl_append]
  exact find?_foldl_apply k rest (indexed_after before)

/-- A grant to the keys of a list. -/
structure Grant where
  keys : List Entry.Key
  permissions : PermissionSet
  kind : ObjectKind
  expiration : Instant

/-- The change that a grant is. -/
def Grant.change (g : Grant) : Change := .merge g.keys g.permissions g.kind g.expiration

/-- The value of an entry that a grant makes. -/
def Grant.value (g : Grant) : Entry.Value := ⟨g.permissions, g.kind, g.expiration⟩

/-! ### Lifetimes -/

namespace Change

/-- What a change makes of the permissions of an entry that stays. -/
def onPermissions (held : PermissionSet) : Change → PermissionSet
  | merge _ s _ _ => held.union s
  | subtract _ s => held.difference s
  | _ => held

/-- The expiration that a change gives. -/
def expiration? : Change → Option Instant
  | merge _ _ _ expiration => some expiration
  | _ => none

/-- The kind that a change sets. A grant does not set the kind of an entry that is there. -/
def kind? : Change → Option ObjectKind
  | updateKind _ kind => some kind
  | _ => none

end Change

/-- After some changes a grant makes an entry under a key, which stays there with the changes
that follow and ends up with a value. -/
structure Lifetime (k : Entry.Key) (before : List Change) (made : Grant) (rest : List Change)
    (v : Entry.Value) : Prop where
  mentioned : k ∈ made.keys
  /-- There is no entry before the grant. -/
  absent : (after before).find? k = none
  /-- There is one ever since. -/
  present : ∀ mid, mid <+: rest → ((after (before ++ made.change :: mid)).find? k).isSome
  /-- The permissions are those of the grant with what was added and taken away since. -/
  permissions : v.permissions =
    (rest.filter (·.mentions k)).foldl Change.onPermissions made.permissions
  /-- The expiration is the latest of those that were given since. -/
  expiration : v.expiration.IsLatest
    (made.expiration :: (rest.filter (·.mentions k)).filterMap Change.expiration?)
  /-- The kind is the one that was set last, or else that of the grant. -/
  kind : v.kind = ((rest.filter (·.mentions k)).filterMap Change.kind?).getLast?.getD made.kind

variable {before rest : List Change} {made : Grant} {v w : Entry.Value} {c : Change}

theorem Lifetime.present_append (h : Lifetime k before made rest v)
    (hc : ((after (before ++ made.change :: (rest ++ [c]))).find? k).isSome) :
    ∀ mid, mid <+: rest ++ [c] → ((after (before ++ made.change :: mid)).find? k).isSome := by
  intro mid hmid
  rcases List.prefix_concat_iff.mp hmid with rfl | hmid
  · exact hc
  · exact h.present mid hmid

theorem lifetime_begins (hk : k ∈ made.keys) (habsent : (after before).find? k = none) :
    Lifetime k before made [] made.value where
  mentioned := hk
  absent := habsent
  present mid hmid := by
    rw [List.prefix_nil.mp hmid, find?_after_append, valueAfter_singleton]
    simp [Grant.change, Change.mentions, Change.onValue, hk]
  permissions := rfl
  expiration := Instant.isLatest_singleton made.expiration
  kind := rfl

/-- A change that does not mention the key has no part in the lifetime. -/
theorem Lifetime.unmentioned (h : Lifetime k before made rest v) (hc : c.mentions k = false)
    (hthere : ((after (before ++ made.change :: (rest ++ [c]))).find? k).isSome) :
    Lifetime k before made (rest ++ [c]) v := by
  have hsame : (rest ++ [c]).filter (·.mentions k) = rest.filter (·.mentions k) := by
    simp [List.filter_append, hc]
  exact
    { mentioned := h.mentioned
      absent := h.absent
      present := h.present_append hthere
      permissions := hsame ▸ h.permissions
      expiration := hsame ▸ h.expiration
      kind := hsame ▸ h.kind }

/-- What a change that leaves an entry makes of each part of it. -/
theorem eq_of_onValue (h : c.onValue (some w) = some v) :
    v = { permissions := c.onPermissions w.permissions
          kind := c.kind?.getD w.kind
          expiration := c.expiration?.elim w.expiration w.expiration.later } := by
  cases c with
  | merge ks s kind expiration =>
    cases h
    rfl
  | subtract ks s =>
    obtain ⟨-, h⟩ := Option.ite_none_left_eq_some.mp h
    cases h
    rfl
  | updateKind key kind =>
    cases h
    rfl
  | deleteOn key => cases h
  | deleteOf p => cases h

/-- A change that leaves the entry goes on with its lifetime. -/
theorem Lifetime.mentioned_append (h : Lifetime k before made rest w) (hc : c.mentions k = true)
    (hv : c.onValue (some w) = some v)
    (hthere : ((after (before ++ made.change :: (rest ++ [c]))).find? k).isSome) :
    Lifetime k before made (rest ++ [c]) v := by
  have hmore : (rest ++ [c]).filter (·.mentions k) = rest.filter (·.mentions k) ++ [c] := by
    simp [List.filter_append, hc]
  obtain rfl := eq_of_onValue hv
  refine ⟨h.mentioned, h.absent, h.present_append hthere, ?_, ?_, ?_⟩ <;> rw [hmore]
  · rw [List.foldl_append, ← h.permissions]
    rfl
  · have hexpiration := h.expiration
    rw [List.filterMap_append, ← List.cons_append]
    cases he : c.expiration? with
    | none => simpa [he] using hexpiration
    | some e => simpa [he] using hexpiration.append e
  · have hkind := h.kind
    rw [List.filterMap_append]
    cases hk : c.kind? with
    | none => simpa [hk] using hkind
    | some kind => simp [hk]

/-- Only a grant makes an entry. -/
theorem eq_change_of_onValue_none (h : c.onValue none = some v) :
    ∃ made : Grant, c = made.change ∧ v = made.value := by
  cases c with
  | merge ks s kind expiration =>
    cases h
    exact ⟨⟨ks, s, kind, expiration⟩, rfl, rfl⟩
  | _ => cases h

theorem find?_empty (k : Entry.Key) : empty.find? k = none := Std.ExtTreeMap.getElem?_empty

/-- Every entry has a lifetime: a grant made it under a key without an entry, and it has
been there since. -/
theorem lifetime_of_find? (k : Entry.Key) (cs : List Change) :
    ∀ v, (after cs).find? k = some v →
      ∃ before made rest, cs = before ++ Grant.change made :: rest ∧
        Lifetime k before made rest v := by
  -- A lifetime goes on at its end, so the last change is the one to look at: it begins a
  -- lifetime where the key was absent, and goes on with one where it was not.
  induction cs using List.reverseRecOn with
  | nil => exact fun v hv => nomatch find?_empty k ▸ hv
  | append_singleton cs c ih =>
    intro v hv
    have hthere := Option.isSome_of_eq_some hv
    rw [find?_after_append, valueAfter_singleton] at hv
    cases hc : c.mentions k with
    | false =>
      rw [hc] at hv
      obtain ⟨before, made, rest, rfl, hlife⟩ := ih v hv
      refine ⟨before, made, rest ++ [c], by simp, hlife.unmentioned hc ?_⟩
      simpa using hthere
    | true =>
      rw [hc, if_pos rfl] at hv
      cases hold : (after cs).find? k with
      | none =>
        rw [hold] at hv
        obtain ⟨made, rfl, rfl⟩ := eq_change_of_onValue_none hv
        exact ⟨cs, made, [], rfl, lifetime_begins (of_decide_eq_true hc) hold⟩
      | some w =>
        rw [hold] at hv
        obtain ⟨before, made, rest, rfl, hlife⟩ := ih w hold
        refine ⟨before, made, rest ++ [c], by simp, hlife.mentioned_append hc hv ?_⟩
        simpa using hthere

/-! ### Grants in any order and any number of times -/

section

variable {α β : Type} {f : β → α → β} {l l' : List α}

theorem foldl_absorb (hcomm : ∀ b a a', f (f b a) a' = f (f b a') a)
    (hidem : ∀ b a, f (f b a) a = f b a) {a : α} (ha : a ∈ l) (b : β) :
    f (l.foldl f b) a = l.foldl f b := by
  obtain ⟨l₁, l₂, rfl⟩ := List.append_of_mem ha
  have hlast : (l₁ ++ a :: l₂).Perm ((l₁ ++ l₂) ++ [a]) :=
    List.perm_middle.trans (List.perm_append_singleton a _).symm
  rw [hlast.foldl_eq' fun x _ y _ z => hcomm z x y, List.foldl_append]
  exact hidem _ a

theorem foldl_absorb_all (hcomm : ∀ b a a', f (f b a) a' = f (f b a') a)
    (hidem : ∀ b a, f (f b a) a = f b a) (b : β) :
    ∀ {l' : List α}, (∀ a ∈ l', a ∈ l) → l'.foldl f (l.foldl f b) = l.foldl f b
  | [], _ => rfl
  | a :: l', h => by
    rw [List.foldl_cons, foldl_absorb hcomm hidem (h a List.mem_cons_self)]
    exact foldl_absorb_all hcomm hidem b fun x hx => h x (List.mem_cons_of_mem a hx)

/-- What steps that commute and are made once and for all lead to hangs only on which they
are. -/
theorem foldl_eq_of_mem_iff (hcomm : ∀ b a a', f (f b a) a' = f (f b a') a)
    (hidem : ∀ b a, f (f b a) a = f b a) (same : ∀ a, a ∈ l ↔ a ∈ l') (b : β) :
    l.foldl f b = l'.foldl f b :=
  calc l.foldl f b = l'.foldl f (l.foldl f b) :=
        (foldl_absorb_all hcomm hidem b fun a => (same a).mpr).symm
    _ = (l ++ l').foldl f b := List.foldl_append.symm
    _ = (l' ++ l).foldl f b :=
        List.perm_append_comm.foldl_eq' (fun x _ y _ z => hcomm z x y) b
    _ = l.foldl f (l'.foldl f b) := List.foldl_append
    _ = l'.foldl f b := foldl_absorb_all hcomm hidem b fun a => (same a).mp

end

/-- What an entry gives and until when: all of its value but the kind. -/
abbrev Term : Type := PermissionSet × Instant

end Permissions

/-- What a value gives and until when. -/
def Entry.Value.term (v : Entry.Value) : Permissions.Term := (v.permissions, v.expiration)

theorem Entry.Value.ext_term {v w : Entry.Value} (hterm : v.term = w.term)
    (hkind : v.kind = w.kind) : v = w :=
  Entry.Value.ext (congrArg Prod.fst hterm) hkind (congrArg Prod.snd hterm)

namespace Permissions

/-- What a grant makes of the term of an entry. -/
def Grant.onTerm (old : Option Term) (g : Grant) : Option Term :=
  some (old.elim (g.permissions, g.expiration)
    fun t => (t.1.union g.permissions, t.2.later g.expiration))

/-- What a change makes of the term of an entry. -/
def Change.onTerm (old : Option Term) : Change → Option Term
  | merge ks s kind expiration => Grant.onTerm old ⟨ks, s, kind, expiration⟩
  | subtract _ s => old.bind fun t =>
    if (t.1.difference s).isEmpty then none else some (t.1.difference s, t.2)
  | updateKind _ _ => old
  | deleteOn _ => none
  | deleteOf _ => none

/-- What becomes of a term does not hang on the kind. -/
theorem Change.term_onValue (old : Option Entry.Value) (c : Change) :
    c.onTerm (old.map Entry.Value.term) = (c.onValue old).map Entry.Value.term := by
  cases c with
  | merge ks s kind expiration => cases old <;> rfl
  | subtract ks s =>
    cases old with
    | none => rfl
    | some v =>
      simp only [onTerm, onValue, Entry.Value.revoked, Entry.Value.term, Option.map_some,
        Option.bind_some]
      split <;> rfl
  | updateKind key kind => cases old <;> rfl
  | deleteOn key => rfl
  | deleteOf p => rfl

theorem term_valueAfter (k : Entry.Key) (old : Option Entry.Value) (cs : List Change) :
    (valueAfter k old cs).map Entry.Value.term =
      (cs.filter (·.mentions k)).foldl Change.onTerm (old.map Entry.Value.term) :=
  (List.foldl_hom (Option.map Entry.Value.term) (fun old c => Change.term_onValue old c)).symm

namespace Grant

variable {gs gs' : List Grant}

theorem onTerm_right_comm (old : Option Term) (a b : Grant) :
    onTerm (onTerm old a) b = onTerm (onTerm old b) a := by
  cases old with
  | none =>
    exact congrArg some (Prod.ext (PermissionSet.union_comm _ _) (Instant.later_comm _ _))
  | some t =>
    exact congrArg some
      (Prod.ext (PermissionSet.union_right_comm _ _ _) (Instant.later_right_comm _ _ _))

theorem onTerm_onTerm (old : Option Term) (g : Grant) :
    onTerm (onTerm old g) g = onTerm old g := by
  cases old with
  | none => exact congrArg some (Prod.ext (PermissionSet.union_self _) (Instant.later_self _))
  | some t =>
    exact congrArg some (Prod.ext (PermissionSet.union_union _ _) (Instant.later_later _ _))

/-- Which grants there are is all that a term keeps of them. -/
theorem foldl_onTerm (same : ∀ g, g ∈ gs ↔ g ∈ gs') (old : Option Term) :
    gs.foldl onTerm old = gs'.foldl onTerm old :=
  foldl_eq_of_mem_iff onTerm_right_comm onTerm_onTerm same old

theorem filter_map_change (k : Entry.Key) (gs : List Grant) :
    (gs.map change).filter (·.mentions k) = (gs.filter fun g => k ∈ g.keys).map change := by
  rw [List.filter_map]
  rfl

theorem term_valueAfter (k : Entry.Key) (old : Option Entry.Value) (gs : List Grant) :
    (valueAfter k old (gs.map change)).map Entry.Value.term =
      (gs.filter fun g => k ∈ g.keys).foldl onTerm (old.map Entry.Value.term) := by
  rw [Permissions.term_valueAfter, filter_map_change, List.foldl_map]
  rfl

theorem term_valueAfter_eq (same : ∀ g, g ∈ gs ↔ g ∈ gs') (k : Entry.Key)
    (old : Option Entry.Value) :
    (valueAfter k old (gs.map change)).map Entry.Value.term =
      (valueAfter k old (gs'.map change)).map Entry.Value.term := by
  rw [term_valueAfter, term_valueAfter]
  refine foldl_onTerm (fun g => ?_) _
  rw [List.mem_filter, List.mem_filter, same]

theorem kind_valueAfter (k : Entry.Key) (gs : List Grant) :
    ∀ v : Entry.Value, ∃ w, valueAfter k (some v) (gs.map change) = some w ∧ w.kind = v.kind := by
  unfold valueAfter
  rw [filter_map_change]
  induction gs.filter fun g => k ∈ g.keys with
  | nil => exact fun v => ⟨v, rfl, rfl⟩
  | cons g gs ih =>
    intro v
    obtain ⟨w, hw, hkind⟩ := ih (.granted (some v) g.permissions g.kind g.expiration)
    exact ⟨w, hw, hkind⟩

/-- On an entry that is there the order and the number of the grants do not count. -/
theorem valueAfter_eq (same : ∀ g, g ∈ gs ↔ g ∈ gs') (k : Entry.Key) (v : Entry.Value) :
    valueAfter k (some v) (gs.map change) = valueAfter k (some v) (gs'.map change) := by
  obtain ⟨w, hw, hkind⟩ := kind_valueAfter k gs v
  obtain ⟨w', hw', hkind'⟩ := kind_valueAfter k gs' v
  have hterm := term_valueAfter_eq same k (some v)
  rw [hw, hw'] at hterm ⊢
  exact congrArg some
    (Entry.Value.ext_term (Option.some.inj hterm) (hkind.trans hkind'.symm))

end Grant

/-- An entry, if there is one, has a permission. -/
def Holds (old : Option Entry.Value) : Prop := ∀ v, old = some v → v.permissions ≠ .empty

theorem holds_none : Holds none := fun _ h => nomatch h

/-- A change that grants nothing empty leaves no empty entry behind. -/
theorem Holds.onValue {old : Option Entry.Value} (h : Holds old) {c : Change}
    (hc : ∀ g : Grant, c = g.change → g.permissions ≠ .empty) : Holds (c.onValue old) := by
  intro v hv
  cases c with
  | merge ks s kind expiration =>
    have hs := hc ⟨ks, s, kind, expiration⟩ rfl
    cases hv
    cases old with
    | none => exact hs
    | some w => exact PermissionSet.union_ne_empty (h w rfl)
  | subtract ks s =>
    obtain ⟨w, hw, hv⟩ := Option.bind_eq_some_iff.mp hv
    obtain ⟨hleft, hv⟩ := Option.ite_none_left_eq_some.mp hv
    cases hv
    exact fun he => hleft (congrArg PermissionSet.isEmpty he)
  | updateKind key kind =>
    obtain ⟨w, hw, rfl⟩ := Option.map_eq_some_iff.mp hv
    exact h w hw
  | deleteOn key => cases hv
  | deleteOf p => cases hv

theorem Holds.valueAfter (k : Entry.Key) {old : Option Entry.Value} (h : Holds old)
    {cs : List Change} (hcs : ∀ g : Grant, g.change ∈ cs → g.permissions ≠ .empty) :
    Holds (valueAfter k old cs) := by
  induction cs generalizing old with
  | nil => exact h
  | cons c cs ih =>
    rw [← List.singleton_append, valueAfter_append, valueAfter_singleton]
    refine ih ?_ fun g hg => hcs g (List.mem_cons_of_mem c hg)
    split
    · exact h.onValue fun g hg => hcs g (hg ▸ List.mem_cons_self)
    · exact h

/-! ### The whole history -/

/-- What the history of a key tells of the value under it, whatever else is done. -/
structure ToldByHistory (k : Entry.Key) : Prop where
  /-- Only the changes count that mention the key and came after it was last absent. -/
  since_absent : ∀ before rest, (after before).find? k = none →
    (after (before ++ rest)).find? k = valueAfter k none rest
  /-- An entry was made by a grant and has been there since; its permissions, its expiration
  and its kind are what the changes made of them that mention the key. -/
  lifetime : ∀ cs v, (after cs).find? k = some v →
    ∃ before made rest, cs = before ++ Grant.change made :: rest ∧
      Lifetime k before made rest v
  /-- Where there is an entry, grants that follow each other may be put in another order,
  repeated, or made once instead of twice. -/
  regranted : ∀ before (gs gs' : List Grant) rest, (∀ g, g ∈ gs ↔ g ∈ gs') →
    ((after before).find? k).isSome →
      (after (before ++ gs.map Grant.change ++ rest)).find? k =
        (after (before ++ gs'.map Grant.change ++ rest)).find? k
  /-- Where there is none, this changes the kind of the entry at most. -/
  granted : ∀ before (gs gs' : List Grant) rest, (∀ g, g ∈ gs ↔ g ∈ gs') →
    ((after (before ++ gs.map Grant.change ++ rest)).find? k).map Entry.Value.term =
      ((after (before ++ gs'.map Grant.change ++ rest)).find? k).map Entry.Value.term
  /-- If something is granted whenever there is a grant, no entry is left without a
  permission. -/
  nonempty : ∀ cs v, (∀ g : Grant, g.change ∈ cs → g.permissions ≠ .empty) →
    (after cs).find? k = some v → v.permissions ≠ .empty

theorem toldByHistory (k : Entry.Key) : ToldByHistory k where
  since_absent before rest habsent := by
    rw [find?_after_append, habsent]
  lifetime := lifetime_of_find? k
  regranted before gs gs' rest same hthere := by
    obtain ⟨v, hv⟩ := Option.isSome_iff_exists.mp hthere
    simp only [find?_after_append, hv, Grant.valueAfter_eq same]
  granted before gs gs' rest same := by
    simp only [find?_after_append, term_valueAfter, Grant.term_valueAfter_eq same]
  nonempty cs v hcs hv := by
    have hholds := holds_none.valueAfter k hcs
    rw [← find?_empty k, ← find?_foldl_apply k cs indexed_empty] at hholds
    exact hholds v hv

/-- **A value is told by the history of its key.** The calls to the stores, begun without
entries, lead to the table that the changes of the entries among them make; and in each such
table the value under a key is told by the history of the key. -/
theorem values_are_told_by_history {s₀ : State} (h : s₀.InMemory)
    (hempty : s₀.tables.permissions = .empty) :
    (∀ calls : List Tables.Change, (s₀.afterAll (calls.map .call)).tables.permissions =
      after (calls.filterMap Tables.Change.permissions?)) ∧
    ∀ k, ToldByHistory k := by
  refine ⟨fun calls => ?_, toldByHistory⟩
  rw [State.afterAll_calls calls h, Tables.permissions_foldl_apply, hempty]
  rfl

/-- Of two grants to one key, the first of which names the key twice, the one that comes first
decides of which kind the entry is. It makes no other difference which one that is, nor that
the first is made again; and what was granted before everything was taken away is forgotten. -/
theorem first_grant_decides_kind :
    let k : Entry.Key := ⟨.single (.system 9), ⟨.user, "ann"⟩⟩
    let both : PermissionSet := .ofList [.read, .write]
    let a : Grant := ⟨[k, k], .ofList [.read], .study, ⟨10, 0⟩⟩
    let b : Grant := ⟨[k], .ofList [.write], .role, ⟨5, 0⟩⟩
    let gone : List Change := [.merge [k] .full .organization .neverExpires, .subtract [k, k] .full]
    let s := State.start {} ⟨0, 0⟩
    (s.afterAll ((gone ++ [a.change, b.change]).map fun c => .call (.permissions c))
        ).tables.permissions.find? k = some ⟨both, .study, ⟨10, 0⟩⟩ ∧
      (after (gone ++ [b.change, a.change])).find? k = some ⟨both, .role, ⟨10, 0⟩⟩ ∧
      ((after (gone ++ [b.change, a.change, b.change])).find? k).map Entry.Value.term =
        some (both, ⟨10, 0⟩) := by
  intro k both a b gone s
  have hs : s.InMemory := ⟨rfl, rfl⟩
  obtain ⟨hcalls, htold⟩ := values_are_told_by_history hs rfl
  have hfirst : (after (gone ++ [a.change, b.change])).find? k =
      some ⟨both, .study, ⟨10, 0⟩⟩ := by
    decide +kernel
  have habsent : (after gone).find? k = none := by decide +kernel
  refine ⟨?_, ?_, ?_⟩
  · have hrun := hcalls ((gone ++ [a.change, b.change]).map .permissions)
    rw [List.map_map] at hrun
    exact (congrArg (·.find? k) hrun).trans hfirst
  · exact ((htold k).since_absent gone [b.change, a.change] habsent).trans (by decide +kernel)
  · have hsame := (htold k).granted gone [a, b] [b, a, b] [] (by simp [or_comm])
    rw [List.append_nil, List.append_nil] at hsame
    exact hsame.symm.trans (congrArg (Option.map Entry.Value.term) hfirst)

end Permissions
end AccessRegistry
