/-
# Written values are read back from their texts

A value of constants, integers, texts, arrays and objects is read back from the text that it is
written as, whatever follows that text. A reader of numbers does not know where a number ends
before it has seen what comes next, so that what follows must not go on with the number. Inside
an array or an object it cannot: a comma or a bracket follows.

Key definitions: `Json.Plain`, `Json.Text.Ends`, `Json.Text.ReadsBack`.
Key theorems: `Json.Text.number?_write`, `Json.Text.text?_quote`, `Json.Text.items_write`,
`Json.Text.members_write`, `Json.Plain.ofText_write`.
-/
import AccessRegistry.Json.Text
import AccessRegistry.Proofs.Numerals

namespace AccessRegistry.Json

namespace Text

open Numeral (valueOf valueOf_append_singleton valueOf_le_append valueOf_toDigits)

/-- Only the number zero begins with a zero. -/
theorem head?_toDigits {n : Nat} (h : (Nat.toDigits 10 n).head? = some '0') : n = 0 := by
  induction n using Nat.strongRecOn with
  | ind n ih =>
    obtain hn | hn := Nat.lt_or_ge n 10
    · rw [Nat.toDigits_of_lt_base hn] at h
      simpa using h
    · have hhead : (Nat.toDigits 10 (n / 10)).head? = some '0' := by
        obtain ⟨c, cs, hcs⟩ :=
          List.exists_cons_of_ne_nil (Nat.toDigits_ne_nil (n := n / 10) (b := 10))
        rw [Nat.toDigits_of_base_le (by decide) hn, hcs] at h
        rwa [hcs]
      have hzero := ih _ (by omega) hhead
      omega

/-- All digits of a number below 2 to the 64 count. -/
theorem significant_eq (done ds : List Char) (h : valueOf (done ++ ds) < UInt64.size) :
    significant (valueOf done) ds = (valueOf (done ++ ds), []) := by
  induction ds generalizing done with
  | nil => rw [significant, List.append_nil]
  | cons c ds ih =>
    rw [List.append_cons] at h ⊢
    have hnext : valueOf (done ++ [c]) < UInt64.size :=
      Nat.lt_of_le_of_lt (valueOf_le_append _ _) h
    rw [significant, ← valueOf_append_singleton, if_pos hnext, ih _ h]

/-- What follows a number and does not go on with it. -/
def Ends (rest : List Char) : Prop :=
  ∀ c ∈ rest.head?, c.isDigit = false ∧ c ≠ '.' ∧ c ≠ 'e' ∧ c ≠ 'E'

variable {rest : List Char}

theorem takeWhile_isDigit {ds : List Char} (hds : ∀ c ∈ ds, c.isDigit) (hrest : Ends rest) :
    (ds ++ rest).takeWhile Char.isDigit = ds := by
  rw [List.takeWhile_append_of_pos hds]
  cases rest with
  | nil => simp
  | cons c cs => simp [(hrest c rfl).1]

theorem fraction?_of_ends (h : Ends rest) : fraction? rest = some ([], rest) := by
  unfold fraction?
  split
  · exact absurd rfl (h '.' rfl).2.1
  · rfl

theorem exponent?_of_ends (h : Ends rest) : exponent? rest = some (none, rest) := by
  cases rest with
  | nil => rfl
  | cons c cs =>
    obtain ⟨-, -, he, hE⟩ := h c rfl
    exact if_neg (not_or.mpr ⟨he, hE⟩)

theorem signed_of_isDigit {ds : List Char} (hne : ds ≠ []) (hds : ∀ c ∈ ds, c.isDigit) :
    signed (ds ++ rest) = (false, ds ++ rest) := by
  obtain ⟨c, ds, rfl⟩ := List.exists_cons_of_ne_nil hne
  rw [List.cons_append]
  unfold signed
  split
  · rename_i h
    obtain ⟨rfl, -⟩ := List.cons_eq_cons.mp h
    exact absurd (hds _ List.mem_cons_self) (by decide)
  · rfl

/-- An integer of 64 bits is read back from its text. -/
theorem number?_write (negative : Bool) {n : Nat} (hn : n < UInt64.size) (hrest : Ends rest) :
    number? ((Number.write ⟨negative, n, 0, true⟩).toList ++ rest) =
      some (⟨negative, n, 0, true⟩, rest) := by
  have hdigits : ∀ c ∈ Nat.toDigits 10 n, c.isDigit := fun c hc =>
    Nat.isDigit_of_mem_toDigits (by decide) (by decide) hc
  have hsigned : signed ((Number.write ⟨negative, n, 0, true⟩).toList ++ rest) =
      (negative, Nat.toDigits 10 n ++ rest) := by
    cases negative with
    | true => simp [Number.write, signed]
    | false => simp [Number.write, signed_of_isDigit Nat.toDigits_ne_nil hdigits]
  have hwhole := takeWhile_isDigit hdigits hrest
  have hleading : ((Nat.toDigits 10 n).isEmpty || (Nat.toDigits 10 n).head? == some '0' &&
      1 < (Nat.toDigits 10 n).length) = false := by
    rw [Bool.or_eq_false_iff, List.isEmpty_eq_false_iff, Bool.and_eq_false_imp]
    refine ⟨Nat.toDigits_ne_nil, fun h => ?_⟩
    rw [head?_toDigits (eq_of_beq h)]
    decide
  have hvalue : significant 0 (Nat.toDigits 10 n) = (n, []) := by
    have hall := significant_eq [] (Nat.toDigits 10 n)
      (by rwa [List.nil_append, valueOf_toDigits])
    rwa [List.nil_append, valueOf_toDigits] at hall
  simp [number?, hsigned, hwhole, hleading, fraction?_of_ends hrest, exponent?_of_ends hrest,
    hvalue, significant]

/-- Rounding does not even double a number. -/
theorem nearest53_le {n : Nat} (hn : n ≠ 0) : Number.nearest53 n ≤ 2 * n := by
  have hunit : Nat.pow 2 (Nat.log2 n - 52) ≤ n :=
    Nat.le_trans (Nat.pow_le_pow_right (by decide) (Nat.sub_le _ _)) (Nat.log2_self_le hn)
  have hbelow := Nat.div_mul_le_self n (Nat.pow 2 (Nat.log2 n - 52))
  unfold Number.nearest53
  dsimp only
  split
  · rw [Nat.add_mul]
    omega
  · omega

theorem isHuge_of_lt {negative : Bool} {n : Nat} (hn : n < UInt64.size) :
    Number.isHuge ⟨negative, n, 0, true⟩ = false := by
  by_cases hzero : n = 0
  · simp [Number.isHuge, hzero]
  · have hle := nearest53_le hzero
    have hone : Number.nearest53 1 = 1 := by decide
    have hpow : ∀ k l, k ≤ l → Nat.pow 2 k ≤ Nat.pow 2 l := fun _ _ =>
      Nat.pow_le_pow_right (by decide)
    have hoverflow : 2 * UInt64.size < Number.overflow :=
      calc 2 * UInt64.size < Nat.pow 2 66 := by decide
        _ ≤ Nat.pow 2 970 := hpow 66 970 (by decide)
        _ ≤ Number.overflow := by
          rw [Number.overflow]
          generalize Nat.pow 2 970 = m
          exact Nat.le_mul_of_pos_left m (by decide)
    have hsmall : ¬ Number.overflow ≤ Number.nearest53 n := by omega
    simp [Number.isHuge, hone, Nat.lt_of_not_le hsmall]

/-- A quoted character is read back. -/
theorem quoted?_escape (done : List Char) (c : Char) (cs : List Char) :
    quoted? done (escape c ++ cs) = quoted? (c :: done) cs := by
  have hcontrol : ∀ n : Fin 32, Hex.value? ['0', '0', Nat.digitChar (n / 16),
      Nat.digitChar (n % 16)] = some n.val := by decide
  have hc : ∀ n, c.toNat = n → c = Char.ofNat n := fun n h => by rw [← h, Char.ofNat_toNat]
  unfold escape
  -- Two characters stand behind a backslash, and five are written as letters behind one.
  iterate 2 (split; · subst c; rfl)
  iterate 5 (split; · rename_i h; rw [hc _ h]; rfl)
  split
  · rename_i h
    have hvalue := hcontrol ⟨c.toNat, h⟩
    simp only [List.cons_append, List.nil_append]
    rw [quoted?, hvalue]
    dsimp only
    rw [if_neg (by omega), if_neg (by omega), Char.ofNat_toNat]
  · rename_i hquote hbackslash _ _ _ _ _ hcontrol
    rw [List.singleton_append, quoted?.eq_def]
    split <;> simp_all

theorem text?_quote (s : String) (rest : List Char) :
    text? ((quote s).toList ++ rest) = some (some s, rest) := by
  have hquoted : ∀ done cs, quoted? done (cs.flatMap escape ++ '"' :: rest) =
      some (String.ofList (done.reverse ++ cs), rest) := by
    intro done cs
    induction cs generalizing done with
    | nil => simp [quoted?]
    | cons c cs ih => simp [quoted?_escape, ih]
  simp [quote, text?, hquoted]

/-! ### Values -/

variable {fuel room : Nat} {cs : List Char}

theorem skip_cons {c : Char} (h : isSpace c = false) (cs : List Char) :
    skip (c :: cs) = c :: cs := by
  rw [skip, List.dropWhile_cons_of_neg (by simp [h])]

theorem skip_quote (s : String) : skip ((quote s).toList ++ rest) = (quote s).toList ++ rest := by
  rw [quote, String.toList_ofList]
  exact skip_cons (by decide) _

theorem value_quote (fuel room : Nat) (s : String) (rest : List Char) :
    value (fuel + 1) room ((quote s).toList ++ rest) = (.text s, some rest) := by
  have htext := text?_quote s rest
  have hquote : (quote s).toList ++ rest = '"' :: (s.toList.flatMap escape ++ '"' :: rest) := by
    simp [quote]
  rw [hquote] at htext ⊢
  rw [value, skip_cons (by decide)]
  simp only [htext]

theorem value_number {negative : Bool} {n : Nat} (hn : n < UInt64.size) (hrest : Ends rest) :
    value (fuel + 1) room ((Number.write ⟨negative, n, 0, true⟩).toList ++ rest) =
      (.number ⟨negative, n, 0, true⟩, some rest) := by
  have hnumber := number?_write negative hn hrest
  obtain ⟨c, cs, hcs, hc⟩ : ∃ c cs,
      (Number.write ⟨negative, n, 0, true⟩).toList = c :: cs ∧ (c = '-' ∨ c.isDigit) := by
    cases negative with
    | true => exact ⟨'-', Nat.toDigits 10 n, by simp [Number.write], .inl rfl⟩
    | false =>
      obtain ⟨c, cs, hcs⟩ := List.exists_cons_of_ne_nil (Nat.toDigits_ne_nil (n := n) (b := 10))
      refine ⟨c, cs, by simp [Number.write, hcs], .inr ?_⟩
      exact Nat.isDigit_of_mem_toDigits (by decide) (by decide) (hcs ▸ List.mem_cons_self)
  rw [hcs] at hnumber ⊢
  have hspace : isSpace c = false := by
    simp only [isSpace, Bool.or_eq_false_iff, beq_eq_false_iff_ne]
    refine ⟨⟨⟨?_, ?_⟩, ?_⟩, ?_⟩ <;> (rintro rfl; revert hc; decide)
  rw [List.cons_append] at hnumber ⊢
  rw [value, skip_cons hspace]
  split
  any_goals
    rename_i h
    obtain ⟨rfl, -⟩ := List.cons_eq_cons.mp h
    exact absurd hc (by decide)
  · rename_i h
    cases h
  · rw [hnumber]
    simp [isHuge_of_lt hn]

/-- The text of a value is read back whatever follows it, with more fuel than it is long. -/
def ReadsBack (room : Nat) (j : Json) : Prop :=
  ∀ (fuel : Nat) (rest : List Char), j.write.toList.length < fuel → Ends rest →
    value fuel room (j.write.toList ++ rest) = (j, some rest)

variable {j : Json}

theorem ReadsBack.of_succ (h : ∀ fuel rest, j.write.toList.length ≤ fuel → Ends rest →
    value (fuel + 1) room (j.write.toList ++ rest) = (j, some rest)) : ReadsBack room j := by
  intro fuel rest hfuel hrest
  cases fuel with
  | zero => exact absurd hfuel (Nat.not_lt_zero _)
  | succ fuel => exact h fuel rest (Nat.le_of_lt_succ hfuel) hrest

theorem ReadsBack.before {c : Char} (h : ReadsBack room j) (hfuel : j.write.toList.length < fuel)
    (hc : c ∈ [',', ']', '}']) (rest : List Char) :
    value fuel room (j.write.toList ++ c :: rest) = (j, some (c :: rest)) := by
  refine h _ _ hfuel ?_
  rintro _ ⟨⟩
  simp only [List.mem_cons, List.not_mem_nil, or_false] at hc
  obtain rfl | rfl | rfl := hc <;> decide

theorem items_close {done : List Json} (h : value fuel room cs = (j, some (']' :: rest))) :
    items (fuel + 1) room done cs = (.array (j :: done).reverse, some rest) := by
  rw [items, h]
  dsimp only
  rw [skip_cons (by decide)]
  rfl

theorem items_comma {done : List Json} (h : value fuel room cs = (j, some (',' :: rest))) :
    items (fuel + 1) room done cs = items fuel room (j :: done) rest := by
  rw [items, h]
  dsimp only
  rw [skip_cons (by decide)]
  rfl

theorem members_close {done : List (Option String × Json)} (name : String)
    (h : value fuel room cs = (j, some ('}' :: rest))) :
    members (fuel + 1) room done ((quote name).toList ++ ':' :: cs) =
      (((some name, j) :: done).reverse, some rest) := by
  rw [members, skip_quote, text?_quote]
  dsimp only
  rw [skip_cons (by decide)]
  simp only [h]
  rw [skip_cons (by decide)]
  rfl

theorem members_comma {done : List (Option String × Json)} (name : String)
    (h : value fuel room cs = (j, some (',' :: rest))) :
    members (fuel + 1) room done ((quote name).toList ++ ':' :: cs) =
      members fuel room ((some name, j) :: done) rest := by
  rw [members, skip_quote, text?_quote]
  dsimp only
  rw [skip_cons (by decide)]
  simp only [h]
  rw [skip_cons (by decide)]
  rfl

/-- Texts with commas between them. -/
def separated (texts : List (List Char)) : List Char := [','].intercalate texts

theorem separated_cons_cons (text next : List Char) (texts : List (List Char)) :
    separated (text :: next :: texts) = text ++ ',' :: separated (next :: texts) := by
  rw [separated, List.intercalate_cons_cons, List.append_assoc]
  rfl

theorem items_write {js done : List Json} (h : ∀ j' ∈ j :: js, ReadsBack room j')
    (hfuel : (separated ((j :: js).map (·.write.toList))).length + 1 < fuel) :
    items fuel room done (separated ((j :: js).map (·.write.toList)) ++ ']' :: rest) =
      (.array (done.reverse ++ j :: js), some rest) := by
  induction js generalizing j done fuel with
  | nil =>
    obtain ⟨fuel, rfl⟩ := Nat.exists_eq_add_one_of_ne_zero (Nat.ne_zero_of_lt hfuel)
    simp only [List.map_cons, List.map_nil, separated, List.intercalate_singleton] at hfuel ⊢
    have hj : value fuel room (j.write.toList ++ ']' :: rest) = (j, some (']' :: rest)) :=
      (h j List.mem_cons_self).before (by omega) (by decide) rest
    rw [items_close hj, List.reverse_cons]
  | cons k js ih =>
    obtain ⟨fuel, rfl⟩ := Nat.exists_eq_add_one_of_ne_zero (Nat.ne_zero_of_lt hfuel)
    simp only [List.map_cons, separated_cons_cons, List.length_append, List.length_cons,
      List.append_assoc, List.cons_append] at hfuel ih ⊢
    have hj : ∀ rest, value fuel room (j.write.toList ++ ',' :: rest) = (j, some (',' :: rest)) :=
      (h j List.mem_cons_self).before (by omega) (by decide)
    rw [items_comma (hj _), ih (List.forall_mem_cons.mp h).2 (by omega), List.reverse_cons,
      List.append_assoc, List.singleton_append]

/-- The text of a member. -/
def member (m : String × Json) : List Char := (quote m.1).toList ++ ':' :: m.2.write.toList

theorem members_write {m : String × Json} {ms : List (String × Json)}
    {done : List (Option String × Json)} (h : ∀ m' ∈ m :: ms, ReadsBack room m'.2)
    (hfuel : (separated ((m :: ms).map member)).length + 1 < fuel) :
    members fuel room done (separated ((m :: ms).map member) ++ '}' :: rest) =
      (done.reverse ++ (m :: ms).map (fun m' => (some m'.1, m'.2)), some rest) := by
  induction ms generalizing m done fuel with
  | nil =>
    obtain ⟨fuel, rfl⟩ := Nat.exists_eq_add_one_of_ne_zero (Nat.ne_zero_of_lt hfuel)
    simp only [List.map_cons, List.map_nil, separated, List.intercalate_singleton, member,
      List.length_append, List.length_cons, List.append_assoc, List.cons_append] at hfuel ⊢
    have hm : value fuel room (m.2.write.toList ++ '}' :: rest) = (m.2, some ('}' :: rest)) :=
      (h m List.mem_cons_self).before (by omega) (by decide) rest
    rw [members_close m.1 hm, List.reverse_cons]
  | cons n ms ih =>
    obtain ⟨fuel, rfl⟩ := Nat.exists_eq_add_one_of_ne_zero (Nat.ne_zero_of_lt hfuel)
    rw [List.map_cons, List.map_cons, separated_cons_cons, ← List.map_cons] at hfuel ⊢
    simp only [member, List.length_append, List.length_cons, List.append_assoc,
      List.cons_append] at hfuel ⊢
    have hm : ∀ rest, value fuel room (m.2.write.toList ++ ',' :: rest) =
        (m.2, some (',' :: rest)) :=
      (h m List.mem_cons_self).before (by omega) (by decide)
    rw [members_comma m.1 (hm _), ih (List.forall_mem_cons.mp h).2 (by omega), List.reverse_cons,
      List.append_assoc, List.singleton_append, List.map_cons (a := m)]

/-! ### Arrays and objects -/

theorem items_of_bracket {done : List Json} (h : skip cs = ']' :: rest) :
    (items fuel room done cs).2 = none := by
  cases fuel with
  | zero => rfl
  | succ fuel =>
    have hvalue : value fuel room cs = (.broken, none) := by
      cases fuel with
      | zero => rfl
      | succ fuel =>
        rw [value, h]
        rfl
    rw [items, hvalue]

theorem members_of_brace {done : List (Option String × Json)} (h : skip cs = '}' :: rest) :
    (members fuel room done cs).2 = none := by
  cases fuel with
  | zero => rfl
  | succ fuel =>
    rw [members, h]
    rfl

theorem value_bracket (h : ∀ rest, skip cs ≠ ']' :: rest) :
    value (fuel + 1) (room + 1) ('[' :: cs) = items fuel room [] cs := by
  rw [value, skip_cons (by decide)]
  -- Of the two branches behind the bracket, `h` leaves the one that reads items.
  simp only
  rfl

theorem value_brace (h : ∀ rest, skip cs ≠ '}' :: rest) :
    value (fuel + 1) (room + 1) ('{' :: cs) =
      (ofMembers (members fuel room [] cs).1 (members fuel room [] cs).2,
        (members fuel room [] cs).2) := by
  rw [value, skip_cons (by decide)]
  simp only
  rfl

theorem named_map (ms : List (String × Json)) :
    named (ms.map fun m => (some m.1, m.2)) = ms := by
  induction ms with
  | nil => rfl
  | cons m ms ih => rw [List.map_cons, named, ih]

theorem ofMembers_map (ms : List (String × Json)) (rest : List Char) :
    ofMembers (ms.map fun m => (some m.1, m.2)) (some rest) = .object ms := by
  simp [ofMembers, named_map]

theorem toList_write_array (js : List Json) :
    (write (.array js)).toList = '[' :: (separated (js.map (·.write.toList)) ++ [']']) := by
  have hitems : writeItems js = js.map write := by
    induction js with
    | nil => rfl
    | cons j js ih => rw [writeItems, ih, List.map_cons]
  simp [write, hitems, String.toList_intercalate, separated, Function.comp_def]

theorem toList_write_object (ms : List (String × Json)) :
    (write (.object ms)).toList = '{' :: (separated (ms.map member) ++ ['}']) := by
  have hmembers : writeMembers ms = ms.map fun m => quote m.1 ++ ":" ++ m.2.write := by
    induction ms with
    | nil => rfl
    | cons m ms ih => rw [writeMembers, ih, List.map_cons]
  show _ = '{' :: (separated (ms.map fun m => member m) ++ ['}'])
  simp [write, hmembers, String.toList_intercalate, separated, Function.comp_def, member]

/-- An array is read back if its items are. -/
theorem ReadsBack.array {js : List Json} (h : ∀ j ∈ js, ReadsBack room j) :
    ReadsBack (room + 1) (.array js) := by
  refine .of_succ fun fuel rest hfuel _ => ?_
  rw [toList_write_array] at hfuel ⊢
  cases js with
  | nil =>
    rw [value, List.cons_append, skip_cons (by decide)]
    rfl
  | cons j js =>
    simp only [List.length_cons, List.length_append, List.length_nil, List.cons_append,
      List.append_assoc, List.nil_append] at hfuel ⊢
    have hitems : items fuel room [] (separated ((j :: js).map (·.write.toList)) ++ ']' :: rest) =
        (.array (j :: js), some rest) := items_write h (by omega)
    have hskip : ∀ rest', skip (separated ((j :: js).map (·.write.toList)) ++ ']' :: rest) ≠
        ']' :: rest' := by
      intro rest' hskip
      have hnone : (items fuel room [] _).2 = none := items_of_bracket hskip
      rw [hitems] at hnone
      cases hnone
    rw [value_bracket hskip, hitems]

/-- An object is read back if the values of its members are. -/
theorem ReadsBack.object {ms : List (String × Json)} (h : ∀ m ∈ ms, ReadsBack room m.2) :
    ReadsBack (room + 1) (.object ms) := by
  refine .of_succ fun fuel rest hfuel _ => ?_
  rw [toList_write_object] at hfuel ⊢
  cases ms with
  | nil =>
    rw [value, List.cons_append, skip_cons (by decide)]
    rfl
  | cons m ms =>
    simp only [List.length_cons, List.length_append, List.length_nil, List.cons_append,
      List.append_assoc, List.nil_append] at hfuel ⊢
    have hmembers : members fuel room [] (separated ((m :: ms).map member) ++ '}' :: rest) =
        ((m :: ms).map (fun m' => (some m'.1, m'.2)), some rest) := members_write h (by omega)
    have hskip : ∀ rest', skip (separated ((m :: ms).map member) ++ '}' :: rest) ≠
        '}' :: rest' := by
      intro rest' hskip
      have hnone : (members fuel room [] _).2 = none := members_of_brace hskip
      rw [hmembers] at hnone
      cases hnone
    rw [value_brace hskip, hmembers]
    exact congrArg (·, some rest) (ofMembers_map (m :: ms) rest)

end Text

/-- A value of constants, integers of 64 bits and texts, in at most `room` arrays and objects
inside each other. -/
inductive Plain : (room : Nat) → Json → Prop where
  | null {room : Nat} : Plain room .null
  | bool {room : Nat} (b : Bool) : Plain room (.bool b)
  | integer {room : Nat} {i : Int} (h : i.natAbs < UInt64.size) : Plain room (.ofInt i)
  | text {room : Nat} (s : String) : Plain room (.text s)
  | array {room : Nat} {js : List Json} (h : ∀ j ∈ js, Plain room j) : Plain (room + 1) (.array js)
  | object {room : Nat} {ms : List (String × Json)} (h : ∀ m ∈ ms, Plain room m.2) :
    Plain (room + 1) (.object ms)

namespace Plain

variable {room : Nat} {j : Json}

theorem readsBack (h : Plain room j) : Text.ReadsBack room j := by
  induction h with
  | null => exact .of_succ fun fuel rest _ _ => by rw [Text.value]; rfl
  | bool b => exact .of_succ fun fuel rest _ _ => by cases b <;> rw [Text.value] <;> rfl
  | integer h => exact .of_succ fun _ _ _ hrest => Text.value_number h hrest
  | text s => exact .of_succ fun fuel rest _ _ => Text.value_quote fuel _ s rest
  | array _ ih => exact .array ih
  | object _ ih => exact .object ih

/-- A plain value is read back from its text. -/
theorem ofText_write (h : Plain Text.depthLimit j) : ofText j.write = j := by
  have hvalue := h.readsBack (2 * j.write.toList.length + 2) [] (by omega) (by simp [Text.Ends])
  rw [List.append_nil] at hvalue
  exact congrArg Prod.fst hvalue

end Plain
end AccessRegistry.Json
