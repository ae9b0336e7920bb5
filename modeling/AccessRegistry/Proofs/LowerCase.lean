/-
# Which texts have a given word as their lower case

A word of ASCII without capital letters is the lower case of those texts only that spell it in
small and capital letters of ASCII, with one exception: the Kelvin sign stands for a k. Every
other character outside of ASCII has one in its lower case too, the capital I with a dot among
them, whose lower case begins with an i.

The lower case of the capital sigma depends on what stands around it: at the end of a word it is
the final sigma. Both of its forms lie outside of ASCII, and therefore it does not matter here
where words are taken to end (`LowerCase.ofCharsIn_eq_iff` is about any rule for that).

Key definitions: `LowerCase.SameLetter`, `LowerCase.StandsFor`, `LowerCase.ofStringIn`.
Key theorems: `LowerCase.mem_runs_cases`, `LowerCase.ofCharAt_cases`,
`LowerCase.ofCharsIn_eq_iff`, `LowerCase.ofStringIn_eq_iff`.
-/
import Mathlib
import AccessRegistry.Text.LowerCase

namespace AccessRegistry.LowerCase

/-- A character of ASCII. -/
def IsAscii (c : Char) : Prop := c.toNat < 128

instance : DecidablePred IsAscii := fun c => inferInstanceAs (Decidable (c.toNat < 128))

/-- Two characters are the same, or they are one letter from A to Z, small and capital. -/
def SameLetter (c d : Char) : Prop :=
  c = d ∨ c.isUpper ∧ d.toNat = c.toNat + 32 ∨ d.isUpper ∧ c.toNat = d.toNat + 32

instance : DecidableRel SameLetter := fun _ _ =>
  inferInstanceAs (Decidable (_ ∨ _ ∨ _))

theorem isUpper_iff {c : Char} : c.isUpper ↔ 65 ≤ c.toNat ∧ c.toNat ≤ 90 := by
  simp [Char.isUpper, UInt32.le_iff_toNat_le]

theorem toNat_toLower (c : Char) :
    c.toLower.toNat = if c.isUpper then c.toNat + 32 else c.toNat := by
  by_cases h : c.isUpper
  · have hcode := isUpper_iff.mp h
    have hvalid : (c.toNat + 32).isValidChar := .inl (by omega)
    rw [if_pos h, Char.toLower_eq_of_isUpper h, Char.toNat_ofNat, if_pos hvalid]
  · rw [if_neg h, Char.toLower_eq_of_not_isUpper h]

/-- Two characters are the same letter just if ASCII has the same small letter for them. -/
theorem sameLetter_iff {c d : Char} : SameLetter c d ↔ c.toLower = d.toLower := by
  rw [← Char.toNat_inj, toNat_toLower, toNat_toLower, SameLetter, ← Char.toNat_inj]
  simp only [isUpper_iff]
  split <;> split <;> omega

theorem SameLetter.refl (c : Char) : SameLetter c c := .inl rfl

theorem SameLetter.isAscii {c d : Char} (h : SameLetter c d) (hd : IsAscii d) : IsAscii c := by
  unfold SameLetter IsAscii at *
  simp only [isUpper_iff] at h
  rcases h with rfl | h | h <;> omega

/-- A character of ASCII that is no capital letter. -/
structure IsSmall (d : Char) : Prop where
  isAscii : IsAscii d
  not_isUpper : ¬ d.isUpper

instance : DecidablePred IsSmall := fun d =>
  decidable_of_iff (IsAscii d ∧ ¬ d.isUpper) ⟨fun h => ⟨h.1, h.2⟩, fun h => ⟨h.1, h.2⟩⟩

theorem IsSmall.toLower_eq {d : Char} (h : IsSmall d) : d.toLower = d :=
  Char.toLower_eq_of_not_isUpper h.not_isUpper

/-- The Kelvin sign, whose lower case is a k. -/
def kelvinSign : Char := Char.ofNat 8490

/-- The capital sigma. -/
def capitalSigma : Char := Char.ofNat 931

/-- The small sigma at the end of a word. -/
def finalSigma : Char := Char.ofNat 962

/-- The lower case of a character, where a capital sigma may end a word. -/
def ofCharAt (atEnd : Bool) (c : Char) : List Char :=
  if c = capitalSigma ∧ atEnd then [finalSigma] else ofChar c

/-- The run of the capital letters of ASCII. -/
def Run.capitals : Run := ⟨65, 90, 1, 32⟩

/-- The run of the Kelvin sign. -/
def Run.kelvin : Run := ⟨8490, 8490, 1, -8383⟩

/-- A run outside of ASCII whose lower case is outside of ASCII, too. -/
def Run.StaysOutside (r : Run) : Prop :=
  128 ≤ r.first ∧ 128 ≤ r.first + r.offset ∧
    (r.last + r.offset < 0xD800 ∨ 0xDFFF < r.first + r.offset ∧ r.last + r.offset < 0x110000)

instance : DecidablePred Run.StaysOutside := fun _ =>
  inferInstanceAs (Decidable (_ ∧ _ ∧ (_ ∨ _ ∧ _)))

/-- All runs but two stay outside of ASCII. -/
theorem mem_runs_cases : ∀ r ∈ runs, r = .capitals ∨ r = .kelvin ∨ r.StaysOutside := by
  decide +kernel

theorem Run.bounds_of_holds {r : Run} {n : Nat} (h : r.holds n) : r.first ≤ n ∧ n ≤ r.last := by
  simp only [Run.holds, Bool.and_eq_true, decide_eq_true_eq] at h
  exact h.1

theorem holds_capitals {c : Char} : Run.capitals.holds c.toNat ↔ c.isUpper := by
  rw [isUpper_iff]
  simp only [Run.holds, Bool.and_eq_true, decide_eq_true_eq]
  simp [Run.capitals, Nat.mod_one]

/-- A character of ASCII lies in no run but that of the capital letters. -/
theorem eq_capitals_of_holds {r : Run} {c : Char} (hc : IsAscii c) (hr : r ∈ runs)
    (h : r.holds c.toNat) : r = .capitals := by
  unfold IsAscii at hc
  have hbounds := Run.bounds_of_holds h
  rcases mem_runs_cases r hr with hcase | rfl | hcase
  · exact hcase
  · have hfirst : 8490 ≤ c.toNat := hbounds.1
    omega
  · have hfirst := hcase.1
    omega

theorem ofChar_of_isAscii {c : Char} (h : IsAscii c) : ofChar c = [c.toLower] := by
  have hdot : c.toNat ≠ 304 := by
    unfold IsAscii at h
    omega
  rw [ofChar, if_neg hdot]
  by_cases hupper : c.isUpper
  · have hfind : runs.find? (·.holds c.toNat) = some .capitals :=
      List.find?_cons_of_pos (holds_capitals.mpr hupper)
    rw [hfind, Char.toLower_eq_of_isUpper hupper]
    rfl
  · have hfind : runs.find? (·.holds c.toNat) = none := by
      rw [List.find?_eq_none]
      intro r hr hholds
      rw [eq_capitals_of_holds h hr hholds] at hholds
      exact hupper (holds_capitals.mp hholds)
    rw [hfind, Char.toLower_eq_of_not_isUpper hupper]

/-- A character outside of ASCII has one in its lower case, unless it is the Kelvin sign. -/
theorem exists_mem_ofChar {c : Char} (hc : ¬ IsAscii c) (hkelvin : c ≠ kelvinSign) :
    ∃ d ∈ ofChar c, ¬ IsAscii d := by
  unfold ofChar
  by_cases hdot : c.toNat = 304
  · -- The capital I with a dot keeps its dot as a character of its own.
    rw [if_pos hdot]
    exact ⟨Char.ofNat 775, by simp, by decide⟩
  rw [if_neg hdot]
  cases hfind : runs.find? (·.holds c.toNat) with
  | none => exact ⟨c, List.mem_singleton_self c, hc⟩
  | some r =>
    refine ⟨_, List.mem_singleton_self _, ?_⟩
    have hholds := List.find?_some hfind
    have hbounds := Run.bounds_of_holds hholds
    unfold IsAscii at hc
    rcases mem_runs_cases r (List.mem_of_find?_eq_some hfind) with rfl | rfl | h
    · have hlast : c.toNat ≤ 90 := hbounds.2
      omega
    · have hcode : c.toNat = 8490 := Nat.le_antisymm hbounds.2 hbounds.1
      exact absurd (Char.toNat_inj.mp hcode) hkelvin
    · obtain ⟨-, hoffset, hvalid⟩ := h
      have hchar : (c.toNat + r.offset).toNat.isValidChar := by
        unfold Nat.isValidChar
        omega
      rw [IsAscii, Char.toNat_ofNat, if_pos hchar]
      omega

/-- What the lower case of a character can be: a character of ASCII, a k for the Kelvin sign,
or a row with a character outside of ASCII. -/
theorem ofCharAt_cases (atEnd : Bool) (c : Char) :
    IsAscii c ∧ ofCharAt atEnd c = [c.toLower] ∨
    c = kelvinSign ∧ ofCharAt atEnd c = ['k'] ∨
    ¬ IsAscii c ∧ c ≠ kelvinSign ∧ ∃ d ∈ ofCharAt atEnd c, ¬ IsAscii d := by
  unfold ofCharAt
  by_cases hsigma : c = capitalSigma ∧ atEnd
  · rw [if_pos hsigma, hsigma.1]
    exact .inr (.inr ⟨by decide, by decide, finalSigma, by simp, by decide⟩)
  rw [if_neg hsigma]
  by_cases hc : IsAscii c
  · exact .inl ⟨hc, ofChar_of_isAscii hc⟩
  by_cases hkelvin : c = kelvinSign
  · rw [hkelvin]
    exact .inr (.inl ⟨rfl, by decide +kernel⟩)
  · exact .inr (.inr ⟨hc, hkelvin, exists_mem_ofChar hc hkelvin⟩)

/-! ### The lower case of a text -/

/-- A rule for the ends of words: what stands in front of a character, the nearest first, and
what stands behind it say whether it ends a word. -/
abbrev WordEnds := List Char → List Char → Bool

/-- The lower case of a row of characters behind others. -/
def ofCharsIn (ends : WordEnds) : List Char → List Char → List Char
  | _, [] => []
  | before, c :: after => ofCharAt (ends before after) c ++ ofCharsIn ends (c :: before) after

/-- The lower case of a text whose words end by a rule. -/
def ofStringIn (ends : WordEnds) (s : String) : String :=
  String.ofList (ofCharsIn ends [] s.toList)

/-- Where no word ends, every capital sigma has the same lower case. -/
theorem ofCharsIn_false (before cs : List Char) :
    ofCharsIn (fun _ _ => false) before cs = ofChars cs := by
  induction cs generalizing before with
  | nil => rfl
  | cons c cs ih => simp [ofCharsIn, ofCharAt, ofChars, ih]

/-- A character stands for one of ASCII: as the same letter, or as the Kelvin sign for a k. -/
def StandsFor (c d : Char) : Prop := SameLetter c d ∨ c = kelvinSign ∧ d = 'k'

section

variable {c d : Char}

theorem standsFor_of_isAscii (hc : IsAscii c) (hd : IsSmall d) : StandsFor c d ↔ c.toLower = d := by
  have hkelvin : c ≠ kelvinSign := by
    rintro rfl
    exact absurd hc (by decide)
  simp [StandsFor, hkelvin, sameLetter_iff, hd.toLower_eq]

theorem standsFor_of_not_isAscii (hc : ¬ IsAscii c) (hd : IsSmall d) :
    StandsFor c d ↔ c = kelvinSign ∧ d = 'k' := by
  have hletter : ¬ SameLetter c d := fun h => hc (h.isAscii hd.isAscii)
  simp [StandsFor, hletter]

end

/-- A word of ASCII without capital letters is the lower case of the rows that have, for each of
its characters, one that stands for it, wherever words are taken to end. -/
theorem ofCharsIn_eq_iff (ends : WordEnds) {cs word : List Char} (before : List Char)
    (hword : ∀ d ∈ word, IsSmall d) :
    ofCharsIn ends before cs = word ↔ List.Forall₂ StandsFor cs word := by
  induction cs generalizing before word with
  | nil => rw [ofCharsIn, List.forall₂_nil_left_iff, eq_comm]
  | cons c cs ih =>
    -- What the first character gives is one letter of ASCII, to be compared with the first of the
    -- word, or it leaves ASCII, and then neither side holds.
    rw [ofCharsIn]
    rcases ofCharAt_cases (ends before cs) c with
      ⟨hc, hform⟩ | ⟨rfl, hform⟩ | ⟨hc, hkelvin, x, hx, hout⟩
    · rw [hform]
      cases word with
      | nil => simp
      | cons d word =>
        rw [List.forall_mem_cons] at hword
        simp [ih _ hword.2, standsFor_of_isAscii hc hword.1]
    · have hout : ¬ IsAscii kelvinSign := by decide
      rw [hform]
      cases word with
      | nil => simp
      | cons d word =>
        rw [List.forall_mem_cons] at hword
        simp [ih _ hword.2, standsFor_of_not_isAscii hout hword.1, @eq_comm _ 'k' d]
    · constructor
      · rintro rfl
        exact absurd (hword x (List.mem_append_left _ hx)).isAscii hout
      · intro h
        cases h with
        | cons hcd h =>
          have hsmall := hword _ List.mem_cons_self
          exact absurd ((standsFor_of_not_isAscii hc hsmall).mp hcd).1 hkelvin

theorem ofStringIn_eq_iff (ends : WordEnds) {s word : String}
    (hword : ∀ d ∈ word.toList, IsSmall d) :
    ofStringIn ends s = word ↔ List.Forall₂ StandsFor s.toList word.toList := by
  rw [ofStringIn, ← String.toList_inj, String.toList_ofList, ofCharsIn_eq_iff ends [] hword]

theorem ofStringIn_false (s : String) : ofStringIn (fun _ _ => false) s = ofString s := by
  rw [ofStringIn, ofCharsIn_false, ofString]

end AccessRegistry.LowerCase
