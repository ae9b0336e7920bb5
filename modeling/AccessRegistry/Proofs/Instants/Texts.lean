/-
# Instants are read back from their texts

The text of an instant is read part by part: numbers of a fixed width, marks between them, a
fraction and the letter of the offset. An instant that has a date is what its text writes; and an
instant that was read from any text has a date.

Key definitions: `Instant.Legible`.
Key theorems: `Instant.ofChars?_toText`, `Instant.Dated.legible`, `Instant.dated_of_ofText?`.
-/
import AccessRegistry.Instant.Text
import AccessRegistry.Proofs.Instants.Calendar
import AccessRegistry.Proofs.Numerals

namespace AccessRegistry

open Numeral (valueOf valueOf_zeros valueOf_toDigits)

theorem Blank.skip_of_not_holds {c : Char} (h : Blank.holds c = false) (cs : List Char) :
    Blank.skip (c :: cs) = c :: cs := by
  rw [Blank.skip, List.dropWhile_cons_of_neg (by simp [h])]

theorem Blank.not_holds_of_isDigit {c : Char} (h : c.isDigit) : Blank.holds c = false := by
  simp only [Char.isDigit, Bool.and_eq_true, decide_eq_true_eq] at h
  have hlo : 48 ≤ c.toNat := h.1
  have hhi : c.toNat ≤ 57 := h.2
  simp [Blank.holds, Blank.runs]
  omega

namespace Instant

variable {rest : List Char} {n width : Nat}

theorem isDigit_padded {c : Char} (hc : c ∈ (padded width n).toList) : c.isDigit := by
  rw [padded, String.toList_ofList, List.mem_append, List.mem_replicate] at hc
  obtain ⟨-, rfl⟩ | hc := hc
  · rfl
  · exact Nat.isDigit_of_mem_toDigits (by decide) (by decide) hc

theorem length_padded (hwidth : 0 < width) (hn : n < 10 ^ width) :
    (padded width n).toList.length = width := by
  have hle := (Nat.length_toDigits_le_iff (b := 10) (by decide) hwidth).mpr hn
  rw [padded, String.toList_ofList, List.length_append, List.length_replicate]
  omega

theorem valueOf_padded : valueOf (padded width n).toList = n := by
  rw [padded, String.toList_ofList, valueOf_zeros, valueOf_toDigits]

/-- What follows digits and does not go on with them. -/
def EndsDigits (rest : List Char) : Prop := ∀ c ∈ rest.head?, c.isDigit = false

theorem endsDigits_cons {c : Char} (h : c.isDigit = false) (rest : List Char) :
    EndsDigits (c :: rest) := by
  rintro _ ⟨⟩
  exact h

theorem takeWhile_padded (h : EndsDigits rest) :
    ((padded width n).toList ++ rest).takeWhile Char.isDigit = (padded width n).toList := by
  rw [List.takeWhile_append_of_pos fun c hc => isDigit_padded hc]
  cases rest with
  | nil => simp
  | cons c cs => simp [h c rfl]

theorem exists_padded (width n : Nat) : ∃ c cs, (padded width n).toList = c :: cs ∧ c.isDigit := by
  have hne : (padded width n).toList ≠ [] := by
    rw [padded, String.toList_ofList]
    exact List.append_ne_nil_of_right_ne_nil _ Nat.toDigits_ne_nil
  obtain ⟨c, cs, hcs⟩ := List.exists_cons_of_ne_nil hne
  exact ⟨c, cs, hcs, isDigit_padded (hcs ▸ List.mem_cons_self)⟩

theorem isEmpty_padded : (padded width n).toList.isEmpty = false := by
  obtain ⟨c, cs, hcs, -⟩ := exists_padded width n
  rw [hcs]
  rfl

theorem skip_padded :
    Blank.skip ((padded width n).toList ++ rest) = (padded width n).toList ++ rest := by
  obtain ⟨c, cs, hcs, hc⟩ := exists_padded width n
  rw [hcs, List.cons_append, Blank.skip_of_not_holds (Blank.not_holds_of_isDigit hc)]

/-- A number of a fixed width is read whatever follows it. -/
theorem number?_padded (hwidth : 0 < width) (hn : n < 10 ^ width) :
    number? width ((padded width n).toList ++ rest) = some (n, rest) := by
  have hlength := length_padded hwidth hn
  have htake : ((padded width n).toList ++ rest).take width = (padded width n).toList :=
    List.take_left' hlength
  have hdigits : ((padded width n).toList ++ []).takeWhile Char.isDigit = (padded width n).toList :=
    takeWhile_padded (by simp [EndsDigits])
  rw [List.append_nil] at hdigits
  rw [number?, skip_padded]
  simp only [htake, hdigits]
  rw [isEmpty_padded, if_neg Bool.false_ne_true, valueOf_padded, List.drop_left]

theorem mark?_cons {c : Char} (h : Blank.holds c = false) : mark? c (c :: rest) = some rest := by
  rw [mark?, Blank.skip_of_not_holds h]
  exact if_pos rfl

theorem year?_yearText (y : Int) (h : EndsDigits rest) :
    year? ((yearText y).toList ++ rest) = some (y, rest) := by
  unfold yearText
  split
  · rename_i hy
    obtain ⟨c, cs, hcs, hc⟩ := exists_padded 4 y.toNat
    have hnumber : number? 4 ((padded 4 y.toNat).toList ++ rest) = some (y.toNat, rest) :=
      number?_padded (by decide) (by omega)
    rw [year?, skip_padded]
    rw [hcs, List.cons_append] at hnumber ⊢
    split
    · rename_i hminus
      obtain ⟨rfl, -⟩ := List.cons_eq_cons.mp hminus
      exact absurd hc (by decide)
    · rename_i hplus
      obtain ⟨rfl, -⟩ := List.cons_eq_cons.mp hplus
      exact absurd hc (by decide)
    · rw [hnumber]
      simp only [Option.map_some, Option.some.injEq, Prod.mk.injEq, and_true]
      omega
  · split
    · rename_i hy
      have htext : ("-" ++ padded 4 (-y).toNat).toList ++ rest =
          '-' :: ((padded 4 (-y).toNat).toList ++ rest) := by simp
      rw [htext, year?, Blank.skip_of_not_holds (by decide)]
      simp only [takeWhile_padded h, isEmpty_padded, valueOf_padded, List.drop_left,
        Bool.false_eq_true, if_false, Option.some.injEq, Prod.mk.injEq, and_true]
      omega
    · rename_i hy
      have htext : ("+" ++ padded 4 y.toNat).toList ++ rest =
          '+' :: ((padded 4 y.toNat).toList ++ rest) := by simp
      rw [htext, year?, Blank.skip_of_not_holds (by decide)]
      simp only [takeWhile_padded h, isEmpty_padded, valueOf_padded, List.drop_left,
        Bool.false_eq_true, if_false, Option.some.injEq, Prod.mk.injEq, and_true]
      omega

/-- A fraction of up to nine digits is read up to the letter behind it. -/
theorem fraction?_point {nanos : Nat} (hwidth : 0 < width ∧ width ≤ 9) (hn : n < 10 ^ width)
    (hnanos : n * Nat.pow 10 (9 - width) = nanos) :
    fraction? (("." ++ padded width n).toList ++ ['Z']) = some (nanos, ['Z']) := by
  have hlength : (padded width n).toList.length = width := length_padded hwidth.1 hn
  have htake : (padded width n).toList.take 9 = (padded width n).toList :=
    List.take_of_length_le (by omega)
  have hends : EndsDigits ['Z'] := endsDigits_cons (by decide) []
  have htext : ("." ++ padded width n).toList ++ ['Z'] =
      '.' :: ((padded width n).toList ++ ['Z']) := by simp
  rw [htext, fraction?]
  simp only [takeWhile_padded hends, htake]
  rw [isEmpty_padded, if_neg Bool.false_ne_true, valueOf_padded, List.drop_left, hlength, hnanos]

theorem fraction?_fractionText {nanos : Nat} (hnanos : nanos < 1000000000) :
    fraction? ((fractionText nanos).toList ++ ['Z']) = some (nanos, ['Z']) := by
  unfold fractionText
  split
  · rename_i hzero
    rw [hzero]
    rfl
  · split
    · have hexact : nanos / 1000000 * 1000000 = nanos := by omega
      exact fraction?_point (by decide) (by omega) hexact
    · split
      · have hexact : nanos / 1000 * 1000 = nanos := by omega
        exact fraction?_point (by decide) (by omega) hexact
      · exact fraction?_point (by decide) (by omega) (Nat.mul_one nanos)

/-! ### Instants -/

/-- The text of an instant writes its date, its time and its fraction. -/
theorem ofChars?_toText (t : Instant) (hmonth : t.civil.month < 100) (hday : t.civil.day < 100) :
    ofChars? t.toText.toList = ofCivil? t.civil (t.nanos % 1000000000) 0 := by
  have hhour : t.civil.hour < 100 := by
    simp only [civil]
    omega
  have hminute : t.civil.minute < 100 := by
    simp only [civil]
    omega
  have hsecond : t.civil.second < 100 := by
    simp only [civil]
    split <;> omega
  have htext : t.toText.toList = (yearText t.civil.year).toList ++
      '-' :: ((padded 2 t.civil.month).toList ++ '-' :: ((padded 2 t.civil.day).toList ++
      'T' :: ((padded 2 t.civil.hour).toList ++ ':' :: ((padded 2 t.civil.minute).toList ++
      ':' :: ((padded 2 t.civil.second).toList ++
      ((fractionText (t.nanos % 1000000000)).toList ++ ['Z'])))))) := by
    simp [toText]
  have htwo : ∀ n, n < 100 → ∀ rest, number? 2 ((padded 2 n).toList ++ rest) = some (n, rest) :=
    fun n hn rest => number?_padded (by decide) hn
  have hdash : ∀ rest, mark? '-' ('-' :: rest) = some rest := fun rest => mark?_cons (by decide)
  have hcolon : ∀ rest, mark? ':' (':' :: rest) = some rest := fun rest => mark?_cons (by decide)
  have hfraction := fraction?_fractionText (Nat.mod_lt t.nanos (show 0 < 1000000000 by decide))
  rw [htext, ofChars?, year?_yearText _ (endsDigits_cons (by decide) _)]
  dsimp only [bind, Option.bind]
  simp only [hdash, htwo _ hmonth, htwo _ hday, true_or, if_true]
  simp only [hcolon, htwo _ hhour, htwo _ hminute, htwo _ hsecond, hfraction]
  rfl

/-- The text of an instant reads back as that instant. -/
def Legible (t : Instant) : Prop := ofText? t.toText = some t

instance : DecidablePred Legible := fun t =>
  inferInstanceAs (Decidable (ofText? t.toText = some t))

/-- An instant that has a date is read back from its text. -/
theorem Dated.legible {t : Instant} (h : t.Dated) : t.Legible := by
  obtain ⟨cycle, year, month, day, hdate⟩ := exists_counted (t.seconds / 86400)
  obtain ⟨-, hmonth, -, hday⟩ := hdate.date_bounds
  have hmonth : t.civil.month < 100 := Nat.lt_of_le_of_lt hmonth (by decide)
  have hday : t.civil.day < 100 := Nat.lt_of_le_of_lt hday (by decide)
  rw [Legible, ofText?, ofChars?_toText t hmonth hday, h.ofCivil?_civil]

theorem signedOffset?_whole {sign offset : Int} {cs : List Char}
    (h : signedOffset? sign cs = some (offset, rest)) : offset % 60 = 0 := by
  simp only [signedOffset?, Option.bind_eq_bind, Option.bind_eq_some_iff] at h
  obtain ⟨⟨hours, cs'⟩, -, ⟨minutes, cs''⟩, -, h⟩ := h
  split at h
  · obtain ⟨rfl, -⟩ := Prod.mk.inj (Option.some.inj h)
    have hsixty : sign * (hours * 3600 + minutes * 60) = 60 * (sign * (hours * 60 + minutes)) := by
      ring
    rw [hsixty, Int.mul_emod_right]
  · cases h

theorem offset?_whole {offset : Int} {cs : List Char} (h : offset? cs = some (offset, rest)) :
    offset % 60 = 0 := by
  unfold offset? at h
  split at h
  · obtain ⟨rfl, -⟩ := Prod.mk.inj (Option.some.inj h)
    rfl
  · split at h
    · exact signedOffset?_whole h
    · exact signedOffset?_whole h
    · split at h
      · obtain ⟨rfl, -⟩ := Prod.mk.inj (Option.some.inj h)
        rfl
      · split at h
        · exact signedOffset?_whole h
        · cases h
    · cases h

theorem dated_of_ofText? {s : String} {t : Instant} (h : ofText? s = some t) : t.Dated := by
  obtain ⟨year, -, h⟩ := Option.bind_eq_some_iff.mp h
  obtain ⟨_, -, h⟩ := Option.bind_eq_some_iff.mp h
  obtain ⟨month, -, h⟩ := Option.bind_eq_some_iff.mp h
  obtain ⟨_, -, h⟩ := Option.bind_eq_some_iff.mp h
  obtain ⟨day, -, h⟩ := Option.bind_eq_some_iff.mp h
  dsimp only at h
  split at h
  · split at h
    · obtain ⟨_, -, h⟩ := Option.bind_eq_some_iff.mp h
      obtain ⟨hour, -, h⟩ := Option.bind_eq_some_iff.mp h
      obtain ⟨_, -, h⟩ := Option.bind_eq_some_iff.mp h
      obtain ⟨minute, -, h⟩ := Option.bind_eq_some_iff.mp h
      obtain ⟨_, -, h⟩ := Option.bind_eq_some_iff.mp h
      obtain ⟨second, -, h⟩ := Option.bind_eq_some_iff.mp h
      obtain ⟨nanos, -, h⟩ := Option.bind_eq_some_iff.mp h
      obtain ⟨offset, hoffset, h⟩ := Option.bind_eq_some_iff.mp h
      have hwhole : offset.1 % 60 = 0 := offset?_whole hoffset
      split at h
      · exact dated_of_ofCivil? hwhole h
      · cases h
    · cases h
  · cases h

/-- The instants that have dates are the ones that are read back. -/
theorem legible_iff {t : Instant} : t.Legible ↔ t.Dated := ⟨dated_of_ofText?, Dated.legible⟩

/-- A leap second is read back at the end of a minute, and not behind it. -/
example : Legible ⟨1483228799, 1500000000⟩ ∧ ¬ Legible ⟨1483228800, 1500000000⟩ := by decide

end Instant
end AccessRegistry
