/-
# Days and dates

The date that is computed of a day of the Unix count is a date of the calendar, and the day that
is computed of this date is the same day. Years are counted from March on, so that a leap day is
the last day of its year and the months in front of it have the same days in all years.

Key definitions: `Instant.Counted`, `Instant.Dated`.
Key theorems: `Instant.yearOfCycle_bounds`, `Instant.exists_counted`,
`Instant.Counted.daysOfDate_eq`, `Instant.dated_of_ofCivil?`, `Instant.Dated.ofCivil?_civil`.
-/
import AccessRegistry.Instant
import Mathlib.Tactic.IntervalCases
import Mathlib.Tactic.Ring

namespace AccessRegistry.Instant

/-- A day of a cycle of 400 years lies in the year that is computed of it, and only the last day
of a leap year is 365 days behind the first one. -/
theorem yearOfCycle_bounds {day year first : Nat} (h : day < 146097)
    (hyear : year = (day - day / 1460 + day / 36524 - day / 146096) / 365)
    (hfirst : first = 365 * year + year / 4 - year / 100) :
    year < 400 ∧ first ≤ day ∧ day ≤ first + 365 ∧
      (day = first + 365 → (year + 1) % 4 = 0 ∧ ((year + 1) % 100 ≠ 0 ∨ year + 1 = 400)) := by
  obtain hlast | hlt : day = 146096 ∨ day < 146096 := by omega
  · subst hlast
    omega
  · have hcycle : day / 146096 = 0 := by omega
    obtain ⟨century, hcentury⟩ : ∃ c, c = day / 36524 := ⟨_, rfl⟩
    obtain ⟨leaps, hleaps⟩ : ∃ l, l = day / 1460 := ⟨_, rfl⟩
    obtain ⟨fours, hfours⟩ : ∃ q, q = year / 4 := ⟨_, rfl⟩
    have hle : century ≤ 3 := by omega
    rw [hcycle, Nat.sub_zero, ← hcentury, ← hleaps] at hyear
    have hhundreds : year / 100 = century := by interval_cases century <;> omega
    rw [hhundreds, ← hfours] at hfirst
    have hlow : first ≤ day := by interval_cases century <;> omega
    have hhigh : day ≤ first + 365 := by interval_cases century <;> omega
    have hfour : day = first + 365 → (year + 1) % 4 = 0 := by
      intro hday
      by_contra hfour
      have hnot : year ≤ 4 * fours + 2 := by omega
      have hfew : leaps ≤ fours := by omega
      omega
    have hhundred : day = first + 365 → (year + 1) % 100 ≠ 0 := by
      interval_cases century <;> omega
    omega

/-- A day of a year lies in the month that is computed of it, and in that month's days: the
months 1, 3, 6 and 8 from March on have thirty, and the month 11 has what is left. -/
theorem monthOfYear_bounds {day month first : Nat} (h : day ≤ 365)
    (hmonth : month = (5 * day + 2) / 153) (hfirst : first = (153 * month + 2) / 5) :
    month ≤ 11 ∧ first ≤ day ∧ day < first + 31 ∧
      (month = 1 ∨ month = 3 ∨ month = 6 ∨ month = 8 → day < first + 30) ∧
      (month = 11 → first = 337) := by
  omega

/-- The date of a day, counted in cycles of 400 years, years and months from March on. -/
structure Counted (days : Int) (cycle : Int) (year month day : Nat) : Prop where
  days_eq : days = cycle * 146097 + (year * 365 + year / 4 - year / 100 +
    ((153 * month + 2) / 5 + day : Nat)) - 719468
  year_lt : year < 400
  month_le : month ≤ 11
  day_le : day ≤ 30
  short : month = 1 ∨ month = 3 ∨ month = 6 ∨ month = 8 → day ≤ 29
  last : month = 11 → day ≤ 28 ∧
    (day = 28 → (year + 1) % 4 = 0 ∧ ((year + 1) % 100 ≠ 0 ∨ year + 1 = 400))
  date_eq : dateOfDays days =
    if month < 10 then (cycle * 400 + year, month + 3, day + 1)
    else (cycle * 400 + year + 1, month - 9, day + 1)

theorem natCast_firstOfYear (year : Nat) :
    ((365 * year + year / 4 - year / 100 : Nat) : Int) = year * 365 + year / 4 - year / 100 := by
  omega

theorem exists_counted (days : Int) :
    ∃ cycle year month day, Counted days cycle year month day := by
  have hmod : ((days + 719468) % 146097).toNat < 146097 := by omega
  obtain ⟨dayOfCycle, hdayOfCycle⟩ : ∃ d, d = ((days + 719468) % 146097).toNat := ⟨_, rfl⟩
  rw [← hdayOfCycle] at hmod
  obtain ⟨year, hyear⟩ : ∃ y, y = (dayOfCycle - dayOfCycle / 1460 + dayOfCycle / 36524 -
    dayOfCycle / 146096) / 365 := ⟨_, rfl⟩
  obtain ⟨first, hfirst⟩ : ∃ f, f = 365 * year + year / 4 - year / 100 := ⟨_, rfl⟩
  obtain ⟨hlt, hlow, hhigh, hleap⟩ := yearOfCycle_bounds hmod hyear hfirst
  obtain ⟨month, hmonth⟩ : ∃ m, m = (5 * (dayOfCycle - first) + 2) / 153 := ⟨_, rfl⟩
  obtain ⟨start, hstart⟩ : ∃ m, m = (153 * month + 2) / 5 := ⟨_, rfl⟩
  obtain ⟨hle, hmlow, hmhigh, hshort, hlast⟩ :=
    monthOfYear_bounds (by omega) hmonth hstart
  refine ⟨(days + 719468) / 146097, year, month, dayOfCycle - first - start, ?_⟩
  refine
    { days_eq := ?_
      year_lt := hlt
      month_le := hle
      day_le := by omega
      short := fun h => by have := hshort h; omega
      last := fun h => by have := hlast h; omega
      date_eq := ?_ }
  · rw [← hstart, Nat.add_sub_of_le hmlow, Int.natCast_sub hlow, hfirst, natCast_firstOfYear,
      hdayOfCycle, Int.toNat_of_nonneg (Int.emod_nonneg _ (by decide)), Int.emod_def]
    ring
  · unfold dateOfDays
    simp only [← hdayOfCycle, ← hyear, ← hfirst, ← hmonth, ← hstart]
    by_cases hten : month < 10
    · simp only [if_pos hten]
      rw [if_neg (by omega)]
    · simp only [if_neg hten]
      rw [if_pos (by omega)]

namespace Counted

variable {days cycle : Int} {year month day : Nat}

/-- The date of a day has that day. -/
theorem daysOfDate_eq (h : Counted days cycle year month day) :
    daysOfDate (dateOfDays days).1 (dateOfDays days).2.1 (dateOfDays days).2.2 = days := by
  have hyear := h.year_lt
  have hmonth := h.month_le
  have hcycle : (cycle * 400 + year) / 400 = cycle := by omega
  have hyearOfCycle : (cycle * 400 + year) % 400 = year := by omega
  rw [h.date_eq]
  by_cases hten : month < 10
  · have hmarch : (month + 3 + 9) % 12 = month := by omega
    rw [if_pos hten]
    simp only [daysOfDate]
    rw [if_neg (by omega), hcycle, hyearOfCycle, hmarch, h.days_eq]
    omega
  · have hmarch : (month - 9 + 9) % 12 = month := by omega
    have hprevious : cycle * 400 + year + 1 - 1 = cycle * 400 + year := by omega
    rw [if_neg hten]
    simp only [daysOfDate]
    rw [if_pos (by omega), hprevious, hcycle, hyearOfCycle, hmarch, h.days_eq]
    omega

theorem date_bounds (h : Counted days cycle year month day) :
    1 ≤ (dateOfDays days).2.1 ∧ (dateOfDays days).2.1 ≤ 12 ∧
      1 ≤ (dateOfDays days).2.2 ∧ (dateOfDays days).2.2 ≤ 31 := by
  have hmonth := h.month_le
  have hday := h.day_le
  rw [h.date_eq]
  split <;> simp only <;> omega

theorem day_le_daysInMonth (h : Counted days cycle year month day) :
    (dateOfDays days).2.2 ≤ daysInMonth (dateOfDays days).1 (dateOfDays days).2.1 := by
  have hmonth := h.month_le
  have hday := h.day_le
  have hshort := h.short
  rw [h.date_eq]
  by_cases hten : month < 10
  · rw [if_pos hten]
    simp only [daysInMonth]
    rw [if_neg (by omega)]
    split
    · have hday := hshort (by omega)
      omega
    · omega
  · rw [if_neg hten]
    simp only [daysInMonth]
    obtain rfl | rfl : month = 10 ∨ month = 11 := by omega
    · exact Nat.succ_le_succ hday
    · obtain ⟨hle, hleap⟩ := h.last rfl
      simp only [if_true]
      obtain hlt | rfl : day < 28 ∨ day = 28 := by omega
      · split <;> omega
      · obtain ⟨hfour, hhundred⟩ := hleap rfl
        have hleapYear : isLeapYear (cycle * 400 + year + 1) = true := by
          simp only [isLeapYear, Bool.and_eq_true, Bool.or_eq_true, beq_iff_eq, bne_iff_ne]
          omega
        rw [if_pos hleapYear]

end Counted

/-! ### Instants that have a date -/

/-- An instant has a date and a time of day: its day lies in the calendar, and only the last
second of a minute can be a leap second. -/
structure Dated (t : Instant) : Prop where
  year : inCalendar (dateOfDays (t.seconds / 86400)).1
  nanos : t.nanos < 1000000000 ∨ t.nanos < 2000000000 ∧ t.seconds % 60 = 59

/-- Offsets are whole minutes, so that leap seconds stay at the ends of minutes. -/
theorem dated_of_ofCivil? {c : Civil} {nanos : Nat} {offset : Int} {t : Instant}
    (hoffset : offset % 60 = 0) (h : ofCivil? c nanos offset = some t) : t.Dated := by
  unfold ofCivil? at h
  split at h
  · simp only at h
    split at h
    · split at h
      · obtain rfl := Option.some.inj h
        exact ⟨‹_›, .inr ⟨by simp only; omega, by simp only; omega⟩⟩
      · cases h
    · split at h
      · obtain rfl := Option.some.inj h
        exact ⟨‹_›, .inl (by simp only; omega)⟩
      · cases h
  · cases h

/-- An instant that has a date and a time of day is given by them. -/
theorem Dated.ofCivil?_civil {t : Instant} (h : t.Dated) :
    ofCivil? t.civil (t.nanos % 1000000000) 0 = some t := by
  obtain ⟨cycle, year, month, day, hdate⟩ := exists_counted (t.seconds / 86400)
  obtain ⟨hmonth, htwelve, hday, -⟩ := hdate.date_bounds
  have hlength := hdate.day_le_daysInMonth
  have hdays := hdate.daysOfDate_eq
  have hnanos := h.nanos
  have hcivil : inCalendar t.civil.year ∧ 1 ≤ t.civil.month ∧ t.civil.month ≤ 12 ∧
      1 ≤ t.civil.day ∧ t.civil.day ≤ daysInMonth t.civil.year t.civil.month ∧
      t.civil.hour ≤ 23 ∧ t.civil.minute ≤ 59 ∧ t.civil.second ≤ 60 ∧
      t.nanos % 1000000000 < 1000000000 ∧ (-86400 : Int) < 0 ∧ (0 : Int) < 86400 := by
    refine ⟨h.year, hmonth, htwelve, hday, hlength, ?_, ?_, ?_, ?_, by omega, by omega⟩
    · simp only [civil]
      omega
    · simp only [civil]
      omega
    · simp only [civil]
      split <;> omega
    · omega
  have hleap : t.civil.second = 60 ↔ 1000000000 ≤ t.nanos := by
    simp only [civil]
    split <;> omega
  have hsecond : t.civil.hour * 3600 + t.civil.minute * 60 +
      (if t.civil.second = 60 then 59 else t.civil.second) = (t.seconds % 86400).toNat := by
    by_cases hnano : 1000000000 ≤ t.nanos
    · rw [if_pos (hleap.mpr hnano)]
      simp only [civil]
      omega
    · rw [if_neg (mt hleap.mp hnano)]
      simp only [civil, if_neg hnano]
      omega
  have hfraction : (if t.civil.second = 60 then t.nanos % 1000000000 + 1000000000
      else t.nanos % 1000000000) = t.nanos := by
    simp only [hleap]
    split <;> omega
  have hdate : daysOfDate t.civil.year t.civil.month t.civil.day = t.seconds / 86400 := hdays
  have htotal : daysOfDate t.civil.year t.civil.month t.civil.day * 86400 +
      t.civil.hour * 3600 + t.civil.minute * 60 +
      (if t.civil.second = 60 then 59 else t.civil.second : Nat) - 0 = t.seconds := by
    omega
  unfold ofCivil?
  rw [if_pos hcivil]
  simp only [htotal, hfraction]
  rw [if_pos h.year]

end AccessRegistry.Instant
