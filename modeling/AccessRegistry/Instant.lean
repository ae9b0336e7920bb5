/-
# Instants

An instant is a second of the Unix count and a fraction of it in nanoseconds. A
leap second is the second before it with a fraction of a second or more, so that
it comes after that second and before the next one. Instants are ordered by
second, then by fraction.

Key definitions: `Instant`, `Instant.ofCivil?`, `Instant.civil`,
`Instant.neverExpires`.
-/
import AccessRegistry.Order

namespace AccessRegistry

/-- A point in time. -/
@[ext] structure Instant where
  seconds : Int
  nanos : Nat
  deriving DecidableEq

namespace Instant

instance : Ord Instant where
  compare := compareLex (compareOn Instant.seconds) (compareOn Instant.nanos)

instance : Std.TransOrd Instant :=
  inferInstanceAs (Std.TransCmp (compareLex (compareOn Instant.seconds) (compareOn Instant.nanos)))

instance : Std.LawfulEqOrd Instant :=
  lawfulEqCmp_compareLex fun _ _ => Instant.ext

instance : LT Instant where
  lt a b := a.seconds < b.seconds ∨ a.seconds = b.seconds ∧ a.nanos < b.nanos

instance : LE Instant where
  le a b := a.seconds < b.seconds ∨ a.seconds = b.seconds ∧ a.nanos ≤ b.nanos

instance (a b : Instant) : Decidable (a < b) :=
  inferInstanceAs (Decidable (a.seconds < b.seconds ∨ a.seconds = b.seconds ∧ a.nanos < b.nanos))

instance (a b : Instant) : Decidable (a ≤ b) :=
  inferInstanceAs (Decidable (a.seconds < b.seconds ∨ a.seconds = b.seconds ∧ a.nanos ≤ b.nanos))

/-- The later of two instants. -/
def later (a b : Instant) : Instant := if a ≤ b then b else a

/-- The last second of the year 9999, used for grants that never expire. -/
def neverExpires : Instant := ⟨253402300799, 0⟩

theorem lt_def {a b : Instant} :
    a < b ↔ a.seconds < b.seconds ∨ a.seconds = b.seconds ∧ a.nanos < b.nanos := Iff.rfl

theorem le_def {a b : Instant} :
    a ≤ b ↔ a.seconds < b.seconds ∨ a.seconds = b.seconds ∧ a.nanos ≤ b.nanos := Iff.rfl

theorem not_lt {a b : Instant} : ¬ a < b ↔ b ≤ a := by
  simp only [lt_def, le_def]
  omega

/-! ## The calendar -/

/-- A date and a time of day, without an offset. -/
structure Civil where
  year : Int
  month : Nat
  day : Nat
  hour : Nat
  minute : Nat
  second : Nat
  deriving DecidableEq

/-- Whether a year of the Gregorian calendar has a 29 February. -/
def isLeapYear (y : Int) : Bool :=
  y % 4 == 0 && (y % 100 != 0 || y % 400 == 0)

/-- How many days a month has. -/
def daysInMonth (y : Int) (m : Nat) : Nat :=
  if m = 2 then (if isLeapYear y then 29 else 28)
  else if m = 4 ∨ m = 6 ∨ m = 9 ∨ m = 11 then 30
  else 31

/-- Days from 1 January 1970 to a date. Years are counted from March on, in
cycles of 400 years and 146097 days. -/
def daysOfDate (y : Int) (m d : Nat) : Int :=
  let y' := if m ≤ 2 then y - 1 else y
  let cycle := y' / 400
  let yearOfCycle := y' % 400
  let dayOfYear := (153 * ((m + 9) % 12) + 2) / 5 + d - 1
  cycle * 146097 + (yearOfCycle * 365 + yearOfCycle / 4 - yearOfCycle / 100 + dayOfYear) - 719468

/-- The date some days from 1 January 1970. -/
def dateOfDays (days : Int) : Int × Nat × Nat :=
  let z := days + 719468
  let cycle := z / 146097
  let dayOfCycle := (z % 146097).toNat
  let yearOfCycle :=
    (dayOfCycle - dayOfCycle / 1460 + dayOfCycle / 36524 - dayOfCycle / 146096) / 365
  let dayOfYear := dayOfCycle - (365 * yearOfCycle + yearOfCycle / 4 - yearOfCycle / 100)
  let monthFromMarch := (5 * dayOfYear + 2) / 153
  let d := dayOfYear - (153 * monthFromMarch + 2) / 5 + 1
  let m := if monthFromMarch < 10 then monthFromMarch + 3 else monthFromMarch - 9
  let y := cycle * 400 + yearOfCycle
  (if m ≤ 2 then y + 1 else y, m, d)

/-- The years that an instant may lie in. -/
def inCalendar (y : Int) : Bool := -262143 ≤ y && y ≤ 262142

/-- The instant of a date and time at an offset of some seconds from UTC. The
second 60 is the leap second after second 59. -/
def ofCivil? (c : Civil) (nanos : Nat) (offset : Int) : Option Instant :=
  if inCalendar c.year ∧ 1 ≤ c.month ∧ c.month ≤ 12 ∧ 1 ≤ c.day ∧
      c.day ≤ daysInMonth c.year c.month ∧ c.hour ≤ 23 ∧ c.minute ≤ 59 ∧ c.second ≤ 60 ∧
      nanos < 1000000000 ∧ -86400 < offset ∧ offset < 86400 then
    let second := if c.second = 60 then 59 else c.second
    let fraction := if c.second = 60 then nanos + 1000000000 else nanos
    let total := daysOfDate c.year c.month c.day * 86400 + c.hour * 3600 + c.minute * 60 + second
      - offset
    if inCalendar (dateOfDays (total / 86400)).1 then some ⟨total, fraction⟩ else none
  else none

/-- Date and time in UTC; a leap second has the second 60 more than the minute. -/
def civil (t : Instant) : Civil :=
  let date := dateOfDays (t.seconds / 86400)
  let ofDay := (t.seconds % 86400).toNat
  { year := date.1
    month := date.2.1
    day := date.2.2
    hour := ofDay / 3600
    minute := ofDay / 60 % 60
    second := ofDay % 60 + (if 1000000000 ≤ t.nanos then 1 else 0) }

end Instant
end AccessRegistry
