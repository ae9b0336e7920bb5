/-
# Instants as text

An instant is written in UTC as a date, `T`, a time and `Z`, with a fraction of
3, 6 or 9 digits if it has one, as few as are exact. It is read more freely:
blanks may stand around the parts, a blank or a small `t` may stand for the `T`,
numbers may lack leading zeros, a year may have a sign, and the offset may be
`Z`, the letters UTC, or hours and minutes.

Key definitions: `Instant.toText`, `Instant.ofText?`.
-/
import AccessRegistry.Instant
import AccessRegistry.Text.Blank
import AccessRegistry.Text.Numeral

namespace AccessRegistry.Instant

open Numeral (valueOf)

/-- A number in decimal, filled up with zeros to a width. -/
def padded (width n : Nat) : String :=
  let ds := Nat.toDigits 10 n
  String.ofList (List.replicate (width - ds.length) '0' ++ ds)

/-- Years of four digits stand bare; all others have a sign. -/
def yearText (y : Int) : String :=
  if 0 ≤ y ∧ y ≤ 9999 then padded 4 y.toNat
  else if y < 0 then "-" ++ padded 4 (-y).toNat
  else "+" ++ padded 4 y.toNat

/-- The fraction in as few of 3, 6 or 9 digits as are exact. -/
def fractionText (nanos : Nat) : String :=
  if nanos = 0 then ""
  else if nanos % 1000000 = 0 then "." ++ padded 3 (nanos / 1000000)
  else if nanos % 1000 = 0 then "." ++ padded 6 (nanos / 1000)
  else "." ++ padded 9 nanos

/-- The written form. -/
def toText (t : Instant) : String :=
  let c := t.civil
  yearText c.year ++ "-" ++ padded 2 c.month ++ "-" ++ padded 2 c.day ++ "T" ++
    padded 2 c.hour ++ ":" ++ padded 2 c.minute ++ ":" ++ padded 2 c.second ++
    fractionText (t.nanos % 1000000000) ++ "Z"

instance : ToString Instant := ⟨toText⟩

/-! ## Reading -/

/-- A number of at least one digit and at most `most` digits, blanks before it. -/
def number? (most : Nat) (cs : List Char) : Option (Nat × List Char) :=
  let cs := Blank.skip cs
  let ds := (cs.take most).takeWhile Char.isDigit
  if ds.isEmpty then none else some (valueOf ds, cs.drop ds.length)

/-- A year: up to four digits, or a sign and any number of digits. -/
def year? (cs : List Char) : Option (Int × List Char) :=
  let signed (sign : Int) (rest : List Char) : Option (Int × List Char) :=
    let ds := rest.takeWhile Char.isDigit
    if ds.isEmpty then none else some (sign * valueOf ds, rest.drop ds.length)
  match Blank.skip cs with
  | '-' :: rest => signed (-1) rest
  | '+' :: rest => signed 1 rest
  | cs => (number? 4 cs).map fun r => (r.1, r.2)

/-- A mark, blanks before it. -/
def mark? (c : Char) (cs : List Char) : Option (List Char) :=
  match Blank.skip cs with
  | d :: rest => if c = d then some rest else none
  | [] => none

/-- An optional point with a fraction, of which nine digits count. -/
def fraction? : List Char → Option (Nat × List Char)
  | '.' :: cs =>
    let ds := cs.takeWhile Char.isDigit
    if ds.isEmpty then none
    else
      let used := ds.take 9
      some (valueOf used * Nat.pow 10 (9 - used.length), cs.drop ds.length)
  | cs => some (0, cs)

/-- Two digits of an offset. -/
def twoDigits? : List Char → Option (Nat × List Char)
  | a :: b :: cs => if a.isDigit && b.isDigit then some (valueOf [a, b], cs) else none
  | _ => none

/-- A signed offset: hours, colons or blanks, and minutes. -/
def signedOffset? (sign : Int) (cs : List Char) : Option (Int × List Char) := do
  let (hours, cs) ← twoDigits? cs
  let (minutes, cs) ← twoDigits? (cs.dropWhile fun c => c == ':' || Blank.holds c)
  if minutes ≤ 59 then some (sign * (hours * 3600 + minutes * 60), cs) else none

/-- An offset from UTC in seconds. -/
def offset? (cs : List Char) : Option (Int × List Char) :=
  if (cs.take 3).map Char.toLower = ['u', 't', 'c'] then some (0, cs.drop 3)
  else match cs with
    | '+' :: cs => signedOffset? 1 cs
    | '-' :: cs => signedOffset? (-1) cs
    | c :: cs =>
      if c = 'Z' ∨ c = 'z' then some (0, cs)
      else if c.toNat = 0x2212 then signedOffset? (-1) cs
      else none
    | [] => none

/-- The instant that a row of characters writes. -/
def ofChars? (cs : List Char) : Option Instant := do
  let (year, cs) ← year? cs
  let cs ← mark? '-' cs
  let (month, cs) ← number? 2 cs
  let cs ← mark? '-' cs
  let (day, cs) ← number? 2 cs
  let cs ← match cs with
    | c :: rest => if c = 'T' ∨ c = 't' ∨ c = ' ' then some rest else none
    | [] => none
  let (hour, cs) ← number? 2 cs
  let cs ← mark? ':' cs
  let (minute, cs) ← number? 2 cs
  let cs ← mark? ':' cs
  let (second, cs) ← number? 2 cs
  let (nanos, cs) ← fraction? cs
  let (offset, cs) ← offset? (Blank.skip cs)
  if (Blank.skip cs).isEmpty then ofCivil? ⟨year, month, day, hour, minute, second⟩ nanos offset
  else none

/-- The instant that a text writes. -/
def ofText? (s : String) : Option Instant :=
  ofChars? s.toList

end AccessRegistry.Instant
