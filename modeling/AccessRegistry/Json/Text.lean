/-
# Reading JSON texts

The first value of a text. What follows the value does not count. Where the text
stops being JSON the value ends in `broken`. Of a number as many digits count as
make a number of 64 bits. Arrays and objects that lie in too many others cannot be
read, only skipped.

Key definitions: `Json.Text.number?`, `Json.Text.quoted?`, `Json.Text.afterQuoted?`,
`Json.Text.value`, `Json.ofText`.
-/
import AccessRegistry.Json
import AccessRegistry.Text.Hex
import AccessRegistry.Text.Numeral

namespace AccessRegistry.Json.Text

/-- The characters that may stand between the parts of a value. -/
def isSpace (c : Char) : Bool :=
  c == ' ' || c == '\n' || c == '\t' || c == '\r'

/-- The text from its first character that is no space on. -/
def skip (cs : List Char) : List Char := cs.dropWhile isSpace

/-- The exponent of a number: `e` and an integer, or nothing. -/
def exponent? : List Char → Option (Option Int × List Char)
  | c :: cs =>
    if c = 'e' ∨ c = 'E' then
      let (sign, cs) := match cs with
        | '+' :: rest => ((1 : Int), rest)
        | '-' :: rest => (-1, rest)
        | cs => (1, cs)
      let ds := cs.takeWhile Char.isDigit
      if ds.isEmpty then none else some (some (sign * Numeral.valueOf ds), cs.drop ds.length)
    else some (none, c :: cs)
  | [] => some (none, [])

/-- The fraction of a number: a point and digits, or nothing. -/
def fraction? : List Char → Option (List Char × List Char)
  | '.' :: cs =>
    let ds := cs.takeWhile Char.isDigit
    if ds.isEmpty then none else some (ds, cs.drop ds.length)
  | cs => some ([], cs)

/-- The number that digits write behind those of `n`, as far as it has 64 bits, and the
digits from the first one on that does not fit. -/
def significant (n : Nat) : List Char → Nat × List Char
  | [] => (n, [])
  | c :: cs =>
    let next := n * 10 + (c.toNat - 48)
    if next < UInt64.size then significant next cs else (n, c :: cs)

/-- Whether a minus stands in front, and what follows it. -/
def signed : List Char → Bool × List Char
  | '-' :: cs => (true, cs)
  | cs => (false, cs)

/-- A number, and what follows it. Only the number zero may begin with a zero. A digit
that does not count makes the number ten times as large if it stands in front of the
point, and stands for nothing behind it. -/
def number? (cs : List Char) : Option (Number × List Char) := do
  let (negative, cs) := signed cs
  let whole := cs.takeWhile Char.isDigit
  if whole.isEmpty || whole.head? == some '0' && 1 < whole.length then none
  else
    let (fraction, cs) ← fraction? (cs.drop whole.length)
    let (exponent, cs) ← exponent? cs
    let (front, dropped) := significant 0 whole
    let (mantissa, ignored) := significant front fraction
    some ({ negative, mantissa
            exponent := exponent.getD 0 + dropped.length - (fraction.length - ignored.length)
            integral := fraction.isEmpty && exponent.isNone }, cs)

/-- The character that a letter stands for after a backslash. -/
def escaped? (c : Char) : Option Char :=
  if c = '"' ∨ c = '\\' ∨ c = '/' then some c
  else if c = 'b' then some (Char.ofNat 8)
  else if c = 'f' then some (Char.ofNat 12)
  else if c = 'n' then some '\n'
  else if c = 'r' then some '\r'
  else if c = 't' then some '\t'
  else none

/-- The rest of a quoted text after its opening quote. A character outside the
first 65536 is written as two surrogates, which may not stand alone. -/
def quoted? (done : List Char) : List Char → Option (String × List Char)
  | [] => none
  | '"' :: cs => some (String.ofList done.reverse, cs)
  | '\\' :: 'u' :: a :: b :: c :: d :: cs =>
    match Hex.value? [a, b, c, d] with
    | none => none
    | some n =>
      if 0xD800 ≤ n ∧ n < 0xDC00 then
        match cs with
        | '\\' :: 'u' :: e :: f :: g :: h :: cs =>
          match Hex.value? [e, f, g, h] with
          | none => none
          | some m =>
            if 0xDC00 ≤ m ∧ m < 0xE000 then
              quoted? (Char.ofNat (0x10000 + (n - 0xD800) * 1024 + (m - 0xDC00)) :: done) cs
            else none
        | _ => none
      else if 0xDC00 ≤ n ∧ n < 0xE000 then none
      else quoted? (Char.ofNat n :: done) cs
  | '\\' :: c :: cs =>
    match escaped? c with
    | some x => quoted? (x :: done) cs
    | none => none
  | c :: cs => if c.toNat < 32 then none else quoted? (c :: done) cs

/-- What follows a quoted text after its opening quote, if each of its escapes has the
right form. -/
def afterQuoted? : List Char → Option (List Char)
  | [] => none
  | '"' :: cs => some cs
  | '\\' :: 'u' :: a :: b :: c :: d :: cs =>
    if (Hex.value? [a, b, c, d]).isSome then afterQuoted? cs else none
  | '\\' :: c :: cs => if (escaped? c).isSome then afterQuoted? cs else none
  | c :: cs => if c.toNat < 32 then none else afterQuoted? cs

/-- A quoted text with its quotes, if it can be read, and what follows it. -/
def text? : List Char → Option (Option String × List Char)
  | '"' :: cs =>
    match quoted? [] cs with
    | some (s, rest) => some (some s, rest)
    | none => (afterQuoted? cs).map fun rest => (none, rest)
  | _ => none

/-- The word of a constant, and what follows it. -/
def word (expected : String) (j : Json) (cs : List Char) : Json × Option (List Char) :=
  if cs.take expected.length = expected.toList then (j, some (cs.drop expected.length))
  else (.broken, none)

/-- The members in front of the first name that cannot be read. -/
def named : List (Option String × Json) → List (String × Json)
  | (some name, j) :: ms => (name, j) :: named ms
  | _ => []

/-- The object of members, of whose names some may not be readable, and behind which the
text may break off. -/
def ofMembers (ms : List (Option String × Json)) (rest : Option (List Char)) : Json :=
  if rest.isSome && ms.all fun m => m.1.isSome then .object (named ms)
  else .severed (named ms) rest.isSome

/-- What is read of an array or an object that lies in others, if `room` more of them may
be opened. -/
def within (room : Nat) (read : Json × Option (List Char)) : Json × Option (List Char) :=
  if room = 0 then (if read.2.isSome then .unreadable else .broken, read.2) else read

mutual

/-- The first value, and what follows it unless the text breaks off. `room` says how many
arrays and objects may still be opened inside each other, `fuel` bounds the steps. -/
def value : (fuel room : Nat) → List Char → Json × Option (List Char)
  | 0, _, _ => (.broken, none)
  | fuel + 1, room, cs =>
    match skip cs with
    | [] => (.broken, none)
    | '"' :: cs =>
      match text? ('"' :: cs) with
      | some (some s, rest) => (.text s, some rest)
      | some (none, rest) => (.unreadable, some rest)
      | none => (.broken, none)
    | '[' :: cs =>
      match skip cs with
      | ']' :: rest => within room (.array [], some rest)
      | _ => within room (items fuel (room - 1) [] cs)
    | '{' :: cs =>
      match skip cs with
      | '}' :: rest => within room (.object [], some rest)
      | _ =>
        let (ms, rest) := members fuel (room - 1) [] cs
        within room (ofMembers ms rest, rest)
    | 'n' :: cs => word "null" .null ('n' :: cs)
    | 't' :: cs => word "true" (.bool true) ('t' :: cs)
    | 'f' :: cs => word "false" (.bool false) ('f' :: cs)
    | cs =>
      match number? cs with
      | some (n, rest) => (if n.isHuge then .unreadable else .number n, some rest)
      | none => (.broken, none)

/-- The items of an array from the next one on, after those in `done`, which
stand in reverse. -/
def items : (fuel room : Nat) → (done : List Json) → List Char → Json × Option (List Char)
  | 0, _, done, _ => (.array (.broken :: done).reverse, none)
  | fuel + 1, room, done, cs =>
    match value fuel room cs with
    | (j, none) => (.array (j :: done).reverse, none)
    | (j, some rest) =>
      match skip rest with
      | ',' :: rest => items fuel room (j :: done) rest
      | ']' :: rest => (.array (j :: done).reverse, some rest)
      | _ => (.array (.broken :: j :: done).reverse, none)

/-- The members of an object from the next one on, after those in `done`, which
stand in reverse. -/
def members : (fuel room : Nat) → (done : List (Option String × Json)) → List Char →
    List (Option String × Json) × Option (List Char)
  | 0, _, done, _ => (done.reverse, none)
  | fuel + 1, room, done, cs =>
    match text? (skip cs) with
    | none => (done.reverse, none)
    | some (name, rest) =>
      match skip rest with
      | ':' :: rest =>
        match value fuel room rest with
        | (j, none) => (((name, j) :: done).reverse, none)
        | (j, some rest) =>
          match skip rest with
          | ',' :: rest => members fuel room ((name, j) :: done) rest
          | '}' :: rest => (((name, j) :: done).reverse, some rest)
          | _ => (((name, j) :: done).reverse, none)
      | _ => (((name, .broken) :: done).reverse, none)

end

/-- How many arrays and objects may lie inside each other. -/
def depthLimit : Nat := 127

end Text

/-- The first value of a text. -/
def ofText (s : String) : Json :=
  let cs := s.toList
  (Text.value (2 * cs.length + 2) Text.depthLimit cs).1

end AccessRegistry.Json
