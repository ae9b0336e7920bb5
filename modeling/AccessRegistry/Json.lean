/-
# JSON values

A JSON value as it is read and written: members of an object keep their order,
and numbers keep the decimal that was written. A value read from a text that
stops being JSON keeps what was read and ends in `broken`, so that whoever reads
the value in order meets the break where the text has it. Some values can be
skipped by who does not want them, but not be read.

Key definitions: `Json`, `Json.Number`, `Json.intact`, `Json.readable`, `Json.write`.
-/

namespace AccessRegistry

/-- A decimal number: the mantissa times a power of ten. -/
structure Json.Number where
  negative : Bool
  mantissa : Nat
  exponent : Int
  /-- The number was written without a fraction and without an exponent. -/
  integral : Bool
  deriving DecidableEq

/-- A JSON value, or what there is of one. -/
inductive Json where
  | null
  | bool (b : Bool)
  | number (n : Json.Number)
  | text (s : String)
  | array (items : List Json)
  | object (members : List (String × Json))
  /-- An object with a name that cannot be read: the members in front of that name. -/
  | severed (members : List (String × Json)) (skippable : Bool)
  /-- A value that can be skipped, but not read: a text in which half of a pair of
  surrogates is missing, a number that is too large, or what lies too deep. -/
  | unreadable
  /-- The text stops being JSON here. -/
  | broken

namespace Json

/-- The number of an integer. -/
def ofInt (i : Int) : Json :=
  .number { negative := i < 0, mantissa := i.natAbs, exponent := 0, integral := true }

/-- The number of a natural number. -/
def ofNat (n : Nat) : Json := ofInt n

/-- A list of values. -/
def ofList {α : Type} (f : α → Json) (xs : List α) : Json := .array (xs.map f)

/-- A value, or null. -/
def ofOption {α : Type} (f : α → Json) (x : Option α) : Json := x.elim .null f

/-- The first member of a name. -/
def member? (name : String) : Json → Option Json
  | .object ms => ms.lookup name
  | _ => none

mutual

/-- Whether something holds of a value and of all values inside it. -/
def all (p : Json → Bool) : Json → Bool
  | .array items => p (.array items) && allItems p items
  | .object ms => p (.object ms) && allMembers p ms
  | .severed ms skippable => p (.severed ms skippable) && allMembers p ms
  | j => p j

/-- Whether something holds of all items and of all values inside them. -/
def allItems (p : Json → Bool) : List Json → Bool
  | [] => true
  | j :: js => j.all p && allItems p js

/-- Whether something holds of all members and of all values inside them. -/
def allMembers (p : Json → Bool) : List (String × Json) → Bool
  | [] => true
  | (_, j) :: ms => j.all p && allMembers p ms

end

/-- Whether the text of a value is JSON to its end, so that the value can be skipped. -/
def intact (j : Json) : Bool :=
  j.all fun
    | .broken => false
    | .severed _ skippable => skippable
    | _ => true

/-- Whether a value can be read to its end. -/
def readable (j : Json) : Bool :=
  j.all fun
    | .broken => false
    | .unreadable => false
    | .severed .. => false
    | _ => true

namespace Number

/-- The nearest number of 53 binary digits and zeros behind them. Of two that are
equally near it is the even one. -/
def nearest53 (n : Nat) : Nat :=
  let unit := Nat.pow 2 (Nat.log2 n - 52)
  let below := n / unit
  let rest := 2 * (n % unit)
  if unit < rest || (rest == unit && below % 2 == 1) then (below + 1) * unit else below * unit

/-- The smallest natural number that is nearer to 2 to the 1024 than to the largest finite
number of 64-bit floating point, or equally near. -/
def overflow : Nat := (Nat.pow 2 54 - 1) * Nat.pow 2 970

/-- Whether the number is too large for 64-bit floating point. The mantissa and the power
of ten are both taken at the precision of 53 binary digits. -/
def isHuge (n : Number) : Bool :=
  n.mantissa != 0 &&
    (308 < n.exponent ||
      (0 ≤ n.exponent &&
        overflow ≤ nearest53 n.mantissa * nearest53 (Nat.pow 10 n.exponent.toNat)))

/-- A power of ten in 64-bit floating point, for exponents up to 308. -/
def powerOfTen (e : Nat) : Float := Float.ofScientific 1 false (min e 308)

/-- The number in 64-bit floating point, unless it is huge: the mantissa and the power of ten
are each rounded before they are put together. -/
def toFloat (n : Number) : Float :=
  let m := Float.ofScientific n.mantissa false 0
  let size :=
    if 0 ≤ n.exponent then m * powerOfTen n.exponent.toNat
    else
      let e := (-n.exponent).toNat
      m / powerOfTen e / powerOfTen (e - 308)
  if n.negative then -size else size

/-- The integer that was written, if it was written as one. Minus zero is no
integer. -/
def integer? (n : Number) : Option Int :=
  if n.integral && n.exponent == 0 then
    if n.negative then (if n.mantissa = 0 then none else some (-n.mantissa)) else some n.mantissa
  else none

/-- The digits with a point before the last `places` of them. -/
def pointed (digits : List Char) (places : Nat) : List Char :=
  let ds := List.replicate (places + 1 - digits.length) '0' ++ digits
  ds.take (ds.length - places) ++ '.' :: ds.drop (ds.length - places)

/-- The written form. A number that was not written as an integer keeps a point. -/
def write (n : Number) : String :=
  let ds := Nat.toDigits 10 n.mantissa
  let body :=
    if n.integral then ds ++ List.replicate n.exponent.toNat '0'
    else if n.exponent < 0 then pointed ds (-n.exponent).toNat
    else ds ++ List.replicate n.exponent.toNat '0' ++ ['.', '0']
  String.ofList (if n.negative then '-' :: body else body)

end Number

/-! ## Writing -/

/-- How a character stands in a quoted text. -/
def escape (c : Char) : List Char :=
  if c = '"' then ['\\', '"']
  else if c = '\\' then ['\\', '\\']
  else if c.toNat = 8 then ['\\', 'b']
  else if c.toNat = 9 then ['\\', 't']
  else if c.toNat = 10 then ['\\', 'n']
  else if c.toNat = 12 then ['\\', 'f']
  else if c.toNat = 13 then ['\\', 'r']
  else if c.toNat < 32 then
    ['\\', 'u', '0', '0', Nat.digitChar (c.toNat / 16), Nat.digitChar (c.toNat % 16)]
  else [c]

/-- A text in quotes. -/
def quote (s : String) : String :=
  String.ofList ('"' :: s.toList.flatMap escape ++ ['"'])

mutual

/-- The written form, without blanks. -/
def write : Json → String
  | .null => "null"
  | .bool true => "true"
  | .bool false => "false"
  | .number n => n.write
  | .text s => quote s
  | .array items => "[" ++ ",".intercalate (writeItems items) ++ "]"
  | .object ms => "\x7b" ++ ",".intercalate (writeMembers ms) ++ "\x7d"
  | .severed .. => ""
  | .unreadable => ""
  | .broken => ""

/-- The written forms of items. -/
def writeItems : List Json → List String
  | [] => []
  | j :: js => j.write :: writeItems js

/-- The written forms of members: the name, a colon and the value. -/
def writeMembers : List (String × Json) → List String
  | [] => []
  | (name, j) :: ms => (quote name ++ ":" ++ j.write) :: writeMembers ms

end

instance : ToString Json := ⟨write⟩

end Json
end AccessRegistry
