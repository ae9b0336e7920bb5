/-
# Decimal numerals

A numeral is a row of the digits 0 to 9, with at most one plus sign in front. It
is read from left to right against a limit, and the first thing that is wrong
counts: a character that is no digit, or a value above the limit.

Key definitions: `Numeral.valueOf`, `Numeral.Fault`, `Numeral.read`.
-/

namespace AccessRegistry.Numeral

/-- The number that a row of digits stands for. -/
def valueOf (ds : List Char) : Nat :=
  ds.foldl (fun n c => n * 10 + (c.toNat - 48)) 0

/-- Why a text is no numeral within the limit. -/
inductive Fault where
  | empty
  | badDigit
  | tooLarge
  deriving DecidableEq, Repr

/-- The fault in words. -/
def Fault.message : Fault → String
  | empty => "cannot parse integer from empty string"
  | badDigit => "invalid digit found in string"
  | tooLarge => "number too large to fit in target type"

/-- The value of a digit. -/
def digit? (c : Char) : Option Nat :=
  if '0' ≤ c ∧ c ≤ '9' then some (c.toNat - 48) else none

/-- Reads digits after those that make up `value`. -/
def readDigits (limit value : Nat) : List Char → Except Fault Nat
  | [] => .ok value
  | c :: cs =>
    match digit? c with
    | none => .error .badDigit
    | some d =>
      if value * 10 + d ≤ limit then readDigits limit (value * 10 + d) cs else .error .tooLarge

/-- Reads a row of characters as a number up to `limit`. -/
def readChars (limit : Nat) : List Char → Except Fault Nat
  | [] => .error .empty
  | '+' :: cs => if cs.isEmpty then .error .badDigit else readDigits limit 0 cs
  | cs => readDigits limit 0 cs

/-- Reads a text as a number up to `limit`. -/
def read (limit : Nat) (s : String) : Except Fault Nat :=
  readChars limit s.toList

/-- The number that a text writes, if it is one below a bound. -/
def below? (bound : Nat) (s : String) : Option Nat :=
  (read (bound - 1) s).toOption

end AccessRegistry.Numeral
