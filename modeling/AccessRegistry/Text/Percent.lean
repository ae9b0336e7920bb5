/-
# Percent escapes

A byte may stand in a text as a percent sign with two hexadecimal digits. A percent
sign without them stands for itself. The bytes that come out have to be UTF-8.

Key definitions: `Percent.decodeBytes`, `Percent.decode?`.
Key theorems: `Percent.decodeBytes_of_not_mem`, `Percent.decodeBytes_escape`.
-/
import AccessRegistry.Text.Hex

namespace AccessRegistry.Percent

/-- The byte of the percent sign. -/
def sign : UInt8 := 37

/-- The value of a byte that is a hexadecimal digit. -/
def digitValue? (b : UInt8) : Option Nat := Hex.digitValue? (Char.ofNat b.toNat)

/-- The byte that a percent sign and two bytes stand for. -/
def escaped? (b high low : UInt8) : Option UInt8 :=
  if b = sign then
    (digitValue? high).bind fun h => (digitValue? low).map fun l => UInt8.ofNat (16 * h + l)
  else none

/-- The bytes that a text of bytes stands for. -/
def decodeBytes : List UInt8 → List UInt8
  | b :: high :: low :: rest =>
    match escaped? b high low with
    | some e => e :: decodeBytes rest
    | none => b :: decodeBytes (high :: low :: rest)
  | bs => bs

/-- The text that an escaped text stands for, if it is one. -/
def decode? (s : String) : Option String :=
  String.fromUTF8? (ByteArray.mk (decodeBytes s.toUTF8.data.toList).toArray)

/-- Bytes without a percent sign stand for themselves. -/
theorem decodeBytes_of_not_mem (bs : List UInt8) (h : sign ∉ bs) : decodeBytes bs = bs := by
  fun_induction decodeBytes bs with
  | case1 b high low rest e he ih => simp_all [escaped?]
  | case2 b high low rest he ih => simp_all
  | case3 bs hbs => rfl

/-- An escaped byte reads back, whatever follows it. -/
theorem decodeBytes_escape {high low : UInt8} {h l : Nat} (hh : digitValue? high = some h)
    (hl : digitValue? low = some l) (rest : List UInt8) :
    decodeBytes (sign :: high :: low :: rest) = UInt8.ofNat (16 * h + l) :: decodeBytes rest := by
  simp [decodeBytes, escaped?, hh, hl]

end AccessRegistry.Percent
