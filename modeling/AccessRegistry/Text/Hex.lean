/-
# Hexadecimal numerals

Fixed-width lower-case numerals and their reader, which takes digits of either
case.

Key definitions: `Hex.digit`, `Hex.digitValue?`, `Hex.numeral`, `Hex.value?`.
Key theorems: `Hex.digitValue?_digit`, `Hex.value?_numeral`.
-/

namespace AccessRegistry.Hex

/-- The lower-case digit of a value below 16. -/
def digit (n : Nat) : Char :=
  if n < 10 then Char.ofNat (48 + n) else Char.ofNat (87 + n)

/-- The value of a digit of either case. -/
def digitValue? (c : Char) : Option Nat :=
  let n := c.toNat
  if 48 ≤ n ∧ n ≤ 57 then some (n - 48)
  else if 97 ≤ n ∧ n ≤ 102 then some (n - 87)
  else if 65 ≤ n ∧ n ≤ 70 then some (n - 55)
  else none

/-- The last `width` digits of `n`, the most significant first. -/
def numeral (n : Nat) : (width : Nat) → List Char
  | 0 => []
  | width + 1 => numeral (n / 16) width ++ [digit (n % 16)]

/-- The number that a row of digits writes after the number `acc`. -/
def valueFrom? (acc : Nat) : List Char → Option Nat
  | [] => some acc
  | c :: cs => (digitValue? c).bind fun d => valueFrom? (acc * 16 + d) cs

/-- The number that a row of digits writes. -/
def value? (cs : List Char) : Option Nat :=
  valueFrom? 0 cs

theorem digitValue?_digit {n : Nat} (h : n < 16) : digitValue? (digit n) = some n := by
  have all : ∀ k : Fin 16, digitValue? (digit k) = some k.val := by decide
  exact all ⟨n, h⟩

theorem numeral_length (n width : Nat) : (numeral n width).length = width := by
  induction width generalizing n with
  | zero => rfl
  | succ width ih => simp [numeral, ih]

theorem valueFrom?_append (acc : Nat) (xs ys : List Char) :
    valueFrom? acc (xs ++ ys) = (valueFrom? acc xs).bind fun a => valueFrom? a ys := by
  induction xs generalizing acc with
  | nil => rfl
  | cons x xs ih =>
    simp only [List.cons_append, valueFrom?]
    cases digitValue? x with
    | none => rfl
    | some d => simpa using ih (acc * 16 + d)

theorem valueFrom?_numeral (acc n width : Nat) :
    valueFrom? acc (numeral n width) =
      some (acc * Nat.pow 16 width + n % Nat.pow 16 width) := by
  induction width generalizing n with
  | zero => simp [numeral, valueFrom?, Nat.mod_one]
  | succ width ih =>
    rw [numeral, valueFrom?_append, ih]
    have hd := digitValue?_digit (Nat.mod_lt n (by decide : 0 < 16))
    have h : Nat.pow 16 (width + 1) = 16 * Nat.pow 16 width := Nat.mul_comm _ _
    simp only [Option.bind_some, valueFrom?, hd]
    rw [h, Nat.mod_mul, ← Nat.mul_assoc, Nat.mul_comm acc 16, Nat.mul_assoc]
    congr 1
    omega

/-- A numeral reads back, cut to its width. -/
theorem value?_numeral (n width : Nat) :
    value? (numeral n width) = some (n % Nat.pow 16 width) := by
  simp [value?, valueFrom?_numeral]

end AccessRegistry.Hex
