/-
# Blank characters

The characters that Unicode counts as white space.

Key definitions: `Blank.holds`, `Blank.skip`.
-/

namespace AccessRegistry.Blank

/-- First and last code point of each run of white space. -/
def runs : List (Nat × Nat) :=
  [(9, 13), (32, 32), (133, 133), (160, 160), (5760, 5760), (8192, 8202), (8232, 8233),
    (8239, 8239), (8287, 8287), (12288, 12288)]

/-- Whether a character is white space. -/
def holds (c : Char) : Bool :=
  runs.any fun r => r.1 ≤ c.toNat && c.toNat ≤ r.2

/-- The characters from the first one that is not white space on. -/
def skip (cs : List Char) : List Char :=
  cs.dropWhile holds

end AccessRegistry.Blank
