/-
# Identifiers as text

An identifier is written as 32 lower-case hexadecimal digits in groups of 8, 4,
4, 4 and 12 with hyphens between them. It is read in that form, without the
hyphens, in braces, or after `urn:uuid:`, with digits of either case.

Key definitions: `Identifier.toText`, `Identifier.ofText?`.
-/
import AccessRegistry.Identifier
import AccessRegistry.Text.Hex

namespace AccessRegistry.Identifier

/-- 32 digits in groups of 8, 4, 4, 4 and 12. -/
def hyphenate (ds : List Char) : List Char :=
  ds.take 8 ++ '-' :: ((ds.drop 8).take 4 ++ '-' :: ((ds.drop 12).take 4 ++ '-' ::
    ((ds.drop 16).take 4 ++ '-' :: ds.drop 20)))

/-- Takes the four hyphens out of a row of 36 characters that has them in the
places where `hyphenate` puts them. -/
def dehyphenate? (cs : List Char) : Option (List Char) :=
  let ds := cs.take 8 ++ (cs.drop 9).take 4 ++ (cs.drop 14).take 4 ++ (cs.drop 19).take 4 ++
    cs.drop 24
  if cs.length = 36 ∧ hyphenate ds = cs then some ds else none

/-- The digits as they are written, hyphens between them. -/
def chars (id : Identifier) : List Char :=
  hyphenate (Hex.numeral id.value 32)

/-- The written form. -/
def toText (id : Identifier) : String :=
  String.ofList id.chars

instance : ToString Identifier := ⟨toText⟩

/-- The identifier that 32 digits write. -/
def ofDigits? (ds : List Char) : Option Identifier :=
  if ds.length = 32 then
    (Hex.value? ds).bind fun v => if h : v < identifierLimit then some ⟨v, h⟩ else none
  else none

/-- The identifier that a hyphenated row of digits writes. -/
def ofHyphenated? (cs : List Char) : Option Identifier :=
  (dehyphenate? cs).bind ofDigits?

/-- The identifier that a row of characters writes, in any of the four forms. -/
def ofChars? (cs : List Char) : Option Identifier :=
  if cs.length = 32 then ofDigits? cs
  else if cs.length = 36 then ofHyphenated? cs
  else if cs.length = 38 then
    if cs.head? = some (Char.ofNat 123) ∧ cs.getLast? = some (Char.ofNat 125) then
      ofHyphenated? ((cs.drop 1).take 36)
    else none
  else if cs.length = 45 then
    if cs.take 9 = "urn:uuid:".toList then ofHyphenated? (cs.drop 9) else none
  else none

/-- The identifier that a text writes. -/
def ofText? (s : String) : Option Identifier :=
  ofChars? s.toList

end AccessRegistry.Identifier
