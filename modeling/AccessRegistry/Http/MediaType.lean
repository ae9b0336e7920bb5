/-
# Media types

The type of a body is written as two names with a slash between them. The second
name may end in a plus sign and the name of the format on which the type builds.
Parameters may follow, each after a semicolon, with a value that may be quoted.

Key definitions: `MediaType.ofText?`, `MediaType.isJson`, `MediaType.Parameters.accepts`.
-/

namespace AccessRegistry

/-- The type of a body, in lower case. -/
structure MediaType where
  family : String
  name : String
  /-- The format on which the type builds. -/
  format : Option String
  deriving DecidableEq, Repr

namespace MediaType

/-- The signs that may stand in a name beside letters and digits. -/
def signs : List Nat := [33, 35, 36, 37, 38, 39, 42, 43, 45, 46, 94, 95, 96, 124, 126]

/-- Whether a character may stand in a name. -/
def isTokenChar (c : Char) : Bool := c.isAlphanum || signs.contains c.toNat

/-- A place in a list of parameters. -/
inductive Parameters where
  /-- In front of a parameter. -/
  | start
  | name
  /-- Behind an equals sign. -/
  | value
  | token
  /-- Behind an opening quote. -/
  | quote
  | quoted
  /-- Behind a closing quote. -/
  | closed
  | broken
  deriving DecidableEq, Repr

namespace Parameters

/-- Whether a character may stand between quotes. -/
def isQuotable (c : Char) : Bool := 31 < c.toNat && c.toNat != 127

/-- The place after one more character. The first character between quotes does not
close them. -/
def next : Parameters → Char → Parameters
  | start, c => if c = ' ' then start else if isTokenChar c then name else broken
  | name, c => if c = '=' then value else if isTokenChar c then name else broken
  | value, c => if c = '"' then quote else if isTokenChar c then token else broken
  | token, c => if c = ';' then start else if isTokenChar c then token else broken
  | quote, c => if isQuotable c then quoted else broken
  | quoted, c => if c = '"' then closed else if isQuotable c then quoted else broken
  | closed, c => if c = ';' then start else if c = ' ' then closed else broken
  | broken, _ => broken

/-- Whether the list may end at a place. -/
def mayEnd : Parameters → Bool
  | start => true
  | value => true
  | token => true
  | closed => true
  | _ => false

/-- Whether characters are a list of parameters. -/
def accepts (cs : List Char) : Bool := (cs.foldl next start).mayEnd

end Parameters

/-! ## Types -/

/-- A name and the format behind its last plus sign, unless the name would be empty. -/
def splitFormat (cs : List Char) : List Char × Option (List Char) :=
  let format := (cs.reverse.takeWhile (· != '+')).reverse
  let name := cs.take (cs.length - format.length - 1)
  if name.isEmpty then (cs, none) else (name, some format)

/-- The text of characters in lower case. -/
def lower (cs : List Char) : String := String.ofList (cs.map Char.toLower)

/-- The type that a text writes. -/
def ofText? (s : String) : Option MediaType :=
  let (family, rest) := s.toList.span isTokenChar
  match rest with
  | '/' :: rest =>
    let (name, rest) := rest.span isTokenChar
    let parametersFollow := match rest with
      | [] => true
      | c :: cs => c = ';' && !name.isEmpty && Parameters.accepts cs
    if !family.isEmpty && parametersFollow then
      let (name, format) := splitFormat name
      some ⟨lower family, lower name, format.map lower⟩
    else none
  | _ => none

/-- Whether a body of the type is JSON. -/
def isJson (t : MediaType) : Bool :=
  t.family = "application" && (t.name = "json" || t.format = some "json")

end MediaType
end AccessRegistry
