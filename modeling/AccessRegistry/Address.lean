/-
# Addresses

An address is a path, or the name of a server, or both with a scheme in front, such as
`http://server:80/path`. A query or a fragment may follow the path.

Key definitions: `Address.path?`, `Address.Server.accepts`.
-/

namespace AccessRegistry.Address

/-- Whether a character may stand in the name of a server. -/
def isServerChar (c : Char) : Bool := c.isAlphanum || "!$&'()*+,-.;=_~".toList.contains c

/-- What has been seen of the name of a server. -/
structure Server where
  /-- How many colons there are behind the last at sign and the last bracket. -/
  colons : Nat
  /-- There is an opening bracket. -/
  opened : Bool
  /-- There is a closing bracket. -/
  closed : Bool
  /-- There is a percent sign behind the last at sign and the last bracket. -/
  escaped : Bool
  /-- The last character is an at sign. -/
  bare : Bool
  deriving DecidableEq, Repr

namespace Server

/-- In front of the first character. -/
def start : Server := ⟨0, false, false, false, false⟩

/-- How many colons may be seen: those of a number in brackets, and the one in front of
a port. -/
def colonLimit : Nat := 8

/-- What has been seen after one more character. What stands in front of an at sign does
not belong to the name. -/
def next? (s : Server) (c : Char) : Option Server :=
  let s := { s with bare := false }
  if c = ':' then if s.colons < colonLimit then some { s with colons := s.colons + 1 } else none
  else if c = '[' then if s.escaped || s.opened then none else some { s with opened := true }
  else if c = ']' then
    if s.opened && !s.closed then some { s with closed := true, colons := 0, escaped := false }
    else none
  else if c = '@' then some { s with colons := 0, escaped := false, bare := true }
  else if c = '%' then some { s with escaped := true }
  else if isServerChar c then some s
  else none

/-- Whether the name may end: brackets come in pairs, at most one colon stands outside of
them, and something follows the at sign. -/
def mayEnd (s : Server) : Bool :=
  s.opened == s.closed && s.colons ≤ 1 && !s.escaped && !s.bare

/-- Whether characters are the name of a server. -/
def accepts (cs : List Char) : Bool := (cs.foldlM next? start).any mayEnd

end Server

/-- Whether a character may stand in a path. -/
def isPathChar (beyondAscii : Bool) (c : Char) : Bool :=
  if c.toNat < 127 then 32 < c.toNat && !"#<>?`".toList.contains c else beyondAscii

/-- Whether a character may stand in a query. -/
def isQueryChar (beyondAscii : Bool) (c : Char) : Bool :=
  if c.toNat < 127 then 32 < c.toNat && !"\"#<>".toList.contains c else beyondAscii

/-- The path in front of a query and a fragment, of which the query has to have the right
characters. -/
def front? (beyondAscii : Bool) (cs : List Char) : Option (List Char) :=
  let path := cs.takeWhile fun c => c != '?' && c != '#'
  let query := match cs.drop path.length with
    | '?' :: rest => rest.takeWhile (· != '#')
    | _ => []
  if path.all (isPathChar beyondAscii) && query.all (isQueryChar beyondAscii) then some path
  else none

/-! ## Addresses -/

/-- Whether a character may stand in a scheme. -/
def isSchemeChar (c : Char) : Bool := c.isAlphanum || "+-.~".toList.contains c

/-- How many characters a scheme may have. -/
def schemeLimit : Nat := 64

/-- How many bytes an address may have. -/
def sizeLimit : Nat := 65534

/-- The path of an address with a scheme, from the server on. -/
def behindScheme? (beyondAscii : Bool) (cs : List Char) : Option (List Char) :=
  let server := cs.takeWhile fun c => c != '/' && c != '?' && c != '#'
  if server.isEmpty || !Server.accepts server then none
  else (front? beyondAscii (cs.drop server.length)).map fun path =>
    if path.isEmpty then ['/'] else path

/-- The path of an address that is not empty. A server alone has an empty path. -/
def pathOfChars? (beyondAscii : Bool) : List Char → Option (List Char)
  | ['*'] => some ['*']
  | '/' :: cs => front? beyondAscii ('/' :: cs)
  | cs =>
    let scheme := cs.takeWhile isSchemeChar
    match cs.drop scheme.length with
    | ':' :: '/' :: '/' :: rest =>
      if scheme.length ≤ schemeLimit then behindScheme? beyondAscii rest else none
    | _ => if Server.accepts cs then some [] else none

/-- The path of an address, if a text is one. `beyondAscii` says whether characters beyond
ASCII may stand in paths and queries. -/
def path? (beyondAscii : Bool) (s : String) : Option String :=
  if s.isEmpty || sizeLimit < s.utf8ByteSize then none
  else (pathOfChars? beyondAscii s.toList).map String.ofList

end AccessRegistry.Address
