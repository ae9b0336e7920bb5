/-
# Requests and responses

A request names what it is about by its target: an address, or the part of one behind
the server. A response has a status and, unless it has none, a body. Both carry the
identifier by which a request is followed through several services.

Key definitions: `Http.Request`, `Http.Request.header?`, `Http.Body`, `Http.Response`.
-/
import AccessRegistry.Address
import AccessRegistry.Json

namespace AccessRegistry.Http

/-- What is asked of the service. -/
structure Request where
  method : String
  /-- The address, in which a query may follow the path. -/
  target : String
  /-- Names and values of the headers, in order. -/
  headers : List (String × String)
  body : String

/-- What stands where a response has its body. -/
inductive Body where
  | empty
  | json (j : Json)
  | text (s : String)
  /-- Words about what is wrong with the form of a request. They may change, and nobody
  relies on them. -/
  | remark

/-- What is answered. -/
structure Response where
  status : Nat
  body : Body
  /-- The identifier of the request; a fresh one if there is none here. -/
  requestId : Option String

/-- Whether a character of a header's value is visible: a character of ASCII that is
printed, or a tab. -/
def isVisible (c : Char) : Bool := c.toNat = 9 || (32 ≤ c.toNat && c.toNat ≤ 126)

namespace Request

/-- The path of the target, in which all characters beyond ASCII may stand. What is no
address has none. -/
def path (r : Request) : String := (Address.path? true r.target).getD ""

/-- The first value of a header, whose name is given in lower case. A value with
invisible characters is none. -/
def header? (r : Request) (name : String) : Option String :=
  ((r.headers.find? fun h => h.1.map Char.toLower = name).map Prod.snd).filter
    fun v => v.toList.all isVisible

/-- The identifier that the request came with. -/
def id? (r : Request) : Option String := (r.header? "x-request-id").filter fun id => id ≠ ""

end Request
end AccessRegistry.Http
