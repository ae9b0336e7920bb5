/-
# Principals

A principal is an identity that can hold permissions: a kind and an id.
Principals are ordered by kind, then by id. A registered principal also has an
acl key of its own, under which it is found in the hierarchy of objects.

Key definitions: `PrincipalKind`, `PrincipalKind.ofName?`, `Principal`,
`Registration`, `Registration.organization?`.
-/
import AccessRegistry.AclKey
import AccessRegistry.Text.LowerCase

namespace AccessRegistry

/-- The kinds of principals. -/
inductive PrincipalKind where
  | user | role | organization | service
  deriving DecidableEq, Repr

namespace PrincipalKind

/-- Every kind, in order. -/
def all : List PrincipalKind := [user, role, organization, service]

/-- The place of a kind in the order. -/
def index : PrincipalKind → Nat
  | user => 0
  | role => 1
  | organization => 2
  | service => 3

instance : Ord PrincipalKind where
  compare := compareOn index

instance : Std.TransOrd PrincipalKind :=
  inferInstanceAs (Std.TransCmp (compareOn index))

instance : Std.LawfulEqOrd PrincipalKind :=
  lawfulEqCmp_compareOn fun a b => by cases a <;> cases b <;> simp [index]

/-- The name of a kind. -/
def name : PrincipalKind → String
  | user => "user"
  | role => "role"
  | organization => "organization"
  | service => "service"

instance : ToString PrincipalKind := ⟨name⟩

/-- The kind of a name, in the exact spelling. -/
def ofExactName? (s : String) : Option PrincipalKind :=
  all.find? fun k => k.name = s

/-- The kind whose name is the lower case of a text. -/
def ofName? (s : String) : Option PrincipalKind :=
  ofExactName? (LowerCase.ofString s)

/-- Why a text names no kind. -/
def unknownMessage (s : String) : String := s!"Invalid principal type: {s}"

end PrincipalKind

/-- An identity that can hold permissions. -/
@[ext] structure Principal where
  kind : PrincipalKind
  id : String
  deriving DecidableEq

namespace Principal

instance : Ord Principal where
  compare := compareLex (compareOn Principal.kind) (compareOn Principal.id)

instance : Std.TransOrd Principal :=
  inferInstanceAs (Std.TransCmp (compareLex (compareOn Principal.kind) (compareOn Principal.id)))

instance : Std.LawfulEqOrd Principal :=
  lawfulEqCmp_compareLex fun _ _ => Principal.ext

/-- The kind's name, a colon and the id. -/
def toText (p : Principal) : String := s!"{p.kind.name}:{p.id}"

instance : ToString Principal := ⟨toText⟩

instance : Inhabited Principal := ⟨⟨.user, ""⟩⟩

end Principal

/-- A registered principal: the object that stands for it and what it is called. -/
@[ext] structure Registration where
  aclKey : AclKey
  principal : Principal
  title : String
  description : String
  deriving DecidableEq

namespace Registration

/-- The identifier of the object that stands for the principal. -/
def id (r : Registration) : Identifier := r.aclKey.leaf

/-- A role belongs to the organization at the root of its key; no other
principal belongs to one. -/
def organization? (r : Registration) : Option Identifier :=
  if r.principal.kind = .role then some r.aclKey.root else none

instance : Inhabited Registration := ⟨⟨default, default, "", ""⟩⟩

end Registration
end AccessRegistry
