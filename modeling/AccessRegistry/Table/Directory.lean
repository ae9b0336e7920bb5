/-
# The directory of principals

Registered principals are found by the principal and by their acl key. No two of
them share either.

Key definitions: `Directory`, `Directory.add`, `Directory.find?`,
`Directory.findAt?`, `Directory.remove`.
-/
import AccessRegistry.Principal

namespace AccessRegistry

/-- The registered principals. -/
@[ext] structure Directory where
  byPrincipal : Std.ExtTreeMap Principal Registration
  byAclKey : Std.ExtTreeMap AclKey Principal

namespace Directory

/-- The directory without principals. -/
def empty : Directory := ⟨∅, ∅⟩

instance : Inhabited Directory := ⟨empty⟩

/-- The registration of a principal. -/
def find? (t : Directory) (p : Principal) : Option Registration := t.byPrincipal[p]?

/-- The registration at a key. -/
def findAt? (t : Directory) (key : AclKey) : Option Registration :=
  t.byAclKey[key]?.bind t.find?

/-- The registrations at the keys of a list that have one. -/
def findMany (t : Directory) (keys : List AclKey) : Std.ExtTreeMap AclKey Registration :=
  keys.foldl (fun found key => (t.findAt? key).elim found (found.insert key)) ∅

/-- Adds a registration unless its principal or its key is there, and says whether
it did. -/
def add (t : Directory) (r : Registration) : Bool × Directory :=
  if r.principal ∈ t.byPrincipal ∨ r.aclKey ∈ t.byAclKey then (false, t)
  else (true, ⟨t.byPrincipal.insert r.principal r, t.byAclKey.insert r.aclKey r.principal⟩)

/-- Sets the title of the principal at a key, and says whether there is one. -/
def retitle (t : Directory) (key : AclKey) (title : String) : Bool × Directory :=
  match t.byAclKey[key]? with
  | none => (false, t)
  | some p =>
    match t.find? p with
    | none => (false, t)
    | some r => (true, { t with byPrincipal := t.byPrincipal.insert p { r with title } })

/-- Removes a principal, and gives its registration if there was one. -/
def remove (t : Directory) (p : Principal) : Option Registration × Directory :=
  match t.find? p with
  | some r => (some r, ⟨t.byPrincipal.erase p, t.byAclKey.erase r.aclKey⟩)
  | none => (none, t)

end Directory
end AccessRegistry
