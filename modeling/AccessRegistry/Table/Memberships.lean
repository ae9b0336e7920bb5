/-
# The table of memberships

Who is a member of whom: an index of the keys of groups under the keys of their
members. Memberships may form cycles, and may name keys that nobody has.

Key definitions: `Memberships`, `Memberships.add`, `Memberships.remove`,
`Memberships.removeAll`, `Memberships.parents`.
-/
import AccessRegistry.Table.Index
import AccessRegistry.AclKey

namespace AccessRegistry

/-- For each member the keys of what it is a member of. -/
abbrev Memberships := Index AclKey AclKey

/-- The parents of some keys, as a map. -/
abbrev Parents := Std.ExtTreeMap AclKey (Std.ExtTreeSet AclKey)

namespace Memberships

/-- Whether the child is a member of the parent. -/
def holds (t : Memberships) (child parent : AclKey) : Bool := (Index.row t child).contains parent

/-- Adds a membership, and says whether it is new. -/
def add (t : Memberships) (child parent : AclKey) : Bool × Memberships :=
  (!holds t child parent, Index.add t child parent)

/-- Removes a membership, and says whether there was one. -/
def remove (t : Memberships) (child parent : AclKey) : Bool × Memberships :=
  (holds t child parent, Index.drop t child parent)

/-- Removes every membership that a key has or that is in it, and counts them. A
membership of a key in itself counts once. -/
def removeAll (t : Memberships) (key : AclKey) : Nat × Memberships :=
  let others := t.erase key
  ((Index.row t key).size + (others.filter fun _ parents => parents.contains key).size,
    others.filterMap fun _ parents =>
      let left := parents.erase key
      if left.isEmpty then none else some left)

/-- The parents of each key of a list that has any. -/
def parents (t : Memberships) (keys : List AclKey) : Parents :=
  keys.foldl
    (fun found key =>
      let row := Index.row t key
      if row.isEmpty then found else found.insert key row)
    ∅

end Memberships
end AccessRegistry
