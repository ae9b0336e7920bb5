/-
# The graph of principals

A principal inherits from everything it is a member of, and from what that is a
member of, and so on. The memberships may form cycles; each key is looked at once.
Keys at which no principal is registered lead on, but are left out of the answer.

Key definitions: `Graph.layer`, `Graph.ancestors`, `Graph.closures`.
-/
import AccessRegistry.Store

namespace AccessRegistry.Graph

/-- A set of keys. -/
abbrev Keys := Std.ExtTreeSet AclKey

/-- The keys that are someone's parents. -/
def allParents (p : Parents) : Keys := p.foldl (fun found _ parents => found ∪ parents) ∅

/-- How many memberships there are. -/
def edgeCount (m : Memberships) : Nat := m.foldl (fun n _ parents => n + parents.size) 0

/-- The keys of a set, in order, that are not in another. -/
def without (keys seen : Keys) : Keys := keys.filter fun k => !seen.contains k

/-- Everything that one of the keys is a member of. -/
def layer (keys : Keys) : Action Keys := do
  if keys.isEmpty then return ∅
  return allParents (← Store.parents keys.toList)

/-- Goes on, layer by layer, from the keys of the last layer. `more` bounds how many
layers there are. -/
def climb (seen frontier : Keys) : (more : Nat) → Action Keys
  | 0 => return seen
  | more + 1 => do
    let new := without (← layer frontier) seen
    if new.isEmpty then return seen
    climb (seen ∪ new) new more

/-- Tells the log of a key at which no principal is registered. -/
def sayDropped (fields : List (String × Log.Value)) (key : AclKey) : Action Unit :=
  Action.say .warn .graph "Dropping unresolvable principal from closure"
    (fields ++ [("acl_key", .text key.toText)])

/-- The principals that a principal inherits from, in the order of their keys. The
principal itself is among them if it is a member of one of them. -/
def ancestors (root : Registration) : Action (List Registration) := do
  let m := (← Action.tables).memberships
  let keys ← climb ∅ (Std.ExtTreeSet.ofList [root.aclKey]) (edgeCount m + 1)
  let found ← Store.lookupAt keys.toList
  for key in keys.toList do
    if key ∉ found then sayDropped [] key
  return keys.toList.filterMap fun key => found[key]?

/-! ## Many closures at once -/

/-- The parents that were loaded so far, how many loads there were, and whose parents
were loaded. -/
structure Loaded where
  parents : Parents := ∅
  keys : Keys := ∅
  rounds : Nat := 0

/-- Adds the rows of one map of parents to another. -/
def addRows (p new : Parents) : Parents :=
  new.foldl (fun rows child parents => rows.insert child parents) p

/-- Loads the parents of a set of keys, then of those parents, and so on. `more` bounds
how many loads there are. -/
def load (l : Loaded) (frontier : Keys) : (more : Nat) → Action Loaded
  | 0 => return l
  | more + 1 => do
    if frontier.isEmpty then return l
    let new ← Store.parents frontier.toList
    let l : Loaded := ⟨addRows l.parents new, l.keys ∪ frontier, l.rounds + 1⟩
    load l (without (allParents new) l.keys) more

/-- Goes on from the keys of a stack. `more` bounds how many there are. -/
def walkFrom (p : Parents) (seen : Keys) : (stack : List AclKey) → (more : Nat) → Keys
  | [], _ => seen
  | _, 0 => seen
  | key :: stack, more + 1 =>
    let new := without (p.getD key ∅) seen
    walkFrom p (seen ∪ new) (new.toList ++ stack) more

/-- A key and everything above it. -/
def walk (p : Parents) (start : AclKey) : Keys :=
  walkFrom p (Std.ExtTreeSet.ofList [start]) [start] (edgeCount p + 1)

/-- The closure of each principal of a list: the principal, and the principals that it
inherits from. -/
def closures (roots : List Registration) :
    Action (Std.ExtTreeMap Principal (Std.ExtTreeSet Principal)) := do
  let m := (← Action.tables).memberships
  let rootKeys : Keys := Std.ExtTreeSet.ofList (roots.map Registration.aclKey)
  let l ← load {} rootKeys (edgeCount m + 2)
  let walks := roots.map fun r => (r, walk l.parents r.aclKey)
  let above : Keys := walks.foldl (fun found w => found ∪ w.2) ∅
  let found ← Store.lookupAt (without above rootKeys).toList
  let named := roots.foldl (fun names r => names.insert r.aclKey r.principal)
    (found.map fun _ r => r.principal)
  for (r, keys) in walks do
    for key in keys.toList do
      if key ∉ named then sayDropped [("root", .text r.principal.toText)] key
  Action.say .debug .graph "Resolved principal closures"
    [("roots", .number roots.length), ("rounds", .number l.rounds)]
  return walks.foldl
    (fun closures w =>
      let members := w.2.toList.filterMap fun key => named[key]?
      closures.insert w.1.principal
        (members.foldl .insert ((closures.getD w.1.principal ∅).insert w.1.principal)))
    ∅

end AccessRegistry.Graph
