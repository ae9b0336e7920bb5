/-
# The table of entries

Entries are kept under their keys, and their keys are filed a second time by the
object, by the principal and by the root of the object, so that a query has to
look at those entries only that its narrowest condition leaves.

Key definitions: `Permissions`, `Permissions.merge`, `Permissions.subtract`,
`Permissions.candidates`, `Permissions.query`.
-/
import AccessRegistry.Table.Index
import AccessRegistry.Entry

namespace AccessRegistry

/-- The entries and their indexes. -/
@[ext] structure Permissions where
  entries : Std.ExtTreeMap Entry.Key Entry.Value
  byAclKey : Index AclKey Principal
  byPrincipal : Index Principal AclKey
  byRoot : Index Identifier Entry.Key

namespace Permissions

/-- The table without entries. -/
def empty : Permissions := ⟨∅, ∅, ∅, ∅⟩

instance : Inhabited Permissions := ⟨empty⟩

/-- The value under a key. -/
def find? (t : Permissions) (k : Entry.Key) : Option Entry.Value := t.entries[k]?

/-- The values under the keys of a list that have one. -/
def findMany (t : Permissions) (ks : List Entry.Key) : Std.ExtTreeMap Entry.Key Entry.Value :=
  ks.foldl (fun found k => (t.find? k).elim found (found.insert k)) ∅

/-- Adds an entry. -/
def insert (t : Permissions) (k : Entry.Key) (v : Entry.Value) : Permissions where
  entries := t.entries.insert k v
  byAclKey := Index.add t.byAclKey k.aclKey k.principal
  byPrincipal := Index.add t.byPrincipal k.principal k.aclKey
  byRoot := Index.add t.byRoot k.root k

/-- Replaces the value of an entry that is there. -/
def replace (t : Permissions) (k : Entry.Key) (v : Entry.Value) : Permissions :=
  { t with entries := t.entries.insert k v }

/-- Removes an entry, and says whether there was one. -/
def remove (t : Permissions) (k : Entry.Key) : Bool × Permissions :=
  if k ∈ t.entries then
    (true,
      { entries := t.entries.erase k
        byAclKey := Index.drop t.byAclKey k.aclKey k.principal
        byPrincipal := Index.drop t.byPrincipal k.principal k.aclKey
        byRoot := Index.drop t.byRoot k.root k })
  else (false, t)

/-- Removes the entries of a list and counts them. -/
def removeList : List Entry.Key → Permissions → Nat × Permissions
  | [], t => (0, t)
  | k :: ks, t =>
    let (found, t) := t.remove k
    let (n, t) := removeList ks t
    (n + found.toNat, t)

/-- Gives permissions under a key. An entry that is there keeps its kind and lasts
as long as the longer grant; a new entry takes the kind that is given. -/
def mergeOne (s : PermissionSet) (kind : ObjectKind) (expiration : Instant) (t : Permissions)
    (k : Entry.Key) : Permissions :=
  match t.find? k with
  | some v =>
    t.replace k { v with permissions := v.permissions.union s
                         expiration := v.expiration.later expiration }
  | none => t.insert k { permissions := s, kind, expiration }

/-- Gives permissions under each key of a list. -/
def merge (t : Permissions) (ks : List Entry.Key) (s : PermissionSet) (kind : ObjectKind)
    (expiration : Instant) : Permissions :=
  ks.foldl (mergeOne s kind expiration) t

/-- Takes permissions away under a key. An entry that is left without any goes. -/
def subtractOne (s : PermissionSet) (t : Permissions) (k : Entry.Key) : Permissions :=
  match t.find? k with
  | some v =>
    let left := v.permissions.difference s
    if left.isEmpty then (t.remove k).2 else t.replace k { v with permissions := left }
  | none => t

/-- Takes permissions away under each key of a list. -/
def subtract (t : Permissions) (ks : List Entry.Key) (s : PermissionSet) : Permissions :=
  ks.foldl (subtractOne s) t

/-- Sets the kind of an entry, and says whether there is one. -/
def updateKind (t : Permissions) (k : Entry.Key) (kind : ObjectKind) : Bool × Permissions :=
  match t.find? k with
  | some v => (true, t.replace k { v with kind })
  | none => (false, t)

/-! ## Queries -/

/-- The keys on an object, in order. -/
def keysOn (t : Permissions) (key : AclKey) : List Entry.Key :=
  (Index.row t.byAclKey key).toList.map fun p => ⟨key, p⟩

/-- The keys of a principal, in order. -/
def keysOf (t : Permissions) (p : Principal) : List Entry.Key :=
  (Index.row t.byPrincipal p).toList.map fun key => ⟨key, p⟩

/-- The keys under a root, in order. -/
def keysUnder (t : Permissions) (root : Identifier) : List Entry.Key :=
  (Index.row t.byRoot root).toList

/-- The keys that a query has to look at, in order: those that the narrowest of
its conditions leaves for which there is an index. -/
def candidates (t : Permissions) (q : Entry.Query) : List Entry.Key :=
  match q.key, q.aclKey, q.principal, q.root with
  | some k, _, _, _ => if k ∈ t.entries then [k] else []
  | none, some key, _, _ => t.keysOn key
  | none, none, some p, _ => t.keysOf p
  | none, none, none, some root => t.keysUnder root
  | none, none, none, none => t.entries.keys

/-- The entries that a query accepts, in the order of their keys. -/
def query (t : Permissions) (q : Entry.Query) : List Entry :=
  (t.candidates q).filterMap fun k =>
    (t.find? k).bind fun v => if q.accepts k v then some ⟨k, v⟩ else none

/-- Removes the entries on an object and counts them. -/
def deleteOn (t : Permissions) (key : AclKey) : Nat × Permissions :=
  removeList (t.candidates { aclKey := some key }) t

/-- Removes the entries of a principal and counts them. -/
def deleteOf (t : Permissions) (p : Principal) : Nat × Permissions :=
  removeList (t.candidates { principal := some p }) t

end Permissions
end AccessRegistry
