/-
# Acl keys

An acl key is the path of identifiers that leads to a securable object: the
object's root first, the object itself last. It is never empty. Keys are
ordered as words over the identifiers.

Key definitions: `AclKey`, `AclKey.ofIds?`, `AclKey.root`, `AclKey.leaf`,
`AclKey.under`, `AclKey.child`.
-/
import AccessRegistry.Identifier.Text

namespace AccessRegistry

/-- A non-empty path of identifiers. -/
@[ext] structure AclKey where
  ids : List Identifier
  ids_ne_nil : ids ≠ []
  deriving DecidableEq

namespace AclKey

instance : Ord AclKey where
  compare := compareOn AclKey.ids

instance : Std.TransOrd AclKey :=
  inferInstanceAs (Std.TransCmp (compareOn AclKey.ids))

instance : Std.LawfulEqOrd AclKey :=
  lawfulEqCmp_compareOn fun _ _ => AclKey.ext

/-- The key of an object that stands at the top. -/
def single (id : Identifier) : AclKey :=
  ⟨[id], by simp⟩

/-- The key of the object `id` that lies at the end of a path, which may be empty. -/
def under (path : List Identifier) (id : Identifier) : AclKey :=
  ⟨path ++ [id], by simp⟩

/-- The key of the object `id` inside the object at `key`. -/
def child (key : AclKey) (id : Identifier) : AclKey :=
  under key.ids id

/-- The key of a path, if the path is not empty. -/
def ofIds? (ids : List Identifier) : Option AclKey :=
  if h : ids ≠ [] then some ⟨ids, h⟩ else none

/-- Why an empty path is no key. -/
def emptyMessage : String := "acl key must not be empty"

/-- The first identifier of the path. -/
def root (key : AclKey) : Identifier :=
  key.ids.head key.ids_ne_nil

/-- The last identifier of the path: the object itself. -/
def leaf (key : AclKey) : Identifier :=
  key.ids.getLast key.ids_ne_nil

/-- The identifiers with slashes between them. -/
def toText (key : AclKey) : String :=
  "/".intercalate (key.ids.map Identifier.toText)

instance : ToString AclKey := ⟨toText⟩

instance : Inhabited AclKey := ⟨single default⟩

@[simp] theorem leaf_under (path : List Identifier) (id : Identifier) :
    (under path id).leaf = id := by
  simp [leaf, under]

@[simp] theorem root_single (id : Identifier) : (single id).root = id := rfl

end AclKey
end AccessRegistry
