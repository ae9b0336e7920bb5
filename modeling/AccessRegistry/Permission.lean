/-
# Permissions and sets of them

Seven permissions in a fixed order, and sets of permissions as a row of seven
bits. A set is told by its members.

Key definitions: `Permission`, `Permission.ofName?`, `PermissionSet`,
`PermissionSet.contains`, `PermissionSet.names`.
Key theorems: `PermissionSet.ext_contains`, `PermissionSet.contains_union`,
`PermissionSet.contains_difference`, `PermissionSet.contains_intersection`.
-/
import AccessRegistry.Order

namespace AccessRegistry

/-- What may be done to an object. -/
inductive Permission where
  | discover | link | materialize | read | write | owner | integrate
  deriving DecidableEq, Repr

namespace Permission

/-- Every permission, in order. -/
def all : List Permission :=
  [discover, link, materialize, read, write, owner, integrate]

/-- The place of a permission in the order. -/
def index : Permission → Nat
  | discover => 0
  | link => 1
  | materialize => 2
  | read => 3
  | write => 4
  | owner => 5
  | integrate => 6

instance : Ord Permission where
  compare := compareOn index

instance : Std.TransOrd Permission :=
  inferInstanceAs (Std.TransCmp (compareOn index))

instance : Std.LawfulEqOrd Permission :=
  lawfulEqCmp_compareOn fun a b => by cases a <;> cases b <;> simp [index]

/-- The name of a permission. -/
def name : Permission → String
  | discover => "DISCOVER"
  | link => "LINK"
  | materialize => "MATERIALIZE"
  | read => "READ"
  | write => "WRITE"
  | owner => "OWNER"
  | integrate => "INTEGRATE"

instance : ToString Permission := ⟨name⟩

/-- The permission of a name, in the exact spelling. -/
def ofExactName? (s : String) : Option Permission :=
  all.find? fun p => p.name = s

/-- The permission of a name, in any mix of upper and lower case of the
letters A to Z. -/
def ofName? (s : String) : Option Permission :=
  all.find? fun p => p.name.toLower = s.toLower

/-- Why a text names no permission. -/
def unknownMessage (s : String) : String := s!"Invalid permission: {s}"

theorem index_lt (p : Permission) : p.index < 7 := by
  cases p <;> decide

theorem mem_all (p : Permission) : p ∈ all := by
  cases p <;> decide

end Permission

/-- A set of permissions: the bit at a permission's index says whether it is in. -/
@[ext] structure PermissionSet where
  bits : BitVec 7
  deriving DecidableEq

namespace PermissionSet

/-- The set without members. -/
def empty : PermissionSet := ⟨0⟩

instance : EmptyCollection PermissionSet := ⟨empty⟩
instance : Inhabited PermissionSet := ⟨empty⟩

/-- Whether a permission is in the set. -/
def contains (s : PermissionSet) (p : Permission) : Bool :=
  s.bits.getLsbD p.index

/-- The set with one more member. -/
def insert (s : PermissionSet) (p : Permission) : PermissionSet :=
  ⟨s.bits ||| BitVec.twoPow 7 p.index⟩

/-- The members of a list. -/
def ofList (ps : List Permission) : PermissionSet :=
  ps.foldl insert empty

/-- Every permission. -/
def full : PermissionSet := ofList Permission.all

/-- The members of either set. -/
def union (a b : PermissionSet) : PermissionSet := ⟨a.bits ||| b.bits⟩

/-- The members of `a` that are not in `b`. -/
def difference (a b : PermissionSet) : PermissionSet := ⟨a.bits &&& ~~~b.bits⟩

/-- The members of both sets. -/
def intersection (a b : PermissionSet) : PermissionSet := ⟨a.bits &&& b.bits⟩

/-- Whether every member of `b` is in `a`. -/
def containsAll (a b : PermissionSet) : Bool := a.bits &&& b.bits == b.bits

/-- Whether the sets share a member. -/
def intersects (a b : PermissionSet) : Bool := a.bits &&& b.bits != 0

/-- Whether the set has no members. -/
def isEmpty (s : PermissionSet) : Bool := s.bits == 0

/-- The members, in order. -/
def toList (s : PermissionSet) : List Permission :=
  Permission.all.filter s.contains

/-- How many members the set has. -/
def size (s : PermissionSet) : Nat := s.toList.length

/-- The names of the members, in order. -/
def names (s : PermissionSet) : List String := s.toList.map Permission.name

/-- A set is told by its members. -/
theorem ext_contains {a b : PermissionSet} (h : ∀ p, a.contains p = b.contains p) : a = b := by
  apply PermissionSet.ext
  apply BitVec.eq_of_getLsbD_eq
  intro i hi
  have mem : ∃ p : Permission, p.index = i := by
    have every : ∀ k : Fin 7, ∃ p ∈ Permission.all, p.index = k.val := by decide
    obtain ⟨p, -, hp⟩ := every ⟨i, hi⟩
    exact ⟨p, hp⟩
  obtain ⟨p, rfl⟩ := mem
  exact h p

@[simp] theorem contains_empty (p : Permission) : empty.contains p = false := by
  simp [contains, empty]

@[simp] theorem contains_union (a b : PermissionSet) (p : Permission) :
    (a.union b).contains p = (a.contains p || b.contains p) := by
  simp [contains, union]

@[simp] theorem contains_difference (a b : PermissionSet) (p : Permission) :
    (a.difference b).contains p = (a.contains p && !b.contains p) := by
  simp [contains, difference, p.index_lt]

@[simp] theorem contains_intersection (a b : PermissionSet) (p : Permission) :
    (a.intersection b).contains p = (a.contains p && b.contains p) := by
  simp [contains, intersection]

@[simp] theorem contains_insert (s : PermissionSet) (p q : Permission) :
    (s.insert p).contains q = (s.contains q || decide (p = q)) := by
  have same : p.index = q.index ↔ p = q := by
    cases p <;> cases q <;> simp [Permission.index]
  simp only [contains, insert, BitVec.getLsbD_or, BitVec.getLsbD_twoPow, p.index_lt, decide_true,
    Bool.true_and, decide_eq_decide.mpr same]

end PermissionSet
end AccessRegistry
