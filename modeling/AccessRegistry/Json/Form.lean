/-
# Reading values from JSON

A reader takes a JSON value and gives a domain value or the fault it met: the
text stopped being JSON, or what stands there is not of the form asked for.
Values are read in the order of the text, so that of two faults the first one
counts.

An object of known members is read by a form. Members in any order, each at most
once; members that the form does not know are skipped. An array in place of the
object holds the members by position.

Key definitions: `Json.Fault`, `Json.Reader`, `Json.Form`, `Json.Form.read`.
-/
import AccessRegistry.Json

namespace AccessRegistry.Json

/-- Why a value cannot be read. -/
inductive Fault where
  /-- The text is not JSON. -/
  | malformed
  /-- The value is not of the form asked for. -/
  | mismatched
  deriving DecidableEq, Repr

/-- A way to read a value. -/
abbrev Reader (α : Type) := Json → Except Fault α

/-- The fault of a value of another form. -/
def fault : Json → Fault
  | .broken => .malformed
  | .unreadable => .malformed
  | _ => .mismatched

/-- Takes what a value must have. -/
def expect {α : Type} (x : Option α) : Except Fault α :=
  x.elim (.error .mismatched) .ok

namespace Reader

/-- Any text. -/
def text : Reader String
  | .text s => .ok s
  | j => .error j.fault

/-- A truth value. -/
def bool : Reader Bool
  | .bool b => .ok b
  | j => .error j.fault

/-- A text in which something is written. -/
def written {α : Type} (parse : String → Option α) : Reader α := fun j => do
  expect (parse (← text j))

/-- An integer from `lo` to `hi`. -/
def integer (lo hi : Int) : Reader Int
  | .number n => expect (n.integer?.filter fun i => lo ≤ i && i ≤ hi)
  | j => .error j.fault

/-- A natural number below a bound. -/
def natural (bound : Nat) : Reader Nat := fun j => do
  return (← integer 0 (bound - 1) j).toNat

/-- An array of values, read from its first item to its last. -/
def list {α : Type} (read : Reader α) : Reader (List α)
  | .array items => items.mapM read
  | j => .error j.fault

/-- A value or null. -/
def optional {α : Type} (read : Reader α) : Reader (Option α)
  | .null => .ok none
  | j => return some (← read j)

/-- Any value, which nobody looks at. -/
def skipped : Reader Unit := fun j => if j.intact then .ok () else .error .malformed

/-- Any value, which is kept to be looked at later. -/
def kept : Reader Json := fun j => if j.readable then .ok j else .error .malformed

/-- One of a set of names that stands as the name of a member, which has to be null and
the only one. -/
def memberName {α : Type} (ofName? : String → Option α) (whole : Bool) :
    List (String × Json) → Except Fault α
  | [] => .error .malformed
  | (s, j) :: ms => do
    let a ← expect (ofName? s)
    match j with
    | .null => if whole && ms.isEmpty then .ok a else .error .malformed
    | j => .error j.fault

/-- One of a set of names: a text, or an object whose only member has that name
and is null. Every other value stands where no name can stand. -/
def name {α : Type} (ofName? : String → Option α) : Reader α
  | .text s => expect (ofName? s)
  | .object ms => memberName ofName? true ms
  | .severed ms _ => memberName ofName? false ms
  | _ => .error .malformed

end Reader

/-- What a form says about one member. -/
structure Form.Field where
  name : String
  /-- The fault of a value that the member must not have. -/
  check : Json → Except Fault Unit
  /-- The member may be missing in an array. -/
  hasDefault : Bool

/-- The members of an object and the value that they make. -/
structure Form (α : Type) where
  fields : List Form.Field
  build : (String → Option Json) → Except Fault α

namespace Form

variable {α β : Type}

instance : Functor Form where
  map f form := { fields := form.fields, build := fun get => f <$> form.build get }

instance : Seq Form where
  seq f x :=
    { fields := f.fields ++ (x ()).fields
      build := fun get => do
        let g ← f.build get
        let a ← (x ()).build get
        return g a }

/-- The field of a member that is read by `read`. -/
def field (name : String) (read : Reader α) (hasDefault : Bool) : Field :=
  { name, check := fun j => (read j).map fun _ => (), hasDefault }

/-- A member that must be there. -/
def required (name : String) (read : Reader α) : Form α :=
  { fields := [field name read false]
    build := fun get => expect (get name) >>= read }

/-- A member that may be missing or null. -/
def optional (name : String) (read : Reader α) : Form (Option α) :=
  { fields := [field name (Reader.optional read) false]
    build := fun get => (get name).elim (.ok none) (Reader.optional read) }

/-- A member with a value of its own where it is missing. -/
def defaulted (name : String) (read : Reader α) (default : α) : Form α :=
  { fields := [field name read true]
    build := fun get => (get name).elim (.ok default) read }

/-- Checks the members of an object in order; `seen` are the known names met so far. -/
def checkMembers (fields : List Field) : (seen : List String) → List (String × Json) →
    Except Fault Unit
  | _, [] => .ok ()
  | seen, (name, j) :: ms =>
    match fields.find? (·.name = name) with
    | some f => do
      if name ∈ seen then .error .mismatched
      f.check j
      checkMembers fields (name :: seen) ms
    | none => do
      Reader.skipped j
      checkMembers fields seen ms

/-- Checks the items of an array in order. -/
def checkItems : List Field → List Json → Except Fault Unit
  | [], [] => .ok ()
  | [], _ :: _ => .error .malformed
  | f :: fs, [] => if f.hasDefault then checkItems fs [] else .error .mismatched
  | f :: fs, j :: js => do
    f.check j
    checkItems fs js

/-- Reads an object, or an array in its place. -/
def read (form : Form α) : Reader α
  | .object ms => do
    checkMembers form.fields [] ms
    form.build fun name => ms.lookup name
  | .severed ms _ => do
    checkMembers form.fields [] ms
    .error .malformed
  | .array items => do
    checkItems form.fields items
    form.build fun name => ((form.fields.map Field.name).zip items).lookup name
  | j => .error j.fault

end Form
end AccessRegistry.Json
