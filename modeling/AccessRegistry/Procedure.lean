/-
# Procedures

A procedure is a service's work as data: a sequence of steps, each of which
happens at once, where what comes next may hang on what a step gave. Run without
a break it is an action. Between two steps of one procedure there may be steps of
others.

Key definitions: `Step`, `Procedure`, `Procedure.run`.
Key theorems: `Procedure.run_bind`, `Procedure.bind_assoc`.
-/
import AccessRegistry.Supply.Handout

namespace AccessRegistry

/-- A step and the type of what it gives. -/
inductive Step : Type → Type where
  /-- Binds name and identifier of a reservation if both are free. -/
  | insertReservation (r : Reservation) : Step (Option Identifier)
  /-- Removes the bindings of identifiers and counts them. -/
  | deleteIds (ids : List Identifier) : Step Nat
  /-- Gets an identifier that nobody has. -/
  | freshId : Step Identifier
  /-- The registration of a principal. -/
  | lookup (p : Principal) : Step (Option Registration)
  /-- Adds a registration unless its principal or its key is there. -/
  | createPrincipal (r : Registration) : Step Bool
  /-- Removes a principal. -/
  | deletePrincipal (p : Principal) : Step (Option Registration)
  /-- Gives permissions under a key. -/
  | merge (k : Entry.Key) (s : PermissionSet) (kind : ObjectKind) (expiration : Instant) :
    Step Unit
  /-- Adds an event to the trail. -/
  | record (e : AuditEvent) : Step Unit
  /-- Adds a record to the log. -/
  | log (r : Log.Record) : Step Unit
  /-- Waits for some milliseconds. -/
  | pause (ms : Nat) : Step Unit

/-- What a step does. -/
def Step.perform : {α : Type} → Step α → Action α
  | _, insertReservation r => Store.insertReservation r
  | _, deleteIds ids => Store.deleteIds ids
  | _, freshId => Desk.next .registry
  | _, lookup p => Store.lookup? p
  | _, createPrincipal r => Store.createPrincipal r
  | _, deletePrincipal p => Store.deletePrincipal p
  | _, merge k s kind expiration => Store.merge [k] s kind expiration
  | _, record e => Action.record e
  | _, log r => Action.log r
  | _, pause ms => Action.wait ms

/-- A sequence of steps that ends in a value or an error. -/
inductive Procedure (α : Type) : Type 1 where
  | done (a : α)
  | fail (e : ServiceError)
  | step {β : Type} (s : Step β) (next : Except ServiceError β → Procedure α)

namespace Procedure

variable {α β γ : Type}

/-- One procedure after another. -/
def bind : Procedure α → (α → Procedure β) → Procedure β
  | done a, f => f a
  | fail e, _ => fail e
  | step s next, f => step s fun r => bind (next r) f

instance : Monad Procedure where
  pure := done
  bind := bind

/-- A step that fails the procedure if it fails. -/
def perform (s : Step α) : Procedure α :=
  step s fun
    | .ok a => done a
    | .error e => fail e

/-- A step whose error is a value. -/
def attemptStep (s : Step α) : Procedure (Except ServiceError α) := step s done

/-- A procedure whose error is a value. -/
def attempt : Procedure α → Procedure (Except ServiceError α)
  | done a => done (.ok a)
  | fail e => done (.error e)
  | step s next => step s fun r => attempt (next r)

/-- Adds a record with a level, the part that speaks, a message and values. -/
def say (level : Log.Level) (part : Log.Part) (message : String)
    (fields : List (String × Log.Value)) : Procedure Unit :=
  perform (.log { level, part, message, fields })

/-- Runs a procedure without a break. -/
def run : Procedure α → Action α
  | done a => pure a
  | fail e => throw e
  | step s next => do run (next (← Action.attempt s.perform))

/-! ## Laws -/

theorem bind_done (p : Procedure α) : p.bind done = p := by
  induction p with
  | done a => rfl
  | fail e => rfl
  | step s next ih => simp [bind, ih]

theorem bind_assoc (p : Procedure α) (f : α → Procedure β) (g : β → Procedure γ) :
    (p.bind f).bind g = p.bind fun a => (f a).bind g := by
  induction p with
  | done a => rfl
  | fail e => rfl
  | step s next ih => simp [bind, ih]

instance : LawfulMonad Procedure :=
  LawfulMonad.mk' Procedure bind_done (fun _ _ => rfl) bind_assoc

/-- Running goes along the sequence. -/
theorem run_bind (p : Procedure α) (f : α → Procedure β) :
    (p.bind f).run = (do (f (← p.run)).run) := by
  induction p with
  | done a => simp [bind, run]
  | fail e =>
    apply ExceptT.ext
    simp [bind, run]
  | step s next ih => simp [bind, run, ih]

end Procedure
end AccessRegistry
