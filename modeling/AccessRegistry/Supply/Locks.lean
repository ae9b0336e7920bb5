/-
# Locks that expire

A lock has a name and is held by whoever has the token that was issued for it. It
ends when its holder gives the token back or when its time is over, so that a
holder that is gone blocks nobody for long.

Key definitions: `Locks`, `Locks.isHeld`, `Locks.acquire`, `Locks.release`.
-/
import AccessRegistry.Order

namespace AccessRegistry

/-- Proof of holding a lock. -/
inductive LockToken where
  /-- The token that was issued as the one of a number. No two are the same. -/
  | issued (number : Nat)
  /-- A token that was made up elsewhere. -/
  | foreign (text : String)
  deriving DecidableEq, Repr

/-- A lock that was given: to whom, and until when. -/
structure Lease where
  token : LockToken
  /-- The lock is over at this time, in milliseconds. -/
  expiry : Nat
  deriving DecidableEq, Repr

/-- The locks of a cluster. -/
@[ext] structure Locks where
  leases : Std.ExtTreeMap String Lease
  /-- How many tokens were issued. -/
  issued : Nat

namespace Locks

/-- No locks. -/
def empty : Locks := ⟨∅, 0⟩

/-- Whether a lock is held at a time. -/
def isHeld (l : Locks) (name : String) (now : Nat) : Bool :=
  l.leases[name]?.any fun lease => now < lease.expiry

/-- Gives a lock for `ttl` milliseconds, unless it is held. -/
def acquire (l : Locks) (name : String) (ttl now : Nat) : Option LockToken × Locks :=
  if l.isHeld name now then (none, l)
  else
    let token := LockToken.issued l.issued
    (some token, ⟨l.leases.insert name ⟨token, now + ttl⟩, l.issued + 1⟩)

/-- Ends a lock for the holder of its token, and says whether it was held by them. -/
def release (l : Locks) (name : String) (token : LockToken) (now : Nat) : Bool × Locks :=
  if l.leases[name]?.any fun lease => lease.token = token ∧ now < lease.expiry then
    (true, { l with leases := l.leases.erase name })
  else (false, l)

end Locks
end AccessRegistry
