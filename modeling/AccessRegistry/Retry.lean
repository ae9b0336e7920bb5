/-
# Retries

An operation is called until it succeeds, fails for good, or has used up its
attempts. Between two calls the caller backs off, longer each time up to a
bound.

Key definitions: `Retry.Policy`, `Retry.Policy.backoff`, `Retry.Event`, `Retry.run`.
-/
import AccessRegistry.Log

namespace AccessRegistry.Retry

/-- How often to try, and how long to wait in between. -/
structure Policy where
  /-- How many calls there are at most; there is one in any case. -/
  maxAttempts : Nat
  /-- The first backoff in milliseconds. Zero turns waiting off. -/
  initialBackoff : Nat
  /-- The longest backoff in milliseconds. -/
  maxBackoff : Nat
  /-- How much longer each backoff is than the one before. -/
  multiplier : Float
  /-- A backoff may be up to a quarter longer, so that callers do not wake up together. -/
  jitter : Bool

namespace Policy

/-- Four attempts, from a tenth of a second up to ten seconds apart. -/
def standard : Policy := ⟨4, 100, 10000, 2.0, true⟩

/-- The standard backoff with another number of attempts. -/
def withMaxAttempts (n : Nat) : Policy := { standard with maxAttempts := n }

/-- Attempts without a wait in between. -/
def immediate (n : Nat) : Policy :=
  { standard with maxAttempts := n, initialBackoff := 0, jitter := false }

end Policy

/-- `x` to the power of `n` by repeated squaring; `acc` is multiplied in from the
lowest bit on. -/
def powFrom (acc x : Float) (n : Nat) : Float :=
  let acc := if n % 2 = 1 then acc * x else acc
  if n / 2 = 0 then acc else powFrom acc (x * x) (n / 2)
termination_by n
decreasing_by omega

/-- `x` to an integer power. A negative power is the reciprocal of the positive one. -/
def pow (x : Float) (n : Int) : Float :=
  if n < 0 then 1.0 / powFrom 1.0 x n.natAbs else powFrom 1.0 x n.natAbs

/-- The smaller of two numbers; what is no number does not count. -/
def least (a b : Float) : Float :=
  if a.isNaN then b else if b.isNaN then a else if b < a then b else a

/-- The backoff in milliseconds after the failed attempt of a number, counted
from zero as a signed word of 32 bits, without jitter. -/
def Policy.backoff (p : Policy) (attempt : Nat) : Nat :=
  if p.initialBackoff = 0 then 0
  else
    let growth := pow p.multiplier (Int32.ofNat attempt).toInt
    (least (Float.ofNat p.initialBackoff * growth) (Float.ofNat p.maxBackoff)).toUInt64.toNat

/-- Whether a wait is one that the policy may choose after an attempt. -/
def Policy.allows (p : Policy) (attempt wait : Nat) : Bool :=
  let base := p.backoff attempt
  base ≤ wait && (if p.jitter then 4 * wait ≤ 5 * base else wait ≤ base)

/-- What is done for a retried operation, one thing after the other. -/
inductive Event where
  /-- The call of a number, counted from zero. -/
  | call (number : Nat)
  /-- The backoff after the failed call of a number. -/
  | backoff (number : Nat)
  deriving DecidableEq, Repr

/-- Whether something that is done is a call. -/
def Event.isCall : Event → Bool
  | call _ => true
  | backoff _ => false

/-- How a retried operation went. -/
structure Run (ε α : Type) where
  /-- What the last call gave. -/
  result : Except ε α
  /-- The calls and the backoffs in their order. -/
  events : List Event
  log : List Log.Record

/-- How many calls there were. -/
def Run.calls {ε α : Type} (r : Run ε α) : Nat :=
  r.events.countP Event.isCall

section

variable {ε α : Type} (p : Policy) (name : String) (retryable : ε → Bool) (describe : ε → String)
  (operation : Nat → Except ε α)

/-- A record of a retried operation. -/
def record (level : Log.Level) (message : String) (fields : List (String × Log.Value)) :
    Log.Record :=
  { level, part := .retries, message, fields := ("operation", .text name) :: fields }

/-- Runs from the attempt of a number on; after it, `left` more are allowed. -/
def runFrom (attempt left : Nat) : Run ε α :=
  match left, operation attempt with
  | _, .ok a =>
    { result := .ok a, events := [.call attempt]
      log :=
        if attempt = 0 then []
        else [record name .info "Operation succeeded after retry"
          [("attempt", .number (attempt + 1))]] }
  | 0, .error e =>
    { result := .error e, events := [.call attempt]
      log := [record name .warn "Operation failed after max attempts"
        [("attempt", .number (attempt + 1)), ("error", .text (describe e))]] }
  | left + 1, .error e =>
    if retryable e then
      let rest := runFrom (attempt + 1) left
      { rest with
        events := .call attempt :: .backoff attempt :: rest.events
        log := record name .warn "Operation failed, retrying after backoff"
            [("attempt", .number (attempt + 1)), ("error", .text (describe e)),
              ("backoff_ms", .number (p.backoff attempt))] :: rest.log }
    else
      { result := .error e, events := [.call attempt]
        log := [record name .warn "Operation failed with non-retryable error"
          [("error", .text (describe e))]] }

/-- Calls an operation, which is told how many calls there were before, until it
succeeds, its error is not retryable, or the attempts are used up. -/
def run : Run ε α :=
  runFrom p name retryable describe operation 0 (p.maxAttempts - 1)

end

end AccessRegistry.Retry
