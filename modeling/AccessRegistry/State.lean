/-
# The state of a registry

Everything that a registry keeps: its tables, the trail of audit events, the
supply of identifiers, the clock, and what it wrote to its log. An action reads
and changes the state, and gives a value or fails with an error; what it changed
before it failed stays changed.

Key definitions: `Tables`, `State`, `Action`, `Action.call`, `Action.reach`.
-/
import AccessRegistry.Call
import AccessRegistry.Supply.Allocator
import AccessRegistry.Supply.Locks
import AccessRegistry.Supply.Queue
import AccessRegistry.Table.Cursors
import AccessRegistry.Table.Directory
import AccessRegistry.Table.Memberships
import AccessRegistry.Table.Permissions
import AccessRegistry.Table.Reservations
import AccessRegistry.Telemetry

namespace AccessRegistry

/-- The records of a registry. -/
@[ext] structure Tables where
  cursors : Cursors
  reservations : Reservations
  permissions : Permissions
  memberships : Memberships
  directory : Directory

/-- Tables without records. -/
def Tables.empty : Tables := ⟨∅, .empty, .empty, ∅, .empty⟩

instance : Inhabited Tables := ⟨.empty⟩

/-- Whether the database that keeps the records can be reached. -/
inductive Storage where
  /-- The records are in memory. -/
  | memory
  /-- The records are in a database whose connections are closed. -/
  | closedDatabase
  deriving DecidableEq, Repr

/-- The desks at which identifiers are handed out. -/
inductive Desk where
  /-- The desk of the registry's own objects. -/
  | registry
  /-- The desk that callers go to. Unless it has an allocator of its own it is the
  registry's desk. -/
  | front
  deriving DecidableEq, Repr

/-- Everything that a registry keeps. -/
structure State where
  tables : Tables
  /-- The audit events, the first one first. -/
  trail : List AuditEvent
  queue : Queue
  locks : Locks
  /-- The allocator of the registry's desk. -/
  registry : Allocator
  /-- The allocator of the front desk, if it has one of its own. -/
  front : Option Allocator
  /-- How many random identifiers were drawn. -/
  draws : Nat
  /-- Milliseconds since the start. -/
  clock : Nat
  /-- When a call that waited was last reached by another one. -/
  reached : Option Nat
  /-- The date, by which grants expire. -/
  today : Instant
  storage : Storage
  outages : Outages
  telemetry : Telemetry
  /-- The records of the log, the first one first. -/
  log : List Log.Record

/-- The state of a registry at its start. -/
def State.start (ids : IdSettings) (today : Instant) : State where
  tables := .empty
  trail := []
  queue := .empty ids.queueCapacity
  locks := .empty
  registry := .ofSettings ids
  front := none
  draws := 0
  clock := 0
  reached := none
  today
  storage := .memory
  outages := []
  telemetry := ⟨false, false⟩
  log := []

namespace State

/-- The allocator of a desk. -/
def allocator (s : State) : Desk → Allocator
  | .registry => s.registry
  | .front => s.front.getD s.registry

/-- The state with the allocator of a desk replaced. -/
def setAllocator (s : State) (d : Desk) (a : Allocator) : State :=
  match d, s.front with
  | .front, some _ => { s with front := some a }
  | _, _ => { s with registry := a }

/-- The state after some more time in which nothing happens. -/
def advance (s : State) (ms : Nat) : State := { s with clock := s.clock + ms, reached := none }

end State

/-- A computation on the state that may fail. -/
abbrev Action (α : Type) := ExceptT ServiceError (StateM State) α

namespace Action

variable {α : Type}

/-- Runs an action from a state. -/
def perform (a : Action α) (s : State) : Except ServiceError α × State :=
  StateT.run (ExceptT.run a) s

/-- Adds a record to the log. -/
def log (r : Log.Record) : Action Unit := modify fun s => { s with log := s.log ++ [r] }

/-- Adds records to the log. -/
def logAll (rs : List Log.Record) : Action Unit := modify fun s => { s with log := s.log ++ rs }

/-- Adds a record with a level, the part that speaks, a message and values. -/
def say (level : Log.Level) (part : Log.Part) (message : String)
    (fields : List (String × Log.Value)) : Action Unit :=
  log { level, part, message, fields }

/-- Fails with a store's error. -/
def failStore (e : StoreError) : Action α := throw (.store e)

/-- Makes a call of a kind, which fails if there is an outage. -/
def call (c : Call) : Action Unit := do
  let s ← get
  let (fails, outages) := s.outages.check c
  set { s with outages }
  if fails then failStore (.internal (c.name ++ " unavailable"))

/-- Why a database without connections refuses. -/
def closedReason : String := "attempted to acquire a connection on a closed pool"

/-- Gets at the records, which fails if they are in a database that is closed. -/
def reach : Action Unit := do
  if (← get).storage = .closedDatabase then failStore (.database closedReason)

/-- Makes a call that gets at the records. -/
def callRecords (c : Call) : Action Unit := do
  call c
  reach

/-- Reads the tables. -/
def tables : Action Tables := return (← get).tables

/-- Changes the tables and gives a value. -/
def change (f : Tables → α × Tables) : Action α := do
  let s ← get
  let (a, tables) := f s.tables
  set { s with tables }
  return a

/-- Lets time go by. -/
def wait (ms : Nat) : Action Unit := modify fun s => { s with clock := s.clock + ms }

/-- Adds an event to the trail, and tells the log. -/
def record (e : AuditEvent) : Action Unit := do
  modify fun s => { s with trail := s.trail ++ [e] }
  log e.logRecord

/-- Runs an action and gives its error as a value. -/
def attempt (a : Action α) : Action (Except ServiceError α) :=
  ExceptT.mk (do return .ok (← ExceptT.run a))

end Action
end AccessRegistry
