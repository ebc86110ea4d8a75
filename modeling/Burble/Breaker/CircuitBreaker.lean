import Mathlib.Logic.Function.Basic

namespace Burble.Breaker

structure Config where
  failureThreshold : Nat
  openDurationMs : Nat
  deriving DecidableEq, Repr

inductive BreakerState
  | closed
  | halfOpen
  | opened
  deriving DecidableEq, Repr

/-- The entries of a breaker in the table, and the monotonic clock. -/
structure CircuitBreaker where
  failures : Option Nat
  openedAt : Option Int
  now : Int
  deriving DecidableEq, Repr

/-- The state by the counters that were read. -/
def stateOf (config : Config) (failures : Nat) (openedAt : Option Int) (now : Int) : BreakerState :=
  match openedAt with
  | some openedAt => if now - openedAt ≥ config.openDurationMs then .halfOpen else .opened
  | none => if failures ≥ config.failureThreshold then .opened else .closed

/-- The state by the entries as they stand. -/
def CircuitBreaker.state (config : Config) (breaker : CircuitBreaker) : BreakerState :=
  stateOf config (breaker.failures.getD 0) breaker.openedAt breaker.now

/-- What a protected call comes to. -/
inductive CallResult
  | errorTuple
  | errorAtom
  | other
  | raised
  deriving DecidableEq, Repr

inductive Closing
  | recordSuccess
  | reset
  deriving DecidableEq, Repr

/-- The operation on the table or the clock that a caller makes next. -/
inductive Phase
  | idle
  | readFailures
  | readOpenedAt (failures : Nat)
  | checkState (failures : Nat) (openedAt : Option Int)
  | rejected
  | running
  | insertFailures (closing : Closing)
  | deleteOpenedAt (closing : Closing)
  | updateCounter
  | readClock
  | insertOpenedAt (now : Int)
  | returned
  deriving DecidableEq, Repr

/-- A success also reads the counters first, for the telemetry. -/
def classifyAndRecord : CallResult → Phase
  | .errorTuple => .updateCounter
  | .errorAtom => .updateCounter
  | .other => .insertFailures .recordSuccess
  | .raised => .updateCounter

/-- The next operation, with what it leaves in the table. -/
def operate (config : Config) (breaker : CircuitBreaker) : Phase → Option (CircuitBreaker × Phase)
  | .readFailures => some (breaker, .readOpenedAt (breaker.failures.getD 0))
  | .readOpenedAt failures => some (breaker, .checkState failures breaker.openedAt)
  | .checkState failures openedAt =>
    some (breaker, if stateOf config failures openedAt breaker.now = .opened then .rejected else .running)
  | .insertFailures closing => some ({ breaker with failures := some 0 }, .deleteOpenedAt closing)
  | .deleteOpenedAt _ => some ({ breaker with openedAt := none }, .returned)
  | .updateCounter =>
    let newCount := breaker.failures.getD 0 + 1
    some ({ breaker with failures := some newCount },
      if newCount ≥ config.failureThreshold then .readClock else .returned)
  | .readClock => some (breaker, .insertOpenedAt breaker.now)
  -- The entry is written whether the breaker was open before or not.
  | .insertOpenedAt now => some ({ breaker with openedAt := some now }, .returned)
  | .idle | .rejected | .running | .returned => none

/-- One caller of one protected call or reset. -/
abbrev Caller := Nat

inductive Action
  | tick (now : Int)
  | withBreaker (caller : Caller)
  | reset (caller : Caller)
  | finish (caller : Caller) (result : CallResult)
  | operate (caller : Caller)

/-- A breaker with its callers. -/
structure Callers where
  breaker : CircuitBreaker
  phase : Caller → Phase

namespace Callers

def goto (callers : Callers) (caller : Caller) (phase : Phase) : Callers :=
  { callers with phase := Function.update callers.phase caller phase }

def next (config : Config) (callers : Callers) : Action → Option Callers
  | .tick now =>
    if callers.breaker.now ≤ now then some { callers with breaker := { callers.breaker with now := now } } else none
  | .withBreaker caller => if callers.phase caller = .idle then some (callers.goto caller .readFailures) else none
  | .reset caller =>
    if callers.phase caller = .idle then some (callers.goto caller (.insertFailures .reset)) else none
  | .finish caller result =>
    if callers.phase caller = .running then some (callers.goto caller (classifyAndRecord result)) else none
  | .operate caller => (operate config callers.breaker (callers.phase caller)).map fun made =>
    { callers.goto caller made.2 with breaker := made.1 }

end Callers

variable {config : Config} {breaker : CircuitBreaker}

theorem state_closed_iff : breaker.state config = .closed ↔
    breaker.openedAt = none ∧ breaker.failures.getD 0 < config.failureThreshold := by
  unfold CircuitBreaker.state stateOf
  cases breaker.openedAt with
  | none =>
    dsimp only
    split
    · simp; omega
    · simp; omega
  | some openedAt =>
    dsimp only
    split <;> simp

/-- A call that saw the breaker opened is only admitted when it is half open. -/
theorem halfOpen_of_admitted {failures : Nat} {openedAt : Int} {now : Int}
    (admitted : stateOf config failures (some openedAt) now ≠ .opened) :
    stateOf config failures (some openedAt) now = .halfOpen := by
  unfold stateOf at *
  dsimp only at *
  split at admitted
  next late => rw [if_pos late]
  next => exact absurd rfl admitted

end Burble.Breaker
