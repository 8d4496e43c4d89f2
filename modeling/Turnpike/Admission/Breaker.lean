import Turnpike.Policy.Rules

/-!
Circuit breakers. A closed breaker watches the outcomes in its window and opens when too many of
them are failures; an open one refuses calls until its wait has passed; a half-open one grants a
few trials, which decide whether it closes.
-/

namespace Turnpike

inductive CircuitState
  | closed
  | opened
  | halfOpen
  deriving DecidableEq

namespace CircuitState

def describe : CircuitState → String
  | .closed => "closed"
  | .opened => "open"
  | .halfOpen => "half-open"

instance : ToJson CircuitState where
  toJson
    | .closed => .str "closed"
    | .opened => .str "open"
    | .halfOpen => .str "halfOpen"

end CircuitState

structure Breaker where
  policy : BreakerPolicy
  state : CircuitState := .closed
  /-- The latest outcomes, the oldest first; `true` is a failure. -/
  window : List Bool := []
  failures : Nat := 0
  openedAt : Nat := 0
  granted : Nat := 0
  passed : Nat := 0
  deriving DecidableEq

inductive Report
  | success
  | error
  | release
  deriving DecidableEq

namespace Breaker

def trim (size : Nat) : List Bool → Nat → List Bool × Nat
  | [], failures => ([], failures)
  | failed :: rest, failures =>
    if rest.length < size then (failed :: rest, failures)
    else trim size rest (failures - failed.toNat)

def record (b : Breaker) (failed : Bool) : Breaker :=
  let (window, failures) :=
    trim b.policy.slidingWindowSize.toNat (b.window ++ [failed]) (b.failures + failed.toNat)
  { b with window, failures }

def failureRate (b : Breaker) : Float :=
  if b.window.isEmpty then 0.0
  else (UInt64.ofNat b.failures).toFloat * 100.0 / (UInt64.ofNat b.window.length).toFloat

def opened (b : Breaker) (now : Nat) : Breaker :=
  { b with state := .opened, openedAt := now, granted := 0, passed := 0 }

def closed (b : Breaker) : Breaker :=
  { b with state := .closed, window := [], failures := 0, granted := 0, passed := 0 }

def hasWaited (b : Breaker) (now : Nat) : Bool := b.policy.waitInOpenMs.toNat ≤ now - b.openedAt

def trips (b : Breaker) : Bool :=
  max b.policy.minimumCalls.toNat 1 ≤ b.window.length &&
    b.policy.failureRateThreshold ≤ b.failureRate

def grantTrial (b : Breaker) : Bool × Breaker :=
  if b.granted < b.policy.permittedCallsInHalfOpen.toNat then
    (true, { b with granted := b.granted + 1 })
  else (false, b)

/-- Asks for admission. A trial stays taken until the call is reported. -/
def tryAcquire (b : Breaker) (now : Nat) : Bool × Breaker :=
  match b.state with
  | .closed => (true, b)
  | .halfOpen => b.grantTrial
  | .opened => if b.hasWaited now then { b with state := .halfOpen }.grantTrial else (false, b)

def onSuccess (b : Breaker) : Breaker :=
  match b.state with
  | .closed => b.record false
  | .halfOpen =>
    let b := { b with passed := b.passed + 1 }
    if b.policy.permittedCallsInHalfOpen.toNat ≤ b.passed then b.closed else b
  | .opened => b

def onError (b : Breaker) (now : Nat) : Breaker :=
  match b.state with
  | .closed =>
    let b := b.record true
    if b.trips then b.opened now else b
  | .halfOpen => b.opened now
  | .opened => b

def release (b : Breaker) : Breaker :=
  match b.state with
  | .halfOpen => { b with granted := b.granted - 1 }
  | _ => b

def settle (b : Breaker) (now : Nat) : Report → Breaker
  | .success => b.onSuccess
  | .error => b.onError now
  | .release => b.release

/-- The state that a caller sees: an open breaker that has waited is half-open. -/
def stateAt (b : Breaker) (now : Nat) : CircuitState :=
  if b.state = .opened ∧ b.hasWaited now then .halfOpen else b.state

end Breaker

inductive BreakerStrategy
  | count
  deriving DecidableEq

def BreakerStrategy.create : BreakerStrategy → BreakerPolicy → Breaker
  | .count, policy => { policy }

end Turnpike
