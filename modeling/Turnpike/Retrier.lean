import Turnpike.Policy.Rules
import Turnpike.Registry

namespace Turnpike

inductive Schedule
  | exponential
  | fixed
  deriving DecidableEq

structure Retrier where
  policy : RetryPolicy
  schedule : Schedule
  deriving DecidableEq

structure RetryOutcome where
  attempts : Nat
  result : Except Failure Unit

def RetryOutcome.isSuccess (o : RetryOutcome) : Bool := o.result.isOk

def Schedule.builtin : Registry Schedule :=
  .ofList [("exponential", .exponential), ("fixed", .fixed)]

namespace Retrier

def delayAfter? (r : Retrier) (attempt : Nat) : Option Nat :=
  match r.schedule with
  | .exponential => r.policy.delay? attempt
  | .fixed =>
    if 1 ≤ attempt ∧ attempt < r.policy.maxAttempts.toNat then
      some r.policy.intervalMs.toNat
    else none

theorem lt_of_delayAfter?_eq_some {r : Retrier} {attempt d : Nat}
    (h : r.delayAfter? attempt = some d) : attempt < r.policy.maxAttempts.toNat := by
  unfold delayAfter? at h
  split at h
  · unfold RetryPolicy.delay? at h
    split at h
    · cases h
    · omega
  · split at h
    · omega
    · cases h

section Run

variable {m : Type → Type} [Monad m]

/--
Runs attempts from the given one on: until one succeeds, fails for good, or has no pause after
it. Whether the work may be repeated is asked after every failure. A pause of no length is left
out.
-/
def runFrom (r : Retrier) (idempotent : m Bool) (work : Nat → m (Except Failure Unit))
    (pause : Nat → m Unit) (attempt : Nat) : m RetryOutcome := do
  match ← work attempt with
  | .ok () => return ⟨attempt, .ok ()⟩
  | .error failure =>
    if !r.policy.isRetryable failure (← idempotent) then return ⟨attempt, .error failure⟩
    else
      match h : r.delayAfter? attempt with
      | none => return ⟨attempt, .error failure⟩
      | some delay =>
        have := lt_of_delayAfter?_eq_some h
        if delay ≠ 0 then pause delay
        r.runFrom idempotent work pause (attempt + 1)
termination_by r.policy.maxAttempts.toNat - attempt

def run (r : Retrier) (idempotent : m Bool) (work : Nat → m (Except Failure Unit))
    (pause : Nat → m Unit) : m RetryOutcome :=
  r.runFrom idempotent work pause 1

end Run

end Retrier

end Turnpike
