import Turnpike.Invocation.Attempt
import Turnpike.Retrier

namespace Turnpike

abbrev Retried := StateT (Option Response) Conduct

/--
Runs work under a retry policy: given whether the work may be repeated, one attempt, and a pause.
-/
abbrev RetryRunner :=
  RetryPolicy → Retried Bool → (Nat → Retried (Except Failure Unit)) → (Nat → Retried Unit) →
    Retried RetryOutcome

def Schedule.runner (s : Schedule) : RetryRunner := fun policy => (Retrier.mk policy s).run

structure Invoker where
  name : String
  execute : Option ServicePolicy → Conduct Response

namespace Invoker

def failfast : Invoker where
  name := "failfast"
  execute policy := do
    match ← Conduct.start policy with
    | some response => return response
    | none => return (← Conduct.attempt).response

def retriedAttempt (_ : Nat) : Retried (Except Failure Unit) := do
  let outcome ← (Conduct.attempt : Conduct AttemptOutcome)
  set (some outcome.response)
  return outcome.result

def pause (ms : Nat) : Retried Unit := do
  let i ← (get : Conduct Invocation)
  ask (.sleep i ms)

def unattempted (service : String) : Failure :=
  ⟨.rejected .other, s!"retrier made no attempt for {service}", none⟩

def underRetry (runner : RetryRunner) (policy : RetryPolicy) : Conduct Response := do
  let i ← get
  let (outcome, last) ← (runner policy (pure i.idempotent) retriedAttempt pause).run none
  match last with
  | some response => return response
  | none =>
    let request := (← get).request
    let failure := match outcome.result with
      | .error failure => failure
      | .ok () => unattempted request.service
    askCluster (.createResponse failure request none)

def failover (runner : RetryRunner) : Invoker where
  name := "failover"
  execute policy := do
    match ← Conduct.start policy with
    | some response => return response
    | none => match (← get).policy.bind (·.retry) with
      | none => return (← Conduct.attempt).response
      | some retry => underRetry runner retry

def builtin (runner : RetryRunner) : Registry Invoker :=
  .ofList [("failfast", failfast), ("failover", failover runner)]

end Invoker

end Turnpike
