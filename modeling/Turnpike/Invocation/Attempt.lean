import Turnpike.Invocation.Dialogue

namespace Turnpike

structure AttemptOutcome where
  response : Response
  failure : Option Failure
  deriving DecidableEq

def AttemptOutcome.result (o : AttemptOutcome) : Except Failure Unit :=
  match o.failure with
  | some failure => .error failure
  | none => .ok ()

namespace Conduct

def start (policy : Option ServicePolicy) : Conduct (Option Response) := do
  modify (·.setDefaultPolicy policy)
  let request := (← get).request
  askCluster (.start request)
  let readiness ← askContext .readiness
  if readiness.outbound then return none
  match ← askCluster (.createUnready readiness request) with
  | none => return none
  | some failure => return some (← askCluster (.createResponse failure request none))

def succeed (e : Endpoint) (response : Response) : Conduct AttemptOutcome := do
  tell (← modifyGet (·.onSuccess e response))
  askCluster (.success response (← get).request e)
  return ⟨response, none⟩

def fail (e : Option Endpoint) (failure : Failure) : Conduct AttemptOutcome := do
  tell (← modifyGet (·.onFailure e failure))
  let request := (← get).request
  let response ← askCluster (.createResponse failure request e)
  if let some failure := response.failure? then askCluster (.error failure request e)
  return ⟨response, response.failure?⟩

def candidates : Conduct (Except Failure (List Endpoint)) := do
  let i ← get
  let mode ← askContext (.routingMode i)
  if mode = .reuse ∧ !i.instances.isEmpty then return .ok i.instances
  match ← askCluster (.route i) with
  | .ok found =>
    modify fun i => (i.setInstances found).2
    return .ok found
  | .error failure => return .error failure

def dispatch (e : Endpoint) : Conduct AttemptOutcome := do
  tell ((← get).onForward e)
  askCluster (.startRequest (← get).request e)
  match ← askCluster (.invoke (← get) e) with
  | .ok (.success reply) => succeed e (.success reply)
  | .ok (.failure failure) | .error failure => fail (some e) failure

def select (candidates : List Endpoint) : Conduct AttemptOutcome := do
  let i ← get
  match ← askContext (.select i (i.untried candidates)) with
  | .error (.rejected r) => fail none (← askCluster (.createReject r i.request))
  | .error (.noProvider _) => fail none (← askCluster (.createNoProvider i.request))
  | .error (.failed failure) => fail none failure
  | .ok (e, admission) =>
    if let some breaker := admission then modify (·.addAttemptListener (.admission breaker))
    dispatch e

def attempt : Conduct AttemptOutcome := do
  tell (← modifyGet (·.beginAttempt))
  match ← candidates with
  | .error failure => fail none failure
  | .ok [] => fail none (← askCluster (.createNoProvider (← get).request))
  | .ok found => select found

end Conduct

end Turnpike
