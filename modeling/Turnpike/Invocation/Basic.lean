import Turnpike.Admission.Bank
import Turnpike.Exchange
import Turnpike.Policy.Service

/-!
One logical outbound call. It outlives its attempts: it keeps the candidates it was routed to,
remembers which endpoints failed, and tells its listeners how it goes.
-/

namespace Turnpike

inductive Listener
  | observer (name : String)
  | admission (breaker : BreakerId)
  deriving DecidableEq

inductive Signal
  | forward (observer : String) (endpoint : Endpoint)
  | success (observer : String) (endpoint : Endpoint) (response : Response)
  | failure (observer : String) (endpoint : Option Endpoint) (failure : Failure)
  | report (breaker : BreakerId) (report : Report)
  deriving DecidableEq

structure Invocation where
  request : OutboundRequest
  instances : List Endpoint := []
  policy : Option ServicePolicy := none
  observers : List String := []
  attemptListeners : List Listener := []
  /-- The endpoints that failed, in the order of their first failure. -/
  failed : List String := []
  attempts : Nat := 0
  deriving DecidableEq

def Failure.report (f : Failure) : Report :=
  match f.kind with
  | .dispatch _ | .application => .error
  | _ => .release

namespace Listener

def onForward (e : Endpoint) : Listener → List Signal
  | .observer name => [.forward name e]
  | .admission _ => []

def onSuccess (e : Endpoint) (r : Response) : Listener → List Signal
  | .observer name => [.success name e r]
  | .admission breaker => [.report breaker .success]

def onFailure (e : Option Endpoint) (f : Failure) : Listener → List Signal
  | .observer name => [.failure name e f]
  | .admission breaker => [.report breaker f.report]

def onDrop : Listener → List Signal
  | .observer _ => []
  | .admission breaker => [.report breaker .release]

end Listener

namespace Invocation

def idempotent (i : Invocation) : Bool := i.request.idempotent

def service (i : Invocation) : String := i.request.service

def listeners (i : Invocation) : List Listener :=
  i.observers.map .observer ++ i.attemptListeners

def setInstances (i : Invocation) (instances : List Endpoint) : Bool × Invocation :=
  if i.instances.isEmpty then (true, { i with instances }) else (false, i)

def setDefaultPolicy (i : Invocation) (policy : Option ServicePolicy) : Invocation :=
  { i with policy := i.policy <|> policy }

def addAttemptListener (i : Invocation) (l : Listener) : Invocation :=
  { i with attemptListeners := i.attemptListeners ++ [l] }

/-- The candidates that have not failed yet, or all of them when every one has. -/
def untried (i : Invocation) (candidates : List Endpoint) : List Endpoint :=
  let fresh := candidates.filter (·.id ∉ i.failed)
  if fresh.isEmpty then candidates else fresh

def drop (i : Invocation) : List Signal × Invocation :=
  (i.attemptListeners.flatMap Listener.onDrop, { i with attemptListeners := [] })

def beginAttempt (i : Invocation) : List Signal × Invocation :=
  { i with attempts := i.attempts + 1 }.drop

def onForward (i : Invocation) (e : Endpoint) : List Signal :=
  i.listeners.flatMap (·.onForward e)

def onSuccess (i : Invocation) (e : Endpoint) (r : Response) : List Signal × Invocation :=
  (i.listeners.flatMap (·.onSuccess e r), { i with attemptListeners := [] })

def markFailed (i : Invocation) (e : Option Endpoint) : Invocation :=
  match e with
  | some e => if e.id ∈ i.failed then i else { i with failed := i.failed ++ [e.id] }
  | none => i

def onFailure (i : Invocation) (e : Option Endpoint) (f : Failure) : List Signal × Invocation :=
  (i.listeners.flatMap (·.onFailure e f), { i.markFailed e with attemptListeners := [] })

theorem snd_setInstances (i : Invocation) (es : List Endpoint) :
    (i.setInstances es).2 = { i with instances := (i.setInstances es).2.instances } := by
  unfold setInstances
  split <;> rfl

theorem markFailed_eq (i : Invocation) (e : Option Endpoint) :
    i.markFailed e = { i with failed := (i.markFailed e).failed } := by
  unfold markFailed
  split
  · split <;> rfl
  · rfl

theorem failed_markFailed_some (i : Invocation) (e : Endpoint) :
    (i.markFailed (some e)).failed = if e.id ∈ i.failed then i.failed else i.failed ++ [e.id] := by
  simp only [markFailed]
  split <;> rfl

@[simp] theorem request_onFailure (i : Invocation) (e : Option Endpoint) (f : Failure) :
    (i.onFailure e f).2.request = i.request :=
  congrArg (·.request) (i.markFailed_eq e)

end Invocation

end Turnpike
