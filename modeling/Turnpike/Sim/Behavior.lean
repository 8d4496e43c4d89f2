import Turnpike.Exchange
import Turnpike.Sim.Seed

namespace Turnpike

structure EndpointBehavior where
  failureRate : Float := 0.0
  latencyMs : UInt64 := 0
  failureKind : FailureKind := .dispatch .connect
  failureCode : Option String := none
  deriving DecidableEq

inductive BehaviorFault
  | rateOutOfRange
  | kindBeforeDispatch
  deriving DecidableEq

inductive SimError
  | invalidBehavior (endpoint : String) (fault : BehaviorFault)
  | duplicateEndpoint (endpoint : String)
  deriving DecidableEq

def BehaviorFault.reason : BehaviorFault → String
  | .rateOutOfRange => "failureRate must be within [0, 1]"
  | .kindBeforeDispatch => "failureKind must be a dispatch or application failure"

def SimError.message : SimError → String
  | .invalidBehavior endpoint fault => s!"Invalid behavior for endpoint {endpoint}: {fault.reason}"
  | .duplicateEndpoint endpoint => s!"Duplicate endpoint: {endpoint}"

namespace EndpointBehavior

def validate (b : EndpointBehavior) (endpoint : String) : Except SimError Unit := do
  if !(0.0 ≤ b.failureRate && b.failureRate ≤ 1.0) then
    throw (.invalidBehavior endpoint .rateOutOfRange)
  match b.failureKind with
  | .dispatch _ | .application => return
  | _ => throw (.invalidBehavior endpoint .kindBeforeDispatch)

def simulatedFailure (b : EndpointBehavior) (e : Endpoint) : Failure :=
  ⟨b.failureKind, s!"simulated {b.failureKind.describe} at {e.describe}", b.failureCode⟩

/--
One dispatch. Nothing is drawn where nothing can fail. An application failure is a completed
response that carries the failure.
-/
def outcome (b : EndpointBehavior) (g : Random.ChaCha) (e : Endpoint) :
    Except Failure Response × Random.ChaCha :=
  let (failed, g) :=
    if 0.0 < b.failureRate then
      let (x, g) := g.nextFloat
      (decide (x < b.failureRate), g)
    else (false, g)
  if !failed then (.ok (.success ⟨e.id, [], some "200"⟩), g)
  else
    let failure := b.simulatedFailure e
    match b.failureKind with
    | .application => (.ok (.failure failure), g)
    | _ => (.error failure, g)

instance : ToJson EndpointBehavior where
  toJson b := .obj [
    ("failureRate", toJson b.failureRate), ("latencyMs", toJson b.latencyMs),
    ("failureKind", toJson b.failureKind), ("failureCode", toJson b.failureCode)]

instance : Json.Decode EndpointBehavior where
  decode :=
    let d : EndpointBehavior := {}
    Json.Fields.decode "EndpointBehavior" <|
      EndpointBehavior.mk <$> .orElse "failureRate" d.failureRate
        <*> .orElse "latencyMs" d.latencyMs <*> .orElse "failureKind" d.failureKind
        <*> .orElse "failureCode" d.failureCode

end EndpointBehavior

end Turnpike
