import Turnpike.Json.Printer
import Turnpike.Failure
import Turnpike.Sim.Seed

namespace Turnpike

structure SimConfig where
  calls : UInt64 := 100
  path : String := "/"
  idempotent : Bool := true
  concurrency : UInt64 := 1
  deriving DecidableEq

structure EndpointStats where
  invocations : Nat := 0
  successes : Nat := 0
  failures : Nat := 0
  deriving DecidableEq

inductive SimHook
  | start
  | route
  | startRequest
  | success
  | error
  deriving DecidableEq

structure SimEvent where
  hook : SimHook
  request : String
  endpoint : Option String
  failure : Option FailureKind
  deriving DecidableEq

structure SimSummary where
  service : String
  seed : SimSeed
  calls : Nat
  successes : Nat
  failures : Dict String Nat
  attempts : Nat
  endpoints : Dict String EndpointStats
  deriving DecidableEq

namespace SimConfig

def withConcurrency (c : SimConfig) (n : UInt64) : SimConfig :=
  { c with concurrency := if n = 0 then 1 else n }

instance : ToJson SimConfig where
  toJson c := .obj [
    ("calls", toJson c.calls), ("path", toJson c.path), ("idempotent", toJson c.idempotent),
    ("concurrency", toJson c.concurrency)]

instance : Json.Decode SimConfig where
  decode := Json.Fields.decode "SimConfig" <|
    SimConfig.mk <$> .required "calls" <*> .required "path" <*> .required "idempotent"
      <*> .one "concurrency" (fun d => UInt64.ofNat <$> d.asWord "usize" UInt64.size) none none

end SimConfig

namespace EndpointStats

instance : ToJson EndpointStats where
  toJson s := .obj [
    ("invocations", toJson s.invocations), ("successes", toJson s.successes),
    ("failures", toJson s.failures)]

instance : Json.Decode EndpointStats where
  decode := Json.Fields.decode "EndpointStats" <|
    EndpointStats.mk <$> .required "invocations" <*> .required "successes" <*> .required "failures"

def tally (s : EndpointStats) (succeeded : Bool) : EndpointStats :=
  { invocations := s.invocations + 1
    successes := s.successes + succeeded.toNat
    failures := s.failures + (!succeeded).toNat }

end EndpointStats

namespace SimHook

def name : SimHook → String
  | .start => "start"
  | .route => "route"
  | .startRequest => "startRequest"
  | .success => "success"
  | .error => "error"

def all : List SimHook := [.start, .route, .startRequest, .success, .error]

instance : ToJson SimHook := ⟨fun h => .str h.name⟩
instance : Json.Decode SimHook := ⟨Json.Variant.decode (all.map fun h => (h.name, .plain h))⟩

end SimHook

namespace SimEvent

instance : ToJson SimEvent where
  toJson e := .obj [
    ("hook", toJson e.hook), ("request", toJson e.request), ("endpoint", toJson e.endpoint),
    ("failure", toJson e.failure)]

instance : Json.Decode SimEvent where
  decode := Json.Fields.decode "SimEvent" <|
    SimEvent.mk <$> .required "hook" <*> .required "request" <*> .optional "endpoint"
      <*> .optional "failure"

end SimEvent

namespace SimSummary

def failed (s : SimSummary) : Nat := s.failures.values.foldr (· + ·) 0

instance : ToJson SimSummary where
  toJson s := .obj [
    ("service", toJson s.service), ("seed", toJson s.seed), ("calls", toJson s.calls),
    ("successes", toJson s.successes), ("failures", toJson s.failures),
    ("attempts", toJson s.attempts), ("endpoints", toJson s.endpoints)]

instance : Json.Decode SimSummary where
  decode := Json.Fields.decode "SimSummary" <|
    SimSummary.mk <$> .required "service" <*> .required "seed" <*> .required "calls"
      <*> .required "successes" <*> .required "failures" <*> .required "attempts"
      <*> .required "endpoints"

def render (s : SimSummary) : String := Json.pretty (toJson s)

end SimSummary

end Turnpike
