import Turnpike.Failure
import Turnpike.Policy.Error

namespace Turnpike

structure RetryPolicy where
  /-- Attempts in all, the first one included. -/
  maxAttempts : UInt32 := 3
  intervalMs : UInt64 := 100
  maxIntervalMs : UInt64 := 2000
  multiplier : Float := 2.0
  retryableCodes : SortedSet String := .empty
  retryableKinds : SortedSet FailureKind :=
    .ofList [.dispatch .connect, .dispatch .timeout, .dispatch .transport]
  idempotentOnly : Bool := false
  deriving DecidableEq

structure BreakerPolicy where
  strategy : Option String := none
  failureRateThreshold : Float := 50.0
  slidingWindowSize : UInt32 := 100
  minimumCalls : UInt32 := 10
  waitInOpenMs : UInt64 := 5000
  permittedCallsInHalfOpen : UInt32 := 3
  deriving DecidableEq

structure RateLimitPolicy where
  strategy : Option String := none
  permits : UInt64 := 100
  windowMs : UInt64 := 1000
  deriving DecidableEq

inductive RoutingMode
  | reuse
  | reroute
  deriving DecidableEq

/-- The preferred unit, cell and lane. With `fallback`, one that nothing matches is dropped. -/
structure RoutingRules where
  unit : Option String := none
  cell : Option String := none
  lane : Option String := none
  fallback : Bool := true
  mode : Option RoutingMode := none
  deriving DecidableEq

namespace RetryPolicy

/--
The delay before the given retry, counted from one: exponential, capped, and cut to whole
milliseconds. There is none once the attempts are spent.
-/
def delay? (p : RetryPolicy) (retry : Nat) : Option Nat :=
  if retry = 0 ∨ p.maxAttempts.toNat ≤ retry then none
  else
    let growth := Float.pow p.multiplier (UInt64.ofNat (retry - 1)).toFloat
    let delay := p.intervalMs.toFloat * growth
    let cap := p.maxIntervalMs.toFloat
    let capped := if delay < cap then delay else cap
    some (if 0 < capped then capped.toUInt64.toNat else 0)

/-- Whether another attempt may follow a failure. A new attempt would find the same readiness
and the same providers, so those failures end the matter. -/
def isRetryable (p : RetryPolicy) (f : Failure) (idempotent : Bool) : Bool :=
  match f.kind with
  | .unready | .noProvider => false
  | kind =>
    if p.idempotentOnly && !idempotent then false
    else f.code.any p.retryableCodes.contains || p.retryableKinds.contains kind

def validate (p : RetryPolicy) (service : String) : Except PolicyError Unit := do
  if p.maxAttempts = 0 then throw (.invalid service .noAttempts)
  if !p.multiplier.isFinite || p.multiplier < 1.0 then throw (.invalid service .shrinkingBackoff)
  if p.maxIntervalMs < p.intervalMs then throw (.invalid service .intervalAboveCap)

instance : ToJson RetryPolicy where
  toJson p := .obj [
    ("maxAttempts", toJson p.maxAttempts), ("intervalMs", toJson p.intervalMs),
    ("maxIntervalMs", toJson p.maxIntervalMs), ("multiplier", toJson p.multiplier),
    ("retryableCodes", toJson p.retryableCodes.toList),
    ("retryableKinds", toJson p.retryableKinds.toList),
    ("idempotentOnly", toJson p.idempotentOnly)]

instance : Json.Decode (SortedSet String) := ⟨fun d => SortedSet.ofList <$> Json.decode d⟩
instance : Json.Decode (SortedSet FailureKind) := ⟨fun d => SortedSet.ofList <$> Json.decode d⟩

instance : Json.Decode RetryPolicy where
  decode :=
    let d : RetryPolicy := {}
    Json.Fields.decode "RetryPolicy" <|
      RetryPolicy.mk <$> .orElse "maxAttempts" d.maxAttempts <*> .orElse "intervalMs" d.intervalMs
        <*> .orElse "maxIntervalMs" d.maxIntervalMs <*> .orElse "multiplier" d.multiplier
        <*> .orElse "retryableCodes" d.retryableCodes <*> .orElse "retryableKinds" d.retryableKinds
        <*> .orElse "idempotentOnly" d.idempotentOnly

end RetryPolicy

namespace BreakerPolicy

def validate (p : BreakerPolicy) (service : String) : Except PolicyError Unit := do
  if !(0.0 ≤ p.failureRateThreshold && p.failureRateThreshold ≤ 100.0) then
    throw (.invalid service .thresholdOutOfRange)
  if p.slidingWindowSize = 0 then throw (.invalid service .emptyWindow)
  if p.permittedCallsInHalfOpen = 0 then throw (.invalid service .noTrials)

theorem validate_eq_ok_iff {p : BreakerPolicy} {service : String} : p.validate service = .ok () ↔
    (0.0 ≤ p.failureRateThreshold ∧ p.failureRateThreshold ≤ 100.0) ∧
      p.slidingWindowSize ≠ 0 ∧ p.permittedCallsInHalfOpen ≠ 0 := by
  unfold validate
  rw [check_bind_eq_ok_iff, check_bind_eq_ok_iff, check_eq_ok_iff]
  simp

instance : ToJson BreakerPolicy where
  toJson p := .obj [
    ("type", toJson p.strategy), ("failureRateThreshold", toJson p.failureRateThreshold),
    ("slidingWindowSize", toJson p.slidingWindowSize), ("minimumCalls", toJson p.minimumCalls),
    ("waitInOpenMs", toJson p.waitInOpenMs),
    ("permittedCallsInHalfOpen", toJson p.permittedCallsInHalfOpen)]

instance : Json.Decode BreakerPolicy where
  decode :=
    let d : BreakerPolicy := {}
    Json.Fields.decode "CircuitBreakerPolicy" <|
      BreakerPolicy.mk <$> .orElse "type" d.strategy
        <*> .orElse "failureRateThreshold" d.failureRateThreshold
        <*> .orElse "slidingWindowSize" d.slidingWindowSize
        <*> .orElse "minimumCalls" d.minimumCalls <*> .orElse "waitInOpenMs" d.waitInOpenMs
        <*> .orElse "permittedCallsInHalfOpen" d.permittedCallsInHalfOpen

end BreakerPolicy

namespace RateLimitPolicy

def validate (p : RateLimitPolicy) (service : String) : Except PolicyError Unit := do
  if p.windowMs = 0 then throw (.invalid service .noTimeWindow)

theorem validate_eq_ok_iff {p : RateLimitPolicy} {service : String} :
    p.validate service = .ok () ↔ p.windowMs ≠ 0 :=
  check_eq_ok_iff

instance : ToJson RateLimitPolicy where
  toJson p := .obj [
    ("type", toJson p.strategy), ("permits", toJson p.permits), ("windowMs", toJson p.windowMs)]

instance : Json.Decode RateLimitPolicy where
  decode :=
    let d : RateLimitPolicy := {}
    Json.Fields.decode "RateLimitPolicy" <|
      RateLimitPolicy.mk <$> .orElse "type" d.strategy <*> .orElse "permits" d.permits
        <*> .orElse "windowMs" d.windowMs

end RateLimitPolicy

namespace RoutingMode

def name : RoutingMode → String
  | .reuse => "reuse"
  | .reroute => "reroute"

instance : ToJson RoutingMode := ⟨fun m => .str m.name⟩
instance : Json.Decode RoutingMode :=
  ⟨Json.Variant.decode ([reuse, reroute].map fun m => (m.name, .plain m))⟩

end RoutingMode

namespace RoutingRules

def isEmpty (r : RoutingRules) : Bool := r.unit.isNone && r.cell.isNone && r.lane.isNone

instance : ToJson RoutingRules where
  toJson r := .obj [
    ("unit", toJson r.unit), ("cell", toJson r.cell), ("lane", toJson r.lane),
    ("fallback", toJson r.fallback), ("mode", toJson r.mode)]

instance : Json.Decode RoutingRules where
  decode := Json.Fields.decode "RoutingMetadata" <|
    RoutingRules.mk <$> .orElse "unit" none <*> .orElse "cell" none <*> .orElse "lane" none
      <*> .orElse "fallback" true <*> .orElse "mode" none

end RoutingRules

end Turnpike
