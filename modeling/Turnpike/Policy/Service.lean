import Turnpike.Policy.Rules

namespace Turnpike

structure ServicePolicy where
  service : String
  version : UInt64 := 0
  invoker : Option String := none
  retry : Option RetryPolicy := none
  circuitBreaker : Option BreakerPolicy := none
  rateLimit : Option RateLimitPolicy := none
  routing : RoutingRules := {}
  deriving DecidableEq

namespace ServicePolicy

def validate (p : ServicePolicy) : Except PolicyError Unit := do
  if p.service.isEmpty then throw (.invalid "" .unnamedService)
  if let some retry := p.retry then retry.validate p.service
  if let some breaker := p.circuitBreaker then breaker.validate p.service
  if let some limit := p.rateLimit then limit.validate p.service

instance : ToJson ServicePolicy where
  toJson p := .obj [
    ("service", toJson p.service), ("version", toJson p.version), ("invoker", toJson p.invoker),
    ("retry", toJson p.retry), ("circuitBreaker", toJson p.circuitBreaker),
    ("rateLimit", toJson p.rateLimit), ("routing", toJson p.routing)]

instance : Json.Decode ServicePolicy where
  decode := Json.Fields.decode "ClusterPolicy" <|
    ServicePolicy.mk <$> .required "service" <*> .orElse "version" 0 <*> .orElse "invoker" none
      <*> .orElse "retry" none <*> .orElse "circuitBreaker" none <*> .orElse "rateLimit" none
      <*> .orElse "routing" {}

end ServicePolicy

end Turnpike
