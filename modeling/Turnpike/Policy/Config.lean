import Turnpike.Policy.Rules

namespace Turnpike

structure KeyedConfig where
  strategy : String
  cleanInterval : UInt64 := 30000
  expireTime : UInt64 := 60000
  deriving DecidableEq

structure GovernanceConfig where
  invoker : String := "failfast"
  retrier : String := "exponential"
  rateLimiter : KeyedConfig := { strategy := "tokenBucket" }
  circuitBreaker : KeyedConfig := { strategy := "count" }
  routingMode : RoutingMode := .reuse
  deriving DecidableEq

namespace KeyedConfig

def toJson (c : KeyedConfig) : Json :=
  .obj [("type", Turnpike.toJson c.strategy), ("cleanInterval", Turnpike.toJson c.cleanInterval),
    ("expireTime", Turnpike.toJson c.expireTime)]

def decode (record : String) (default : KeyedConfig) : Json.Doc → Except Json.Problem KeyedConfig :=
  Json.Fields.decode record <|
    KeyedConfig.mk <$> .orElse "type" default.strategy
      <*> .orElse "cleanInterval" default.cleanInterval <*> .orElse "expireTime" default.expireTime

def validate (c : KeyedConfig) (field : String) : Except ConfigError Unit := do
  if c.strategy.isEmpty then throw (.empty s!"{field}.type")
  if c.cleanInterval = 0 then throw (.zero s!"{field}.cleanInterval")
  if c.expireTime = 0 then throw (.zero s!"{field}.expireTime")

theorem validate_eq_ok_iff {c : KeyedConfig} {field : String} : c.validate field = .ok () ↔
    c.strategy.isEmpty = false ∧ c.cleanInterval ≠ 0 ∧ c.expireTime ≠ 0 := by
  unfold validate
  rw [check_bind_eq_ok_iff, check_bind_eq_ok_iff, check_eq_ok_iff, Bool.not_eq_true]

end KeyedConfig

namespace GovernanceConfig

def validate (c : GovernanceConfig) : Except ConfigError Unit := do
  if c.invoker.isEmpty then throw (.empty "invoker")
  if c.retrier.isEmpty then throw (.empty "retry.type")
  c.rateLimiter.validate "rateLimiter"
  c.circuitBreaker.validate "circuitBreaker"

instance : ToJson GovernanceConfig where
  toJson c := .obj [
    ("invoker", toJson c.invoker),
    ("retry", .obj [("type", toJson c.retrier)]),
    ("rateLimiter", c.rateLimiter.toJson),
    ("circuitBreaker", c.circuitBreaker.toJson),
    ("routing", .obj [("mode", toJson c.routingMode)])]

def field {α : Type} (name : String) (item : Json.Doc → Except Json.Problem α) (default : α) :
    Json.Fields α :=
  .one name item (some default) (some default)

instance : Json.Decode GovernanceConfig where
  decode :=
    let d : GovernanceConfig := {}
    Json.Fields.decode "GovernanceConfig" <|
      GovernanceConfig.mk <$> .orElse "invoker" d.invoker
        <*> field "retry" (Json.Fields.decode "RetryConfig" (.orElse "type" d.retrier)) d.retrier
        <*> field "rateLimiter" (KeyedConfig.decode "RateLimiterConfig" d.rateLimiter) d.rateLimiter
        <*> field "circuitBreaker" (KeyedConfig.decode "CircuitBreakerConfig" d.circuitBreaker)
          d.circuitBreaker
        <*> field "routing" (Json.Fields.decode "RoutingConfig" (.orElse "mode" d.routingMode))
          d.routingMode

def ofText (text : String) : Except (Json.LoadError ConfigError) GovernanceConfig :=
  Json.loadText GovernanceConfig (fun c => c.validate.map fun _ => c) text

end GovernanceConfig

end Turnpike
