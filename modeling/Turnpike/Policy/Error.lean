namespace Turnpike

inductive PolicyFault
  | unnamedService
  | noAttempts
  | shrinkingBackoff
  | intervalAboveCap
  | thresholdOutOfRange
  | emptyWindow
  | noTrials
  | noTimeWindow
  deriving DecidableEq

inductive PolicyError
  | invalid (service : String) (fault : PolicyFault)
  | stale (current offered : Nat)
  deriving DecidableEq

def PolicyFault.reason : PolicyFault → String
  | .unnamedService => "service name must not be empty"
  | .noAttempts => "retry maxAttempts must be at least 1"
  | .shrinkingBackoff => "retry multiplier must be >= 1.0"
  | .intervalAboveCap => "retry intervalMs exceeds maxIntervalMs"
  | .thresholdOutOfRange => "circuit breaker failureRateThreshold must be within 0-100"
  | .emptyWindow => "circuit breaker slidingWindowSize must be positive"
  | .noTrials => "circuit breaker permittedCallsInHalfOpen must be positive"
  | .noTimeWindow => "rate limit windowMs must be positive"

def PolicyError.message : PolicyError → String
  | .invalid service fault => s!"Invalid policy for {service}: {fault.reason}"
  | .stale current offered =>
    s!"Stale policy snapshot: offered version {offered}, current {current}"

inductive ConfigError
  | empty (field : String)
  | zero (field : String)
  deriving DecidableEq

def ConfigError.message : ConfigError → String
  | .empty field => s!"Invalid config field {field}: must not be empty"
  | .zero field => s!"Invalid config field {field}: must be positive"

section

variable {ε : Type} {c : Prop} [Decidable c] {e : ε}

theorem check_eq_ok_iff : (if c then throw e else pure () : Except ε Unit) = .ok () ↔ ¬ c := by
  split
  · exact ⟨nofun, fun h => absurd ‹_› h⟩
  · exact ⟨fun _ => ‹_›, fun _ => rfl⟩

theorem check_bind_eq_ok_iff {next : Except ε Unit} :
    (if c then throw e >>= fun _ : Unit => next else next) = .ok () ↔ ¬ c ∧ next = .ok () := by
  split
  · exact ⟨nofun, fun h => absurd ‹_› h.1⟩
  · exact ⟨fun h => ⟨‹_›, h⟩, And.right⟩

end

end Turnpike
