import Turnpike.Admission.Breaker
import Turnpike.Admission.Limiter
import Turnpike.Expiring
import Turnpike.Policy.Config
import Turnpike.Registry

/-!
Limiters and breakers by key. A key's state is made on first use, made anew when the version of
the policy changes, and dropped when the key lies idle. Breakers are handed out: whoever holds
one keeps it, so a bank keeps every breaker that it ever made and maps keys to their places.
-/

namespace Turnpike

structure Versioned (α : Type) where
  version : Nat
  value : α
  deriving DecidableEq

def Registry.choose {α : Type} (r : Registry α) (wanted : Option String) (fallback : α) : α :=
  (wanted.bind r.get?).getD fallback

structure LimiterBank where
  strategies : Registry LimiterStrategy
  fallback : LimiterStrategy
  keyed : Expiring (Versioned Limiter)

/--
The readings of the clock that a call takes: to find a limiter, to make one if there is none, and
to ask it.
-/
structure CallTimes where
  lookup : Nat
  creation : Nat
  decision : Nat

namespace LimiterBank

def builtin : Registry LimiterStrategy :=
  .ofList [("tokenBucket", .tokenBucket), ("fixedWindow", .fixedWindow)]

def ofConfig (config : KeyedConfig) (now : Nat) : Except RegistryError LimiterBank := do
  let fallback ← builtin.require config.strategy
  return {
    strategies := builtin
    fallback
    keyed := {
      cleanInterval := config.cleanInterval.toNat
      expireTime := config.expireTime.toNat
      lastSweep := now } }

def size (b : LimiterBank) : Nat := b.keyed.size

def isEmpty (b : LimiterBank) : Bool := b.keyed.isEmpty

def create (b : LimiterBank) (policy : RateLimitPolicy) (now : Nat) : Limiter :=
  (b.strategies.choose policy.strategy b.fallback).create policy now

def tryAcquireAt (b : LimiterBank) (times : CallTimes) (key : String) (policy : RateLimitPolicy)
    (version : Nat) : Bool × LimiterBank :=
  let (held, keyed) :=
    b.keyed.fetch times.lookup key (·.version == version)
      ⟨version, b.create policy times.creation⟩
  let (admitted, limiter) := held.value.tryAcquire times.decision
  (admitted, { b with keyed := keyed.set key { held with value := limiter } })

def tryAcquire (b : LimiterBank) (now : Nat) (key : String) (policy : RateLimitPolicy)
    (version : Nat) : Bool × LimiterBank :=
  b.tryAcquireAt ⟨now, now, now⟩ key policy version

def rejection (key : String) : Rejection := ⟨.rateLimited, s!"rate limit exceeded for {key}"⟩

def sweep (b : LimiterBank) (now : Nat) : Nat × LimiterBank :=
  (b.keyed.sweep now).map id fun keyed => { b with keyed }

end LimiterBank

abbrev BreakerId := Nat

structure BreakerBank where
  strategies : Registry BreakerStrategy
  fallback : BreakerStrategy
  keyed : Expiring (Versioned BreakerId)
  breakers : Array Breaker := #[]

namespace BreakerBank

def builtin : Registry BreakerStrategy := .ofList [("count", .count)]

def ofConfig (config : KeyedConfig) (now : Nat) : Except RegistryError BreakerBank := do
  let fallback ← builtin.require config.strategy
  return {
    strategies := builtin
    fallback
    keyed := {
      cleanInterval := config.cleanInterval.toNat
      expireTime := config.expireTime.toNat
      lastSweep := now } }

def size (b : BreakerBank) : Nat := b.keyed.size

def isEmpty (b : BreakerBank) : Bool := b.keyed.isEmpty

def create (b : BreakerBank) (policy : BreakerPolicy) : Breaker :=
  (b.strategies.choose policy.strategy b.fallback).create policy

def breaker (b : BreakerBank) (now : Nat) (key : String) (policy : BreakerPolicy)
    (version : Nat) : BreakerId × BreakerBank :=
  let next := b.breakers.size
  let (held, keyed) := b.keyed.fetch now key (·.version == version) ⟨version, next⟩
  if held.value = next then
    (next, { b with keyed, breakers := b.breakers.push (b.create policy) })
  else (held.value, { b with keyed })

def tryAcquire (b : BreakerBank) (now : Nat) (id : BreakerId) : Bool × BreakerBank :=
  match b.breakers[id]? with
  | none => (false, b)
  | some breaker =>
    let (granted, breaker) := breaker.tryAcquire now
    (granted, { b with breakers := b.breakers.setIfInBounds id breaker })

def rejection (service : String) : Rejection :=
  ⟨.circuitOpen, s!"circuit open for every endpoint of {service}"⟩

def settle (b : BreakerBank) (now : Nat) (id : BreakerId) (report : Report) : BreakerBank :=
  { b with breakers := b.breakers.modify id (·.settle now report) }

def stateAt (b : BreakerBank) (now : Nat) (id : BreakerId) : CircuitState :=
  (b.breakers[id]?).elim .closed (·.stateAt now)

def sweep (b : BreakerBank) (now : Nat) : Nat × BreakerBank :=
  (b.keyed.sweep now).map id fun keyed => { b with keyed }

end BreakerBank

end Turnpike
