import Turnpike.Policy.Rules

namespace Turnpike

structure TokenBucket where
  policy : RateLimitPolicy
  tokens : Float
  lastRefill : Nat
  deriving DecidableEq

structure FixedWindow where
  policy : RateLimitPolicy
  start : Nat
  used : Nat := 0
  deriving DecidableEq

inductive Limiter
  | tokenBucket (bucket : TokenBucket)
  | fixedWindow (window : FixedWindow)
  deriving DecidableEq

/-- The length of a window; an empty one counts as a millisecond. -/
def RateLimitPolicy.length (p : RateLimitPolicy) : Nat := max p.windowMs.toNat 1

namespace TokenBucket

def create (policy : RateLimitPolicy) (now : Nat) : TokenBucket :=
  ⟨policy, policy.permits.toFloat, now⟩

def credit (b : TokenBucket) (now : Nat) : Nat := now - b.lastRefill

def refill (b : TokenBucket) (now : Nat) : TokenBucket :=
  let capacity := b.policy.permits.toFloat
  let filled :=
    b.tokens +
      (UInt64.ofNat (b.credit now)).toFloat * capacity / (UInt64.ofNat b.policy.length).toFloat
  { b with
    tokens := if filled < capacity then filled else capacity
    lastRefill := max b.lastRefill now }

def tryAcquire (b : TokenBucket) (now : Nat) : Bool × TokenBucket :=
  let b := b.refill now
  if 1.0 ≤ b.tokens then (true, { b with tokens := b.tokens - 1.0 }) else (false, b)

end TokenBucket

namespace FixedWindow

def create (policy : RateLimitPolicy) (now : Nat) : FixedWindow := { policy, start := now }

def moveTo (w : FixedWindow) (now : Nat) : FixedWindow :=
  let elapsed := now - w.start
  if w.policy.length ≤ elapsed then
    { w with start := now - elapsed % w.policy.length, used := 0 }
  else w

def tryAcquire (w : FixedWindow) (now : Nat) : Bool × FixedWindow :=
  let w := w.moveTo now
  if w.used < w.policy.permits.toNat then (true, { w with used := w.used + 1 }) else (false, w)

end FixedWindow

namespace Limiter

def policy : Limiter → RateLimitPolicy
  | .tokenBucket b => b.policy
  | .fixedWindow w => w.policy

def tryAcquire (l : Limiter) (now : Nat) : Bool × Limiter :=
  match l with
  | .tokenBucket b => (b.tryAcquire now).map id .tokenBucket
  | .fixedWindow w => (w.tryAcquire now).map id .fixedWindow

@[simp] theorem policy_tryAcquire (l : Limiter) (now : Nat) :
    (l.tryAcquire now).2.policy = l.policy := by
  cases l with
  | tokenBucket b =>
    simp only [tryAcquire, TokenBucket.tryAcquire, Prod.map]
    split <;> rfl
  | fixedWindow w =>
    simp only [tryAcquire, FixedWindow.tryAcquire, FixedWindow.moveTo, Prod.map]
    split <;> split <;> rfl

end Limiter

inductive LimiterStrategy
  | tokenBucket
  | fixedWindow
  deriving DecidableEq

def LimiterStrategy.create : LimiterStrategy → RateLimitPolicy → Nat → Limiter
  | .tokenBucket, policy, now => .tokenBucket (.create policy now)
  | .fixedWindow, policy, now => .fixedWindow (.create policy now)

end Turnpike
