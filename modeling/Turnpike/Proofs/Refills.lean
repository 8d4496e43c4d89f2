import Turnpike.Proofs.Permits

/-!
The time that a bucket credits. A call credits the stretch from the latest reading so far up to its
own, and nothing if its own lies before that. So a clock that goes back and forth credits each
moment once, and it is for these times that tokens are earned.
-/

namespace Turnpike

namespace TokenBucket

def after (b : TokenBucket) (readings : List Nat) : TokenBucket :=
  readings.foldl (fun b now => (b.tryAcquire now).2) b

def balances (b : TokenBucket) : List Nat → List (Bool × Float)
  | [] => []
  | now :: later =>
    ((b.tryAcquire now).1, (b.tryAcquire now).2.tokens) :: (b.tryAcquire now).2.balances later

/-- The stretches of time that these calls credit, each from where it begins and how long it is. -/
def stretches (b : TokenBucket) : List Nat → List (Nat × Nat)
  | [] => []
  | now :: later => (b.lastRefill, b.credit now) :: (b.tryAcquire now).2.stretches later

def earn (policy : RateLimitPolicy) (tokens : Float) (elapsed : Nat) : Float :=
  let capacity := policy.permits.toFloat
  let filled :=
    tokens + (UInt64.ofNat elapsed).toFloat * capacity / (UInt64.ofNat policy.length).toFloat
  if filled < capacity then filled else capacity

def spend (tokens : Float) : Bool × Float :=
  if 1.0 ≤ tokens then (true, tokens - 1.0) else (false, tokens)

/-- An account that earns for these times and spends after each of them. -/
def account (policy : RateLimitPolicy) (tokens : Float) : List Nat → List (Bool × Float)
  | [] => []
  | elapsed :: later =>
    spend (earn policy tokens elapsed) ::
      account policy (spend (earn policy tokens elapsed)).2 later

variable {b : TokenBucket} {now : Nat} {readings : List Nat}

theorem lastRefill_add_credit : b.lastRefill + b.credit now = max b.lastRefill now := by
  unfold credit
  omega

theorem lastRefill_after : (b.after readings).lastRefill = readings.foldl max b.lastRefill := by
  induction readings generalizing b with
  | nil => rfl
  | cons now later ih =>
    rw [List.foldl_cons, ← lastRefill_tryAcquire]
    exact ih

theorem lastRefill_add_sum (b : TokenBucket) (readings : List Nat) :
    b.lastRefill + ((b.stretches readings).map (·.2)).sum = (b.after readings).lastRefill := by
  induction readings generalizing b with
  | nil => rfl
  | cons now later ih =>
    have hlater := ih (b.tryAcquire now).2
    rw [lastRefill_tryAcquire, ← lastRefill_add_credit, Nat.add_assoc] at hlater
    exact hlater

theorem countP_stretches (t : Nat) :
    (b.stretches readings).countP (fun s => s.1 ≤ t ∧ t < s.1 + s.2) =
      if b.lastRefill ≤ t ∧ t < (b.after readings).lastRefill then 1 else 0 := by
  induction readings generalizing b with
  | nil =>
    have hnone : ¬ (b.lastRefill ≤ t ∧ t < b.lastRefill) := by omega
    exact (if_neg hnone).symm
  | cons now later ih =>
    have hsum := lastRefill_add_sum (b.tryAcquire now).2 later
    have hlater := ih (b := (b.tryAcquire now).2)
    -- The later stretches begin where this one ends.
    rw [lastRefill_tryAcquire, ← lastRefill_add_credit] at hsum hlater
    rw [stretches, List.countP_cons, hlater]
    change _ = if b.lastRefill ≤ t ∧ t < ((b.tryAcquire now).2.after later).lastRefill then 1 else 0
    simp only [decide_eq_true_eq]
    split <;> split <;> split <;> omega

theorem tokens_refill : (b.refill now).tokens = earn b.policy b.tokens (b.credit now) := rfl

theorem tryAcquire_eq_spend : ((b.tryAcquire now).1, (b.tryAcquire now).2.tokens) =
    spend (earn b.policy b.tokens (b.credit now)) := by
  rw [← tokens_refill]
  simp only [tryAcquire, spend]
  split <;> rfl

@[simp] theorem policy_tryAcquire : (b.tryAcquire now).2.policy = b.policy := by
  simp only [tryAcquire]
  split <;> rfl

theorem balances_eq : b.balances readings =
    account b.policy b.tokens ((b.stretches readings).map (·.2)) := by
  induction readings generalizing b with
  | nil => rfl
  | cons now later ih =>
    rw [balances, ih, policy_tryAcquire, stretches, List.map_cons, account, ← tryAcquire_eq_spend]

/--
After any calls the latest refill is at the latest reading, the creation included, and the credited
times add up to what lies in between. Each moment in between is credited by one call and every other
by none. These times are all that the tokens are earned for, from a full bucket on.
-/
theorem bucket_credits_time_once (policy : RateLimitPolicy) (created : Nat) (readings : List Nat) :
    let b := create policy created
    let latest := readings.foldl max created
    let credits := (b.stretches readings).map (·.2)
    (b.after readings).lastRefill = latest ∧
    credits.sum = latest - created ∧
    (∀ t, (b.stretches readings).countP (fun s => s.1 ≤ t ∧ t < s.1 + s.2) =
      if created ≤ t ∧ t < latest then 1 else 0) ∧
    b.balances readings = account policy policy.permits.toFloat credits := by
  intro b latest credits
  have hlatest : (b.after readings).lastRefill = latest := lastRefill_after
  refine ⟨hlatest, ?_, fun t => ?_, balances_eq⟩
  · have hsum : created + credits.sum = (b.after readings).lastRefill :=
      lastRefill_add_sum b readings
    rw [hlatest] at hsum
    exact Nat.eq_sub_of_add_eq' hsum
  · rw [← hlatest]
    exact countP_stretches t

end TokenBucket

end Turnpike
