import Turnpike.Proofs.BreakerCycle
import Turnpike.Proofs.ExactDoubles

/-!
When a breaker opens. Its window holds the latest outcomes, as many as fit, and its counter the
failures among them. So once failures have filled the window, the failure rate is exactly 100, which
no threshold exceeds, and the breaker opens unless its window is too small for the calls it wants.
-/

namespace Turnpike

namespace Breaker

theorem trim_eq (size : Nat) (outcomes : List Bool) :
    trim size outcomes (outcomes.count true) =
      (outcomes.drop (outcomes.length - size),
        (outcomes.drop (outcomes.length - size)).count true) := by
  induction outcomes with
  | nil => simp [trim]
  | cons failed rest ih =>
    unfold trim
    split
    · have hfits : (failed :: rest).length - size = 0 := by
        simp only [List.length_cons]
        omega
      rw [hfits, List.drop_zero]
    · have hcount : (failed :: rest).count true - failed.toNat = rest.count true := by
        cases failed <;> simp
      have hlength : (failed :: rest).length - size = rest.length - size + 1 := by
        simp only [List.length_cons]
        omega
      rw [hcount, ih, hlength, List.drop_succ_cons]

structure Counted (b : Breaker) : Prop where
  failures_eq : b.failures = b.window.count true
  length_le : b.window.length ≤ b.policy.slidingWindowSize.toNat

variable {b b' : Breaker} {failed : Bool} {now n : Nat}

theorem Counted.record_eq (h : b.Counted) (failed : Bool) : b.record failed =
    { b with
      window := (b.window ++ [failed]).drop
        (b.window.length + 1 - b.policy.slidingWindowSize.toNat)
      failures := ((b.window ++ [failed]).drop
        (b.window.length + 1 - b.policy.slidingWindowSize.toNat)).count true } := by
  have hcount : b.failures + failed.toNat = (b.window ++ [failed]).count true := by
    cases failed <;> simp [h.failures_eq]
  unfold record
  rw [hcount, trim_eq, List.length_append, List.length_singleton]

theorem Counted.record (h : b.Counted) (failed : Bool) : (b.record failed).Counted := by
  rw [h.record_eq]
  refine ⟨rfl, ?_⟩
  simp only [List.length_drop, List.length_append, List.length_singleton]
  omega

theorem Counted.responds {c : Call} {a : c.Answer} (h : b.Counted) (hr : Responds b now c a b') :
    b'.Counted := by
  cases hr with
  | succeeded | failed => exact h.record _
  | tripped => exact ⟨(h.record true).failures_eq, (h.record true).length_le⟩
  | closed => exact ⟨rfl, Nat.zero_le _⟩
  | admitted | refused | granted | exhausted | passed | reopened | released | ignored | seen =>
    exact ⟨h.failures_eq, h.length_le⟩

theorem counted_after (policy : BreakerPolicy) (calls : List (Nat × Call)) :
    ((BreakerStrategy.count.create policy).after calls).Counted ∧
      ((BreakerStrategy.count.create policy).after calls).policy = policy := by
  induction calls using List.reverseRecOn with
  | nil => exact ⟨⟨rfl, Nat.zero_le _⟩, rfl⟩
  | append_singleton calls x ih =>
    obtain ⟨now, c⟩ := x
    rw [after_concat]
    have hr := responds_answer ((BreakerStrategy.count.create policy).after calls) now c
    exact ⟨ih.1.responds hr, hr.policy_eq.trans ih.2⟩

def Failing (b : Breaker) (n : Nat) : Prop := List.replicate n true <:+ b.window

theorem Failing.record (h : b.Failing n) (hb : b.Counted)
    (hn : n < b.policy.slidingWindowSize.toNat) : (b.record true).Failing (n + 1) := by
  have hlength : n ≤ b.window.length := by simpa using h.length_le
  have hlatest : List.replicate (n + 1) true <:+ b.window ++ [true] := by
    obtain ⟨earlier, hwindow⟩ := h
    exact ⟨earlier, by rw [List.replicate_succ', ← List.append_assoc, hwindow]⟩
  unfold Failing
  rw [hb.record_eq]
  apply List.suffix_of_suffix_length_le hlatest (List.drop_suffix ..)
  simp only [List.length_replicate, List.length_drop, List.length_append, List.length_singleton]
  omega

theorem failureRate_of_full (hb : b.Counted) (h : b.Failing n) (hn : 0 < n)
    (hfull : b.policy.slidingWindowSize.toNat ≤ n) :
    b.window.length = n ∧ b.failureRate = 100.0 := by
  have hwindow : List.replicate n true = b.window :=
    h.eq_of_length_le (by simpa using Nat.le_trans hb.length_le hfull)
  have hlength : b.window.length = n := by rw [← hwindow, List.length_replicate]
  have hfailures : b.failures = n := by rw [hb.failures_eq, ← hwindow, List.count_replicate_self]
  have hempty : b.window.isEmpty = false :=
    List.isEmpty_eq_false_iff.2 (List.ne_nil_of_length_pos (hlength ▸ hn))
  have hlt : n < 2 ^ 32 :=
    Nat.lt_of_le_of_lt (hlength ▸ hb.length_le) b.policy.slidingWindowSize.toNat_lt
  have htoNat : (UInt64.ofNat n).toNat = n := Nat.mod_eq_of_lt (by omega)
  have hhundred : (100.0 : Float) = (100 : UInt64).toFloat := by decide
  refine ⟨hlength, ?_⟩
  unfold failureRate
  rw [hempty, hfailures, hlength, if_neg Bool.false_ne_true, hhundred]
  apply Binary64.mul_div_cancel (by decide) (htoNat.symm ▸ hn)
  calc
    (UInt64.ofNat n).toNat * 100 = n * 100 := congrArg (· * 100) htoNat
    _ < 2 ^ 53 := by omega

theorem trips_of_full (hb : b.Counted) (h : b.Failing n) (hn : 0 < n)
    (hfull : b.policy.slidingWindowSize.toNat ≤ n)
    (hthreshold : b.policy.failureRateThreshold ≤ 100.0)
    (hminimum : b.policy.minimumCalls ≤ b.policy.slidingWindowSize) : b.trips = true := by
  obtain ⟨hlength, hrate⟩ := failureRate_of_full hb h hn hfull
  have hle : b.policy.minimumCalls.toNat ≤ b.policy.slidingWindowSize.toNat := hminimum
  unfold trips
  rw [hlength, hrate]
  simp only [Bool.and_eq_true, decide_eq_true_eq]
  exact ⟨by omega, hthreshold⟩

theorem not_trips_of_small (hb : b.Counted)
    (h : b.policy.slidingWindowSize < b.policy.minimumCalls) : b.trips = false := by
  have hlt : b.policy.slidingWindowSize.toNat < b.policy.minimumCalls.toNat := h
  have hle := hb.length_le
  unfold trips
  rw [Bool.and_eq_false_iff]
  left
  simp only [decide_eq_false_iff_not]
  omega

def errors (readings : List Nat) : List (Nat × Call) :=
  readings.map fun now => (now, .settle .error)

theorem after_errors_of_opened (h : b.state = .opened) (readings : List Nat) :
    b.after (errors readings) = b := by
  induction readings with
  | nil => rfl
  | cons now readings ih =>
    have hsettle : (b.answer now (.settle .error)).2 = b := settle_of_opened h now .error
    change (b.answer now (.settle .error)).2.after (errors readings) = b
    rw [hsettle, ih]

theorem settle_error_of_closed (h : b.state = .closed) (now : Nat) :
    (b.answer now (.settle .error)).2 =
      if (b.record true).trips then (b.record true).opened now else b.record true := by
  simp [answer, settle, onError, h]

theorem opened_of_errors (hs : b.state = .closed) (hb : b.Counted) (h : b.Failing n)
    (hn : n < b.policy.slidingWindowSize.toNat)
    (hthreshold : b.policy.failureRateThreshold ≤ 100.0)
    (hminimum : b.policy.minimumCalls ≤ b.policy.slidingWindowSize) (readings : List Nat)
    (hle : b.policy.slidingWindowSize.toNat ≤ n + readings.length) :
    (b.after (errors readings)).state = .opened := by
  induction readings generalizing b n with
  | nil => exact absurd hle (Nat.not_le_of_lt hn)
  | cons now readings ih =>
    change ((b.answer now (.settle .error)).2.after (errors readings)).state = .opened
    have hb' := hb.record true
    have h' := h.record hb hn
    rw [settle_error_of_closed hs]
    split
    · rw [after_errors_of_opened rfl]
      rfl
    · rename_i htrips
      have hn' : n + 1 < b.policy.slidingWindowSize.toNat := Nat.lt_of_not_le fun hfull =>
        htrips (trips_of_full hb' h' (Nat.succ_pos n) hfull hthreshold hminimum)
      rw [List.length_cons] at hle
      refine ih hs hb' h' hn' hthreshold hminimum ?_
      change b.policy.slidingWindowSize.toNat ≤ _
      omega

theorem Responds.state_of_small {c : Call} {a : c.Answer} (hr : Responds b now c a b')
    (hs : b.state = .closed) (hb : b.Counted)
    (h : b.policy.slidingWindowSize < b.policy.minimumCalls) : b'.state = .closed := by
  have htrips : (b.record true).trips = false := not_trips_of_small (hb.record true) h
  cases hr with
  | admitted | succeeded | failed | ignored | seen => exact hs
  | closed => rfl
  | tripped _ ht => exact absurd (htrips.symm.trans ht) Bool.false_ne_true
  | refused hs' | passed hs' | reopened hs' | released hs' => simp [hs] at hs'
  | granted ht | exhausted ht => simp [OnTrial, hs] at ht

theorem closed_of_small {policy : BreakerPolicy}
    (h : policy.slidingWindowSize < policy.minimumCalls) (calls : List (Nat × Call)) :
    ((BreakerStrategy.count.create policy).after calls).state = .closed := by
  induction calls using List.reverseRecOn with
  | nil => rfl
  | append_singleton calls x ih =>
    obtain ⟨now, c⟩ := x
    obtain ⟨hb, hpolicy⟩ := counted_after policy calls
    rw [after_concat]
    exact (responds_answer _ now c).state_of_small ih hb (hpolicy.symm ▸ h)

/--
An accepted policy makes breakers that errors alone will open, as many as fit the window, or
breakers that never open, for want of calls in it.
-/
theorem opens_iff_window_holds_minimum {policy : BreakerPolicy} {service : String}
    (hvalid : policy.validate service = .ok ()) :
    (policy.minimumCalls ≤ policy.slidingWindowSize →
      ∀ (calls : List (Nat × Call)) (readings : List Nat),
        ((BreakerStrategy.count.create policy).after calls).state = .closed →
        max policy.slidingWindowSize.toNat policy.minimumCalls.toNat ≤ readings.length →
        ((BreakerStrategy.count.create policy).after (calls ++ errors readings)).state =
          .opened) ∧
    (policy.slidingWindowSize < policy.minimumCalls → ∀ calls : List (Nat × Call),
      ((BreakerStrategy.count.create policy).after calls).state = .closed) := by
  obtain ⟨⟨-, hthreshold⟩, hsize, -⟩ := BreakerPolicy.validate_eq_ok_iff.1 hvalid
  have hpos : 0 < policy.slidingWindowSize.toNat :=
    Nat.pos_of_ne_zero fun h => hsize (UInt32.toNat_inj.1 h)
  refine ⟨fun hminimum calls readings hs hle => ?_, closed_of_small⟩
  obtain ⟨hb, hpolicy⟩ := counted_after policy calls
  have hnone : Failing ((BreakerStrategy.count.create policy).after calls) 0 :=
    List.nil_suffix
  rw [after_append]
  generalize (BreakerStrategy.count.create policy).after calls = b at *
  subst hpolicy
  exact opened_of_errors hs hb hnone hpos hthreshold hminimum readings
    (by rw [Nat.zero_add]; exact Nat.le_trans (Nat.le_max_left ..) hle)

theorem opened_by_two_errors :
    let policy : BreakerPolicy := { slidingWindowSize := 2, minimumCalls := 2 }
    policy.validate "s" = .ok () ∧
      ((BreakerStrategy.count.create policy).after
        ([(0, .settle .success)] ++ errors [0, 0])).state = .opened :=
  ⟨by decide, (@opens_iff_window_holds_minimum _ "s" (by decide)).1 (by decide)
    [(0, .settle .success)] [0, 0] (by decide) (by decide)⟩

/-- A window of two never holds the three calls that are wanted. -/
theorem closed_after_three_errors :
    let policy : BreakerPolicy := { slidingWindowSize := 2, minimumCalls := 3 }
    policy.validate "s" = .ok () ∧ (BreakerStrategy.count.create policy).state = .closed ∧
      max policy.slidingWindowSize.toNat policy.minimumCalls.toNat ≤ [0, 0, 0].length ∧
      ((BreakerStrategy.count.create policy).after (errors [0, 0, 0])).state = .closed := by
  decide

end Breaker

end Turnpike
