import Mathlib.Data.List.DropRight
import Turnpike.Proofs.OrderedDoubles
import Turnpike.Proofs.Tripping

/-!
What a breaker judges. Its window holds the latest of the outcomes that were reported to it while it
was closed. They are judged at errors only, so a success that makes them enough leaves them
unjudged.
-/

namespace Turnpike

namespace Breaker

/-! ### Outcomes in a history -/

def Passage.outcome? (p : Passage) : Option Bool :=
  if p.before = .closed then
    match p.event with
    | ⟨.settle .success, _⟩ => some false
    | ⟨.settle .error, _⟩ => some true
    | _ => none
  else none

def Passage.outcomes (known : List Bool) (p : Passage) : List Bool :=
  if p.before ≠ .closed ∧ p.after = .closed then [] else known ++ p.outcome?.toList

def outcomes (past : List Passage) : List Bool := past.foldl Passage.outcomes []

theorem outcomes_concat (past : List Passage) (p : Passage) :
    outcomes (past ++ [p]) = p.outcomes (outcomes past) := by
  simp [outcomes]

/-! ### Rates -/

def rateOf (window : List Bool) : Float :=
  if window.isEmpty then 0.0
  else (UInt64.ofNat (window.count true)).toFloat * 100.0 / (UInt64.ofNat window.length).toFloat

variable {policy : BreakerPolicy} {b b' : Breaker} {known : List Bool} {failed : Bool} {now : Nat}

theorem Counted.failureRate_eq (h : b.Counted) : b.failureRate = rateOf b.window := by
  rw [failureRate, rateOf, h.failures_eq]

theorem Counted.trips_iff (h : b.Counted) : b.trips = true ↔
    max b.policy.minimumCalls.toNat 1 ≤ b.window.length ∧
      b.policy.failureRateThreshold ≤ rateOf b.window := by
  simp only [trips, Bool.and_eq_true, decide_eq_true_eq, h.failureRate_eq]

theorem toNat_ofNat_of_lt {n : Nat} (h : n < 2 ^ 32) : (UInt64.ofNat n).toNat = n :=
  Nat.mod_eq_of_lt (by omega)

theorem rateOf_le {w w' : List Bool} (hne : w ≠ []) (hcount : w'.count true ≤ w.count true)
    (hlength : w.length ≤ w'.length) (hlt : w'.length < 2 ^ 32) : rateOf w' ≤ rateOf w := by
  have hpos : 0 < w.length := List.length_pos_iff.2 hne
  have hne' : w' ≠ [] := List.ne_nil_of_length_pos (Nat.lt_of_lt_of_le hpos hlength)
  have hle : w.count true ≤ w.length := List.count_le_length
  have hnumber {n : Nat} (h : n ≤ w'.length) : (UInt64.ofNat n).toNat = n :=
    toNat_ofNat_of_lt (Nat.lt_of_le_of_lt h hlt)
  rw [rateOf, rateOf, List.isEmpty_eq_false_iff.2 hne, List.isEmpty_eq_false_iff.2 hne',
    if_neg Bool.false_ne_true, if_neg Bool.false_ne_true]
  apply Binary64.percentage_le
  all_goals
    simp only [hnumber (Nat.le_refl w'.length), hnumber hlength, hnumber (Nat.le_trans hle hlength),
      hnumber (Nat.le_trans hcount (Nat.le_trans hle hlength))]
    omega

theorem rateOf_unsigned {w : List Bool} (hlt : w.length < 2 ^ 32) :
    Binary64.Unsigned (rateOf w).toModel.unpack := by
  have hle : w.count true ≤ w.length := List.count_le_length
  unfold rateOf
  split
  · exact .zero
  · rename_i hne
    have hpos : 0 < w.length := by
      rw [List.isEmpty_iff] at hne
      exact List.length_pos_iff.2 hne
    apply (Binary64.roundsTo_percentage ..).unsigned
    all_goals
      simp only [toNat_ofNat_of_lt hlt, toNat_ofNat_of_lt (Nat.lt_of_le_of_lt hle hlt)]
      omega

theorem threshold_le_trans {threshold : Float} {w w' : List Bool} (hlt : w.length < 2 ^ 32)
    (hlt' : w'.length < 2 ^ 32) (h : threshold ≤ rateOf w') (hle : rateOf w' ≤ rateOf w) :
    threshold ≤ rateOf w :=
  Binary64.le_iff.2 ((rateOf_unsigned hlt').isLE_compare_trans (rateOf_unsigned hlt)
    (Binary64.le_iff.1 h) (Binary64.le_iff.1 hle))

/-! ### What a breaker judges -/

theorem rtake_concat_rtake (known : List Bool) (failed : Bool) (size : Nat) :
    (known.rtake size ++ [failed]).rtake size = (known ++ [failed]).rtake size := by
  cases size with
  | zero => simp
  | succ n =>
    rw [List.rtake_concat_succ, List.rtake_concat_succ]
    simp only [List.rtake, List.drop_drop, List.length_drop]
    congr 2
    omega

theorem length_rtake (known : List Bool) (size : Nat) :
    (known.rtake size).length = min known.length size := by
  rw [List.rtake, List.length_drop]
  omega

theorem rtake_min_length (known : List Bool) (size : Nat) :
    known.rtake (min known.length size) = known.rtake size := by
  rw [List.rtake, List.rtake]
  congr 1
  omega

theorem rtake_suffix (known : List Bool) (size : Nat) : known.rtake size <:+ known :=
  List.drop_suffix ..

theorem Counted.window_record (h : b.Counted) (failed : Bool) :
    (b.record failed).window = (b.window ++ [failed]).rtake b.policy.slidingWindowSize.toNat := by
  rw [h.record_eq, List.rtake, List.length_append, List.length_singleton]

theorem Counted.window_record_of_lt (h : b.Counted)
    (hlt : b.window.length < b.policy.slidingWindowSize.toNat) :
    (b.record failed).window = b.window ++ [failed] := by
  have hfits : (b.window ++ [failed]).length - b.policy.slidingWindowSize.toNat = 0 := by
    rw [List.length_append, List.length_singleton]
    omega
  rw [h.window_record, List.rtake, hfits, List.drop_zero]

theorem Counted.length_lt (h : b.Counted) : b.window.length < 2 ^ 32 :=
  Nat.lt_of_le_of_lt h.length_le b.policy.slidingWindowSize.toNat_lt

theorem Counted.length_record_le (h : b.Counted) (failed : Bool) :
    (b.record failed).window.length ≤ b.policy.slidingWindowSize.toNat :=
  (h.record failed).length_le

theorem Counted.trips_record_iff (h : b.Counted) (failed : Bool) :
    (b.record failed).trips = true ↔
      max b.policy.minimumCalls.toNat 1 ≤ (b.record failed).window.length ∧
        b.policy.failureRateThreshold ≤ rateOf (b.record failed).window :=
  (h.record failed).trips_iff

theorem Counted.trips_of_success (h : b.Counted)
    (hlength : max b.policy.minimumCalls.toNat 1 ≤ b.window.length)
    (htrips : (b.record false).trips = true) : b.trips = true := by
  obtain ⟨-, hthreshold⟩ := (h.trips_record_iff false).1 htrips
  have hlt := (h.record false).length_lt
  have hsize := h.length_le
  rw [h.window_record] at hthreshold hlt
  refine h.trips_iff.2
    ⟨hlength, threshold_le_trans h.length_lt hlt hthreshold (rateOf_le ?_ ?_ ?_ hlt)⟩
  · exact List.ne_nil_of_length_pos (Nat.lt_of_lt_of_le (by omega) hlength)
  · calc
      _ ≤ (b.window ++ [false]).count true := (rtake_suffix ..).sublist.count_le true
      _ = b.window.count true := by simp
  · rw [length_rtake, List.length_append, List.length_singleton]
    omega

/--
A closed breaker's window holds the latest outcomes. It has judged them if an error came when they
were enough.
-/
structure Judges (policy : BreakerPolicy) (b : Breaker) (known : List Bool) : Prop where
  policy_eq : b.policy = policy
  counted : b.Counted
  window_eq : b.window = known.rtake policy.slidingWindowSize.toNat
  judged : b.state = .closed → true ∈ known.drop (policy.minimumCalls.toNat - 1) →
    b.trips = false

theorem Judges.window_record (h : Judges policy b known) (failed : Bool) :
    (b.record failed).window = (known ++ [failed]).rtake policy.slidingWindowSize.toNat := by
  rw [h.counted.window_record, h.policy_eq, h.window_eq, rtake_concat_rtake]

theorem Judges.not_mem_of_trips (h : Judges policy b known) (hs : b.state = .closed)
    (htrips : b.trips = true) : true ∉ known.drop (policy.minimumCalls.toNat - 1) := fun herror =>
  Bool.false_ne_true ((h.judged hs herror).symm.trans htrips)

theorem Judges.judged_success (h : Judges policy b known) (hs : b.state = .closed)
    (herror : true ∈ (known ++ [false]).drop (policy.minimumCalls.toNat - 1)) :
    (b.record false).trips = false := by
  have herror' : true ∈ known.drop (policy.minimumCalls.toNat - 1) := by
    rw [List.drop_append, List.mem_append] at herror
    exact herror.resolve_right fun hmem => by simpa using List.mem_of_mem_drop hmem
  have hknown := List.length_pos_of_mem herror'
  rw [List.length_drop] at hknown
  rw [Bool.eq_false_iff]
  intro htrips
  obtain ⟨henough, -⟩ := (h.counted.trips_record_iff false).1 htrips
  have hsize := h.counted.length_record_le false
  refine h.not_mem_of_trips hs (h.counted.trips_of_success ?_ htrips) herror'
  rw [h.window_eq, length_rtake]
  rw [h.policy_eq] at henough hsize ⊢
  omega

theorem Judges.window_responds {c : Call} {a : c.Answer} (h : Judges policy b known)
    (hr : Responds b now c a b') :
    b'.window = (Passage.outcomes known ⟨now, ⟨c, a⟩, b.state, b'.state⟩).rtake
      policy.slidingWindowSize.toNat := by
  unfold Passage.outcomes Passage.outcome?
  cases hr with
  | succeeded hs | failed hs | tripped hs => simp [hs, h.window_record, opened]
  | closed hs => simp [hs, Breaker.closed]
  | admitted hs | refused hs | passed hs | reopened hs | released hs =>
    simp [hs, h.window_eq, opened]
  | granted ht | exhausted ht => rcases ht with hs | ⟨hs, -⟩ <;> simp [hs, h.window_eq]
  | ignored hs => rcases hs with hs | ⟨hs, rfl⟩ <;> simp [hs, h.window_eq]
  | seen => simp [h.window_eq]

theorem Judges.judged_responds {c : Call} {a : c.Answer} (h : Judges policy b known)
    (hr : Responds b now c a b') (hs' : b'.state = .closed)
    (herror : true ∈ (Passage.outcomes known ⟨now, ⟨c, a⟩, b.state, b'.state⟩).drop
      (policy.minimumCalls.toNat - 1)) : b'.trips = false := by
  unfold Passage.outcomes Passage.outcome? at herror
  cases hr with
  | succeeded hs => exact h.judged_success hs (by simpa [hs] using herror)
  | failed _ ht => exact ht
  | closed hs => simp [hs, Breaker.closed] at herror
  | ignored hs =>
    rcases hs with hs | ⟨-, rfl⟩
    · simp [hs] at hs'
    · exact h.judged hs' (by simpa [hs'] using herror)
  | admitted | seen => exact h.judged hs' (by simpa [hs'] using herror)
  | refused hs | passed hs | released hs => simp [hs] at hs'
  | granted | exhausted | tripped | reopened => simp [opened] at hs'

theorem judges_history (policy : BreakerPolicy) (calls : List (Nat × Call)) :
    Judges policy ((BreakerStrategy.count.create policy).after calls)
      (outcomes ((BreakerStrategy.count.create policy).history calls)) := by
  induction calls using List.reverseRecOn with
  | nil =>
    refine ⟨rfl, ⟨rfl, Nat.zero_le _⟩, (List.rtake_nil _).symm, fun _ herror => ?_⟩
    simp [outcomes, history] at herror
  | append_singleton calls x ih =>
    obtain ⟨now, c⟩ := x
    rw [after_concat, history_concat, outcomes_concat]
    have hr := responds_answer ((BreakerStrategy.count.create policy).after calls) now c
    exact ⟨hr.policy_eq.trans ih.policy_eq, ih.counted.responds hr, ih.window_responds hr,
      ih.judged_responds hr⟩

theorem Counted.record_drops (h : b.Counted) (failed : Bool) :
    ∃ dropped, b.window ++ [failed] = dropped ++ (b.record failed).window ∧
      b.failures + failed.toNat = dropped.count true + (b.record failed).failures := by
  obtain ⟨dropped, hdropped⟩ :=
    rtake_suffix (b.window ++ [failed]) b.policy.slidingWindowSize.toNat
  rw [← h.window_record] at hdropped
  refine ⟨dropped, hdropped.symm, ?_⟩
  calc
    b.failures + failed.toNat = (b.window ++ [failed]).count true := by
      cases failed <;> simp [h.failures_eq]
    _ = dropped.count true + (b.record failed).failures := by
      rw [← hdropped, List.count_append, (h.record failed).failures_eq]

theorem Responds.window_of_not_closed {c : Call} {a : c.Answer} (hr : Responds b now c a b')
    (hs : b.state ≠ .closed) : b'.window = if b'.state = .closed then [] else b.window := by
  cases hr with
  | admitted hs' | succeeded hs' | failed hs' | tripped hs' => exact absurd hs' hs
  | closed => rfl
  | ignored | refused | seen => exact (if_neg hs).symm
  | passed hs' | released hs' => simp [hs']
  | granted | exhausted | reopened => simp [opened]

theorem Counted.state_of_error (h : b.Counted) (hs : b.state = .closed) :
    (b.settle now .error).state =
      if max b.policy.minimumCalls.toNat 1 ≤ (b.record true).window.length ∧
        b.policy.failureRateThreshold ≤ rateOf (b.record true).window then .opened
      else .closed := by
  change (b.answer now (.settle .error)).2.state = _
  rw [settle_error_of_closed hs, apply_ite Breaker.state, state_record, hs]
  exact if_congr (h.trips_record_iff true) rfl rfl

/-- What a closed breaker judges, whatever is asked of it and told to it under whatever clock. -/
theorem judges_sliding_window (policy : BreakerPolicy) (calls : List (Nat × Call)) (now : Nat) :
    let b := (BreakerStrategy.count.create policy).after calls
    let known := outcomes ((BreakerStrategy.count.create policy).history calls)
    let size := policy.slidingWindowSize.toNat
    (b.state = .closed → b.window = known.rtake (min known.length size) ∧
      b.failures = b.window.count true) ∧
    (b.state = .closed → ∀ failed, ∃ dropped,
      b.window ++ [failed] = dropped ++ (b.record failed).window ∧
        b.failures + failed.toNat = dropped.count true + (b.record failed).failures) ∧
    (b.state ≠ .closed → ∀ c, (b.answer now c).2.window =
      if (b.answer now c).2.state = .closed then [] else b.window) ∧
    (b.state = .closed →
      let judged := (known ++ [true]).rtake (min (known.length + 1) size)
      (b.settle now .error).state =
        if max policy.minimumCalls.toNat 1 ≤ judged.length ∧
          policy.failureRateThreshold ≤ rateOf judged then .opened else .closed) := by
  intro b known size
  have h : Judges policy b known := judges_history policy calls
  refine ⟨fun _ => ⟨?_, h.counted.failures_eq⟩, fun _ => h.counted.record_drops,
    fun hs c => (responds_answer b now c).window_of_not_closed hs, fun hs => ?_⟩
  · rw [rtake_min_length, h.window_eq]
  · intro judged
    have hjudged : judged = (b.record true).window := by
      rw [h.window_record]
      simpa using rtake_min_length (known ++ [true]) size
    rw [hjudged, ← h.policy_eq]
    exact h.counted.state_of_error hs

/-! ### What it leaves unjudged -/

theorem after_errors_of_few (hs : b.state = .closed) (h : b.Counted) (readings : List Nat)
    (hlt : b.window.length + readings.length < b.policy.minimumCalls.toNat)
    (hle : b.policy.minimumCalls.toNat ≤ b.policy.slidingWindowSize.toNat) :
    (b.after (errors readings)).state = .closed ∧ (b.after (errors readings)).Counted ∧
      (b.after (errors readings)).policy = b.policy ∧
      (b.after (errors readings)).window = b.window ++ List.replicate readings.length true := by
  induction readings generalizing b with
  | nil => exact ⟨hs, h, rfl, (List.append_nil _).symm⟩
  | cons now readings ih =>
    rw [List.length_cons] at hlt
    have hwindow : (b.record true).window = b.window ++ [true] := h.window_record_of_lt (by omega)
    have hlength : (b.record true).window.length = b.window.length + 1 := by
      rw [hwindow, List.length_append, List.length_singleton]
    have htrips : (b.record true).trips = false := by
      rw [Bool.eq_false_iff, ne_eq, h.trips_record_iff, hlength]
      omega
    have hafter : b.after (errors (now :: readings)) = (b.record true).after (errors readings) := by
      change (b.answer now (.settle .error)).2.after (errors readings) = _
      rw [settle_error_of_closed hs, htrips, if_neg Bool.false_ne_true]
    have hlt' : (b.record true).window.length + readings.length < b.policy.minimumCalls.toNat := by
      omega
    obtain ⟨hs', h', hpolicy, hwindow'⟩ := ih (b := b.record true) hs (h.record true) hlt' hle
    rw [hafter]
    refine ⟨hs', h', hpolicy, ?_⟩
    rw [hwindow', hwindow, List.append_assoc, List.length_cons, List.replicate_succ,
      List.singleton_append]

def firstSuccess (policy : BreakerPolicy) : List Bool :=
  List.replicate (policy.minimumCalls.toNat - 1) true ++ [false]

theorem Judges.threshold_le_of_unjudged (h : Judges policy b known) (hs : b.state = .closed)
    (htrips : b.trips = true) : policy.failureRateThreshold ≤ rateOf (firstSuccess policy) := by
  obtain ⟨hlength, hthreshold⟩ := h.counted.trips_iff.1 htrips
  have hunjudged := h.not_mem_of_trips hs htrips
  have hlt := h.counted.length_lt
  rw [h.policy_eq] at hlength hthreshold
  have hfirst : (firstSuccess policy).length = policy.minimumCalls.toNat - 1 + 1 := by
    simp [firstSuccess]
  have hcount : b.window.count true ≤ (firstSuccess policy).count true := by
    calc
      b.window.count true ≤ known.count true := by
        rw [h.window_eq]
        exact (rtake_suffix ..).sublist.count_le true
      _ = (known.take (policy.minimumCalls.toNat - 1)).count true := by
        rw [← List.take_append_drop (policy.minimumCalls.toNat - 1) known, List.count_append,
          List.count_eq_zero_of_not_mem hunjudged, List.take_append_drop, Nat.add_zero]
      _ ≤ policy.minimumCalls.toNat - 1 :=
        Nat.le_trans List.count_le_length (List.length_take_le ..)
      _ = (firstSuccess policy).count true := by simp [firstSuccess]
  refine threshold_le_trans (by omega) hlt hthreshold (rateOf_le ?_ hcount (by omega) hlt)
  simp [firstSuccess]

theorem Counted.window_first_success (h : b.Counted)
    (hwindow : b.window = List.replicate (b.policy.minimumCalls.toNat - 1) true)
    (hone : 1 < b.policy.minimumCalls.toNat)
    (hsize : b.policy.minimumCalls.toNat ≤ b.policy.slidingWindowSize.toNat) :
    (b.record false).window = firstSuccess b.policy := by
  have hlength : b.window.length = b.policy.minimumCalls.toNat - 1 := by
    rw [hwindow, List.length_replicate]
  rw [h.window_record_of_lt (by omega), hwindow, firstSuccess]

theorem settle_success_of_closed (hs : b.state = .closed) (now : Nat) :
    (b.answer now (.settle .success)).2 = b.record false := by
  simp [answer, settle, onSuccess, hs]

theorem closed_after_first_success (hone : 1 < policy.minimumCalls)
    (hsize : policy.minimumCalls ≤ policy.slidingWindowSize)
    (hthreshold : policy.failureRateThreshold ≤ rateOf (firstSuccess policy)) :
    let b := (BreakerStrategy.count.create policy).after
      (errors (List.replicate (policy.minimumCalls.toNat - 1) 0) ++ [(0, .settle .success)])
    b.state = .closed ∧ b.trips = true ∧ true ∈ b.window := by
  have hone' : 1 < policy.minimumCalls.toNat := hone
  have hfew : (List.replicate (policy.minimumCalls.toNat - 1) 0).length <
      policy.minimumCalls.toNat := by
    rw [List.length_replicate]
    omega
  obtain ⟨hs, h, hpolicy, hwindow⟩ := after_errors_of_few
    (b := BreakerStrategy.count.create policy) rfl ⟨rfl, Nat.zero_le _⟩ _
    ((Nat.zero_add _).trans_lt hfew) hsize
  rw [after_concat, settle_success_of_closed hs]
  generalize (BreakerStrategy.count.create policy).after _ = b at *
  subst hpolicy
  rw [List.length_replicate] at hwindow
  have hfirst := h.window_first_success hwindow hone' hsize
  refine ⟨hs, (h.trips_record_iff false).2 ⟨?_, hfirst ▸ hthreshold⟩, ?_⟩
  · simp only [hfirst, firstSuccess, List.length_append, List.length_replicate,
      List.length_singleton]
    omega
  · rw [hfirst, firstSuccess, List.mem_append, List.mem_replicate]
    exact .inl ⟨by omega, rfl⟩

/--
An error is judged together with the outcomes before it. So a closed breaker whose window would trip
it has had errors only among its first outcomes, before they were enough to be judged.
-/
theorem closed_on_tripping_window_iff (policy : BreakerPolicy) :
    (∀ calls : List (Nat × Call),
      let b := (BreakerStrategy.count.create policy).after calls
      let known := outcomes ((BreakerStrategy.count.create policy).history calls)
      b.state = .closed → true ∈ known.drop (policy.minimumCalls.toNat - 1) → b.trips = false) ∧
    ((∃ calls : List (Nat × Call),
      let b := (BreakerStrategy.count.create policy).after calls
      b.state = .closed ∧ b.trips = true ∧ true ∈ b.window) ↔
      1 < policy.minimumCalls ∧ policy.minimumCalls ≤ policy.slidingWindowSize ∧
        policy.failureRateThreshold ≤ rateOf (firstSuccess policy)) := by
  refine ⟨fun calls => (judges_history policy calls).judged, ?_, ?_⟩
  · rintro ⟨calls, hs, htrips, herror⟩
    have h := judges_history policy calls
    generalize (BreakerStrategy.count.create policy).after calls = b at *
    obtain ⟨hlength, -⟩ := h.counted.trips_iff.1 htrips
    have hsize := h.counted.length_le
    rw [h.policy_eq] at hlength hsize
    refine ⟨?_, ?_, h.threshold_le_of_unjudged hs htrips⟩
    · by_contra hone
      have hzero : policy.minimumCalls.toNat - 1 = 0 := by
        have : policy.minimumCalls.toNat ≤ (1 : UInt32).toNat := UInt32.not_lt.1 hone
        exact Nat.sub_eq_zero_of_le this
      refine h.not_mem_of_trips hs htrips ?_
      rw [hzero, List.drop_zero]
      exact (rtake_suffix ..).mem (h.window_eq ▸ herror)
    · change policy.minimumCalls.toNat ≤ policy.slidingWindowSize.toNat
      omega
  · rintro ⟨hone, hsize, hthreshold⟩
    exact ⟨_, closed_after_first_success hone hsize hthreshold⟩

/-- A success that makes the outcomes enough to be judged leaves them unjudged. -/
theorem closed_on_tripping_window :
    let policy : BreakerPolicy := { slidingWindowSize := 2, minimumCalls := 2 }
    let b := (BreakerStrategy.count.create policy).after
      [(0, .settle .error), (0, .settle .success)]
    policy.validate "s" = .ok () ∧ b.state = .closed ∧ b.window = [true, false] ∧
      max policy.minimumCalls.toNat 1 ≤ b.window.length ∧
      policy.failureRateThreshold ≤ b.failureRate ∧ true ∈ b.window := by
  decide

end Breaker

end Turnpike
