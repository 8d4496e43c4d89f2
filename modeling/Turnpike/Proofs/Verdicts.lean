import Turnpike.Proofs.Trials

/-!
What decides a half-open period. A breaker does not know which admission a report is about, so the
report of an earlier admission counts as that of a trial does: a success towards closing, a release
as a trial given back. The invariant tells these stray reports from the period's own.
-/

namespace Turnpike

structure Hearing extends Docket where
  reports : List (Nat × Report) := []

namespace Hearing

def start (policy : BreakerPolicy) : Hearing := { toDocket := .start policy }

def proceed (h : Hearing) (b : Breaker) : Hearing where
  toDocket := h.follow b
  reports := if h.breaker.state ≠ .halfOpen ∧ b.state = .halfOpen then [] else h.reports

def grant (h : Hearing) : Hearing := { h with toDocket := h.toDocket.grant }

def report (h : Hearing) (n : Nat) (r : Report) : Hearing where
  toDocket := h.toDocket.report n
  reports := (n, r) :: h.reports

inductive Step : Hearing → Hearing → Prop
  | granted {h : Hearing} (now : Nat) {b : Breaker} :
    h.breaker.tryAcquire now = (true, b) → Step h (h.proceed b).grant
  | refused {h : Hearing} (now : Nat) {b : Breaker} :
    h.breaker.tryAcquire now = (false, b) → Step h (h.proceed b)
  | reported {h : Hearing} (now n : Nat) (r : Report) : n ∈ h.pending →
    Step h ((h.proceed (h.breaker.settle now r)).report n r)

def own (h : Hearing) (r : Report) : Nat := h.reports.countP fun x => h.since ≤ x.1 ∧ x.2 = r

def stray (h : Hearing) (r : Report) : Nat := h.reports.countP fun x => x.1 < h.since ∧ x.2 = r

variable {policy : BreakerPolicy} {h h' : Hearing} {b : Breaker} {n granted passed : Nat}
  {r r' : Report}

theorem Step.docket (hstep : Step h h') : Docket.Step h.toDocket h'.toDocket := by
  cases hstep with
  | granted now ha => exact .granted now ha
  | refused now ha => exact .refused now ha
  | reported now n r hn => exact .reported now n r hn

theorem own_report (h : Hearing) (n : Nat) (r r' : Report) :
    (h.report n r).own r' = h.own r' + if h.since ≤ n ∧ r = r' then 1 else 0 := by
  refine List.countP_cons.trans (congrArg _ ?_)
  exact if_congr decide_eq_true_iff rfl rfl

theorem stray_report (h : Hearing) (n : Nat) (r r' : Report) :
    (h.report n r).stray r' = h.stray r' + if n < h.since ∧ r = r' then 1 else 0 := by
  refine List.countP_cons.trans (congrArg _ ?_)
  exact if_congr decide_eq_true_iff rfl rfl

theorem own_add_stray_report (h : Hearing) (n : Nat) (r : Report) :
    (h.report n r).own r + (h.report n r).stray r = h.own r + h.stray r + 1 := by
  rw [own_report, stray_report]
  rcases Nat.lt_or_ge n h.since with hstray | hown
  · simp [hstray, Nat.not_le_of_lt hstray, Nat.add_assoc]
  · simp [hown, Nat.not_lt_of_le hown, Nat.add_right_comm]

theorem proceed_of_halfOpen (hs : h.breaker.state = .halfOpen) :
    h.proceed b = { h with breaker := b } := by
  simp [proceed, Docket.follow, hs]

theorem outstanding_report (h : Hearing) (n : Nat) (r : Report) :
    (h.report n r).outstanding = h.outstanding.erase n :=
  Finset.filter_erase ..

theorem mem_outstanding_iff (hn : n ∈ h.pending) : n ∈ h.outstanding ↔ h.since ≤ n := by
  simp [Docket.outstanding, hn]

/-! ### The tally of a period -/

/-- The trials taken and passed are those of the period's own reports, and of the stray ones. -/
structure Tally (h : Hearing) (granted passed : Nat) : Prop where
  passed_eq : passed = h.own .success + h.stray .success
  outstanding_le : h.outstanding.card + h.own .success ≤ granted + h.stray .release

namespace Tally

theorem grant (ht : Tally h granted passed) (hsince : h.since ≤ h.admissions)
    (hpending : ∀ n ∈ h.pending, n < h.admissions) : Tally h.grant (granted + 1) passed where
  passed_eq := ht.passed_eq
  outstanding_le := by
    have hcard : h.grant.outstanding.card = h.outstanding.card + 1 :=
      Docket.card_outstanding_grant hsince hpending
    have hle := ht.outstanding_le
    change h.grant.outstanding.card + h.own .success ≤ granted + 1 + h.stray .release
    omega

theorem success (ht : Tally h granted passed) (hn : n ∈ h.pending) :
    Tally (h.report n .success) granted (passed + 1) := by
  refine ⟨by rw [own_add_stray_report, ht.passed_eq], ?_⟩
  have hle := ht.outstanding_le
  rcases Nat.lt_or_ge n h.since with hstray | hown
  · have hmem : n ∉ h.outstanding := by simpa [mem_outstanding_iff hn] using hstray
    simpa [own_report, stray_report, outstanding_report, Nat.not_le_of_lt hstray, hmem] using hle
  · have hcard := Finset.card_erase_add_one ((mem_outstanding_iff hn).2 hown)
    simp [own_report, stray_report, outstanding_report, hown]
    omega

theorem release (ht : Tally h granted passed) (hn : n ∈ h.pending) :
    Tally (h.report n .release) (granted - 1) passed := by
  obtain ⟨hpassed, hle⟩ := ht
  refine ⟨by simpa [own_report, stray_report] using hpassed, ?_⟩
  rcases Nat.lt_or_ge n h.since with hstray | hown
  · have hmem : n ∉ h.outstanding := by simpa [mem_outstanding_iff hn] using hstray
    simp [own_report, stray_report, outstanding_report, hstray, hmem]
    omega
  · have hcard := Finset.card_erase_add_one ((mem_outstanding_iff hn).2 hown)
    simp [own_report, stray_report, outstanding_report, Nat.not_lt_of_le hown]
    omega

end Tally

structure Balanced (policy : BreakerPolicy) (h : Hearing) : Prop where
  accounted : Docket.Accounted policy h.toDocket
  granted_le : h.breaker.granted ≤ policy.permittedCallsInHalfOpen.toNat
  tally : h.breaker.state = .halfOpen → Tally h h.breaker.granted h.breaker.passed

namespace Balanced

theorem start (policy : BreakerPolicy) : Balanced policy (start policy) where
  accounted := Docket.accounted_start policy
  granted_le := Nat.zero_le _
  tally := nofun

theorem proceed (hb : Balanced policy h) (hs : b.state = .halfOpen) :
    Tally (h.proceed b) h.breaker.granted h.breaker.passed := by
  by_cases hopen : h.breaker.state = .halfOpen
  · rw [proceed_of_halfOpen hopen]
    exact ⟨(hb.tally hopen).passed_eq, (hb.tally hopen).outstanding_le⟩
  · obtain ⟨hgranted, hpassed⟩ := hb.accounted.resting hopen
    have hreports : (h.proceed b).reports = [] := if_pos ⟨hopen, hs⟩
    have hsince : (h.proceed b).since = h.admissions := if_pos ⟨hopen, hs⟩
    have hnone : (h.proceed b).outstanding = ∅ := by
      apply Finset.filter_eq_empty_iff.2
      intro n hn
      rw [hsince]
      exact Nat.not_le_of_lt (hb.accounted.pending_lt n hn)
    rw [hgranted, hpassed]
    constructor
    · simp [own, stray, hreports]
    · simp [own, stray, hreports, hnone]

theorem step (hb : Balanced policy h) (hpos : 0 < policy.permittedCallsInHalfOpen.toNat)
    (hstep : Step h h') : Balanced policy h' := by
  have haccounted := hb.accounted.step hpos hstep.docket
  have hgranted {c : Breaker.Call} {a : c.Answer} {now : Nat}
      (hr : Breaker.Responds h.breaker now c a h'.breaker) :
      h'.breaker.granted ≤ policy.permittedCallsInHalfOpen.toNat := by
    have hle := hr.granted_le (hb.accounted.policy_eq.symm ▸ hb.granted_le)
    rwa [hb.accounted.policy_eq] at hle
  cases hstep with
  | granted now ha =>
    rename_i b
    have hr := Breaker.responds_tryAcquire ha
    refine ⟨haccounted, hgranted hr, fun hs => ?_⟩
    have ht := hb.proceed hs
    cases hr with
    | admitted hclosed => exact absurd (hclosed.symm.trans hs) (by decide)
    | granted => exact ht.grant (hb.accounted.since_follow_le _) hb.accounted.pending_lt
  | refused now ha =>
    have hr := Breaker.responds_tryAcquire ha
    refine ⟨haccounted, hgranted hr, fun hs => ?_⟩
    have ht := hb.proceed hs
    cases hr with
    | refused hopened => exact absurd (hopened.symm.trans hs) (by decide)
    | exhausted => exact ht
  | reported now n r hn =>
    have hr : Breaker.Responds h.breaker now (.settle r) () (h.breaker.settle now r) :=
      Breaker.responds_answer h.breaker now (.settle r)
    refine ⟨haccounted, hgranted hr, fun hs => ?_⟩
    have ht := hb.proceed hs
    generalize h.breaker.settle now r = b at *
    cases hr with
    | passed => exact ht.success hn
    | released => exact ht.release hn
    | tripped | closed | reopened => cases hs
    | succeeded hclosed | failed hclosed => exact absurd (hclosed.symm.trans hs) (by decide)
    | ignored hidle =>
      rcases hidle with hopened | ⟨hclosed, -⟩
      · exact absurd (hopened.symm.trans hs) (by decide)
      · exact absurd (hclosed.symm.trans hs) (by decide)

end Balanced

theorem balanced_of_reaches (hpos : 0 < policy.permittedCallsInHalfOpen.toNat)
    (hreach : Relation.ReflTransGen Step (start policy) h) : Balanced policy h := by
  induction hreach with
  | refl => exact .start policy
  | tail _ hstep ih => exact ih.step hpos hstep

theorem Balanced.closing (hb : Balanced policy h) (hstep : Step h h')
    (hs : h.breaker.state = .halfOpen) (hs' : h'.breaker.state = .closed) :
    h'.own .success + h'.stray .success = policy.permittedCallsInHalfOpen.toNat := by
  cases hstep with
  | granted now ha =>
    cases Breaker.responds_tryAcquire ha with
    | admitted => exact absurd (hs.symm.trans hs') (by decide)
    | granted => cases hs'
  | refused now ha =>
    cases Breaker.responds_tryAcquire ha with
    | refused => exact absurd (hs.symm.trans hs') (by decide)
    | exhausted => cases hs'
  | reported now n r hn =>
    have hr : Breaker.Responds h.breaker now (.settle r) () (h.breaker.settle now r) :=
      Breaker.responds_answer h.breaker now (.settle r)
    rw [proceed_of_halfOpen hs] at hs' ⊢
    generalize h.breaker.settle now r = b at *
    cases hr with
    | closed _ hfull =>
      have hlt := (hb.accounted.covered hs).2
      have hsum : _ = h.own .success + h.stray .success + 1 :=
        own_add_stray_report { h with breaker := h.breaker.closed } n .success
      rw [hb.accounted.policy_eq] at hfull hlt
      rw [hsum, ← (hb.tally hs).passed_eq]
      omega
    | tripped | reopened => cases hs'
    | passed | released | ignored => exact absurd (hs.symm.trans hs') (by decide)
    | succeeded hclosed | failed hclosed => exact absurd (hclosed.symm.trans hs) (by decide)

/--
The trials of a half-open period that have no report, and those that were reported successful, are
as many as are permitted, or more by the stray releases; and a period ends in a closed breaker as
soon as its own successes and the stray ones are as many as are permitted.
-/
theorem half_open_period_decided_by_reports {service : String}
    (hvalid : policy.validate service = .ok ())
    (hreach : Relation.ReflTransGen Step (start policy) h) :
    (h.breaker.state = .halfOpen →
      h.outstanding.card + h.own .success ≤
        policy.permittedCallsInHalfOpen.toNat + h.stray .release ∧
      h.own .success + h.stray .success < policy.permittedCallsInHalfOpen.toNat) ∧
    ∀ h', Step h h' → h.breaker.state = .halfOpen → h'.breaker.state = .closed →
      h'.own .success + h'.stray .success = policy.permittedCallsInHalfOpen.toNat := by
  obtain ⟨-, -, hpermitted⟩ := BreakerPolicy.validate_eq_ok_iff.1 hvalid
  have hpos : 0 < policy.permittedCallsInHalfOpen.toNat :=
    Nat.pos_of_ne_zero fun h => hpermitted (UInt32.toNat_inj.1 h)
  have hb := balanced_of_reaches hpos hreach
  refine ⟨fun hs => ?_, fun h' hstep hs hs' => hb.closing hstep hs hs'⟩
  obtain ⟨hpassed, houtstanding⟩ := hb.tally hs
  have hlt := (hb.accounted.covered hs).2
  rw [hb.accounted.policy_eq] at hlt
  have hle := hb.granted_le
  omega

/-- A period that ends with the success of its one trial and one of a call from before it. -/
theorem period_ended_by_own_and_stray :
    let policy : BreakerPolicy :=
      { slidingWindowSize := 1, minimumCalls := 1, permittedCallsInHalfOpen := 2 }
    ∃ h h', policy.validate "s" = .ok () ∧ Relation.ReflTransGen Step (start policy) h ∧
      Step h h' ∧ h.breaker.state = .halfOpen ∧ h'.breaker.state = .closed ∧
      h'.own .success = 1 ∧ h'.own .success + h'.stray .success = 2 := by
  intro policy
  have h := Relation.ReflTransGen.refl (r := Step) (a := start policy)
  have h := h.tail (.granted 0 (Prod.ext (by decide) rfl))
  have h := h.tail (.granted 0 (Prod.ext (by decide) rfl))
  have h := h.tail (.reported 0 0 .error (by decide))
  have h := h.tail (.granted 5000 (Prod.ext (by decide) rfl))
  have h := h.tail (.reported 5000 1 .success (by decide))
  have hvalid : policy.validate "s" = .ok () := by decide
  exact ⟨_, _, hvalid, h, .reported 5000 2 .success (by decide), by decide, by decide, by decide,
    (half_open_period_decided_by_reports hvalid h).2 _ (.reported 5000 2 .success (by decide))
      (by decide) (by decide)⟩

/--
Two successes from before a period end it while its one trial has no report; and a release from
before a period admits a second trial next to the one that is permitted.
-/
theorem periods_decided_by_stray_reports :
    (let policy : BreakerPolicy :=
        { slidingWindowSize := 1, minimumCalls := 1, permittedCallsInHalfOpen := 2 }
      ∃ h h', Relation.ReflTransGen Step (start policy) h ∧ Step h h' ∧
        h.breaker.state = .halfOpen ∧ h'.breaker.state = .closed ∧ h'.own .success = 0) ∧
    (let policy : BreakerPolicy :=
        { slidingWindowSize := 1, minimumCalls := 1, permittedCallsInHalfOpen := 1 }
      ∃ h, Relation.ReflTransGen Step (start policy) h ∧ h.breaker.state = .halfOpen ∧
        policy.permittedCallsInHalfOpen.toNat < h.outstanding.card) := by
  constructor
  · intro policy
    have h := Relation.ReflTransGen.refl (r := Step) (a := start policy)
    have h := h.tail (.granted 0 (Prod.ext (by decide) rfl))
    have h := h.tail (.granted 0 (Prod.ext (by decide) rfl))
    have h := h.tail (.granted 0 (Prod.ext (by decide) rfl))
    have h := h.tail (.reported 0 0 .error (by decide))
    have h := h.tail (.granted 5000 (Prod.ext (by decide) rfl))
    have h := h.tail (.reported 5000 1 .success (by decide))
    exact ⟨_, _, h, .reported 5000 2 .success (by decide), by decide, by decide, by decide⟩
  · intro policy
    have h := Relation.ReflTransGen.refl (r := Step) (a := start policy)
    have h := h.tail (.granted 0 (Prod.ext (by decide) rfl))
    have h := h.tail (.granted 0 (Prod.ext (by decide) rfl))
    have h := h.tail (.reported 0 0 .error (by decide))
    have h := h.tail (.granted 5000 (Prod.ext (by decide) rfl))
    have h := h.tail (.reported 5000 1 .release (by decide))
    have h := h.tail (.granted 5000 (Prod.ext (by decide) rfl))
    exact ⟨_, h, by decide, by decide⟩

end Hearing

end Turnpike
