import Turnpike.Proofs.BreakerCycle
import Mathlib.Data.Finset.Card
import Mathlib.Logic.Relation

/-!
The admissions of a breaker and the reports of them. A report may come late, when the breaker has
been opened and closed since. The invariant is that every trial that is taken is one that passed, or
stands against an admission of the same half-open period that has no report yet.
-/

namespace Turnpike

namespace Breaker

def Covered (b : Breaker) (n : Nat) : Prop :=
  b.state = .halfOpen →
    b.granted ≤ b.passed + n ∧ b.passed < b.policy.permittedCallsInHalfOpen.toNat

variable {b b' : Breaker} {now m n : Nat}

namespace Responds

theorem covered_of_granted (h : Responds b now .tryAcquire true b') (hrest : b.Resting)
    (hb : b.Covered n) : b'.Covered (n + 1) := by
  intro hs'
  cases h with
  | admitted hs => simp [hs] at hs'
  | granted _ hlt =>
    by_cases hs : b.state = .halfOpen
    · exact ⟨Nat.succ_le_succ (hb hs).1, (hb hs).2⟩
    · obtain ⟨hgranted, hpassed⟩ := hrest hs
      simp only [hgranted, hpassed] at hlt ⊢
      exact ⟨Nat.le_add_left .., hlt⟩

theorem covered_of_refused (h : Responds b now .tryAcquire false b') (hrest : b.Resting)
    (hpos : 0 < b.policy.permittedCallsInHalfOpen.toNat) (hb : b.Covered n) : b'.Covered n := by
  intro hs'
  cases h with
  | refused hs => simp [hs] at hs'
  | exhausted _ hle =>
    by_cases hs : b.state = .halfOpen
    · exact hb hs
    · simp only [(hrest hs).1] at hle
      exact absurd hle (Nat.not_le_of_lt hpos)

theorem covered_of_settled {report : Report} (h : Responds b now (.settle report) () b')
    (hb : b.Covered n) (hn : n ≤ m + 1) : b'.Covered m := by
  intro hs'
  cases h with
  | succeeded hs | failed hs => simp [hs] at hs'
  | tripped | closed | reopened => cases hs'
  | ignored hs => simp [hs'] at hs
  | passed hs hlt =>
    refine ⟨?_, hlt⟩
    have := (hb hs).1
    simp only
    omega
  | released hs =>
    refine ⟨?_, (hb hs).2⟩
    have := (hb hs).1
    simp only
    omega

end Responds

end Breaker

structure Docket where
  breaker : Breaker
  admissions : Nat := 0
  pending : Finset Nat := ∅
  since : Nat := 0

namespace Docket

def start (policy : BreakerPolicy) : Docket := { breaker := BreakerStrategy.count.create policy }

/-- Goes on with a breaker. A half-open period begins when its state becomes half-open. -/
def follow (d : Docket) (b : Breaker) : Docket :=
  { d with
    breaker := b
    since :=
      if d.breaker.state ≠ .halfOpen ∧ b.state = .halfOpen then d.admissions else d.since }

def grant (d : Docket) : Docket :=
  { d with admissions := d.admissions + 1, pending := insert d.admissions d.pending }

def report (d : Docket) (n : Nat) : Docket := { d with pending := d.pending.erase n }

inductive Step : Docket → Docket → Prop
  | granted {d : Docket} (now : Nat) {b : Breaker} :
    d.breaker.tryAcquire now = (true, b) → Step d (d.follow b).grant
  | refused {d : Docket} (now : Nat) {b : Breaker} :
    d.breaker.tryAcquire now = (false, b) → Step d (d.follow b)
  | reported {d : Docket} (now n : Nat) (r : Report) : n ∈ d.pending →
    Step d ((d.follow (d.breaker.settle now r)).report n)

def outstanding (d : Docket) : Finset Nat := d.pending.filter (d.since ≤ ·)

theorem card_outstanding_report (d : Docket) (n : Nat) :
    d.outstanding.card ≤ (d.report n).outstanding.card + 1 := by
  have h : (d.report n).outstanding = d.outstanding.erase n := by
    change (d.pending.erase n).filter (d.since ≤ ·) = d.outstanding.erase n
    ext k
    simp [outstanding, and_assoc]
  have := Finset.pred_card_le_card_erase (s := d.outstanding) (a := n)
  rw [h]
  omega

theorem card_outstanding_grant {d : Docket} (hsince : d.since ≤ d.admissions)
    (hpending : ∀ n ∈ d.pending, n < d.admissions) :
    d.grant.outstanding.card = d.outstanding.card + 1 := by
  have h : d.grant.outstanding = insert d.admissions d.outstanding := by
    change (insert d.admissions d.pending).filter (d.since ≤ ·) = _
    rw [Finset.filter_insert, if_pos hsince, outstanding]
  rw [h, Finset.card_insert_of_notMem]
  intro hmem
  exact Nat.lt_irrefl _ (hpending _ (Finset.mem_filter.1 hmem).1)

/-- Every admission has its number, and every trial is covered by the outstanding ones. -/
structure Accounted (policy : BreakerPolicy) (d : Docket) : Prop where
  policy_eq : d.breaker.policy = policy
  resting : d.breaker.Resting
  since_le : d.since ≤ d.admissions
  pending_lt : ∀ n ∈ d.pending, n < d.admissions
  covered : d.breaker.Covered d.outstanding.card

theorem accounted_start (policy : BreakerPolicy) : Accounted policy (start policy) where
  policy_eq := rfl
  resting := fun _ => ⟨rfl, rfl⟩
  since_le := Nat.le_refl _
  pending_lt := by simp [start]
  covered := nofun

variable {policy : BreakerPolicy} {d d' : Docket}

theorem outstanding_follow (d : Docket) (b : Breaker) (h : d.breaker.state = .halfOpen) :
    (d.follow b).outstanding = d.outstanding := by
  simp [outstanding, follow, h]

theorem Accounted.since_follow_le (h : Accounted policy d) (b : Breaker) :
    (d.follow b).since ≤ d.admissions := by
  unfold follow
  simp only
  split
  · exact Nat.le_refl _
  · exact h.since_le

theorem Accounted.covered_follow (h : Accounted policy d) (b : Breaker) :
    d.breaker.Covered (d.follow b).outstanding.card := by
  intro hs
  rw [outstanding_follow d b hs]
  exact h.covered hs

theorem Accounted.step (h : Accounted policy d) (hpos : 0 < policy.permittedCallsInHalfOpen.toNat)
    (hstep : Step d d') : Accounted policy d' := by
  obtain ⟨rfl, hrest, -, hpending, -⟩ := id h
  cases hstep with
  | granted now ha =>
    rename_i b
    have hr := Breaker.responds_tryAcquire ha
    have hsince := h.since_follow_le b
    refine ⟨hr.policy_eq, hr.resting hrest, Nat.le_succ_of_le hsince, ?_, ?_⟩
    · intro n hn
      rcases Finset.mem_insert.1 hn with rfl | hn
      · exact Nat.lt_succ_self _
      · exact Nat.lt_succ_of_lt (hpending n hn)
    · rw [card_outstanding_grant hsince hpending]
      exact hr.covered_of_granted hrest (h.covered_follow b)
  | refused now ha =>
    rename_i b
    have hr := Breaker.responds_tryAcquire ha
    exact ⟨hr.policy_eq, hr.resting hrest, h.since_follow_le b, hpending,
      hr.covered_of_refused hrest hpos (h.covered_follow b)⟩
  | reported now n r hn =>
    have hr := Breaker.responds_answer d.breaker now (.settle r)
    refine ⟨hr.policy_eq, hr.resting hrest, h.since_follow_le _, ?_, ?_⟩
    · intro k hk
      exact hpending k (Finset.mem_of_mem_erase hk)
    · exact hr.covered_of_settled (h.covered_follow _) (card_outstanding_report _ n)

theorem accounted_of_reaches (hpos : 0 < policy.permittedCallsInHalfOpen.toNat)
    (h : Relation.ReflTransGen Step (start policy) d) : Accounted policy d := by
  induction h with
  | refl => exact accounted_start policy
  | tail _ hstep ih => exact ih.step hpos hstep

/--
A half-open breaker refuses a call only while it waits for the report of an admission of the same
half-open period, however late the reports of all others come.
-/
theorem never_wedged (hpos : 0 < policy.permittedCallsInHalfOpen.toNat)
    (h : Relation.ReflTransGen Step (start policy) d) {now : Nat} {b : Breaker}
    (hrefused : d.breaker.tryAcquire now = (false, b)) (hs : b.state = .halfOpen) :
    (d.follow b).outstanding.Nonempty := by
  have hd := accounted_of_reaches hpos (h.tail (.refused now hrefused))
  obtain ⟨hgranted, hpassed⟩ := hd.covered hs
  have hfull : b.policy.permittedCallsInHalfOpen.toNat ≤ b.granted := by
    cases Breaker.responds_tryAcquire hrefused with
    | refused hs' => simp [hs'] at hs
    | exhausted _ hle => exact hle
  apply Finset.card_pos.1
  exact Nat.pos_of_lt_add_right (Nat.lt_of_lt_of_le hpassed (Nat.le_trans hfull hgranted))

theorem outstanding_of_late_release :
    let policy : BreakerPolicy :=
      { slidingWindowSize := 1, minimumCalls := 1, permittedCallsInHalfOpen := 1 }
    ∃ d b, Relation.ReflTransGen Step (start policy) d ∧
      d.breaker.tryAcquire 5000 = (false, b) ∧ b.state = .halfOpen ∧ d.admissions = 4 ∧
      (d.follow b).outstanding.Nonempty := by
  intro policy
  have h := Relation.ReflTransGen.refl (r := Step) (a := start policy)
  have h := h.tail (.granted 0 (Prod.ext (by decide) rfl))
  have h := h.tail (.granted 0 (Prod.ext (by decide) rfl))
  have h := h.tail (.reported 0 0 .error (by decide))
  have h := h.tail (.granted 5000 (Prod.ext (by decide) rfl))
  have h := h.tail (.reported 5000 1 .release (by decide))
  have h := h.tail (.granted 5000 (Prod.ext (by decide) rfl))
  exact ⟨_, _, h, Prod.ext (by decide) rfl, by decide, rfl,
    never_wedged (by decide) h (Prod.ext (by decide) rfl) (by decide)⟩

end Docket

end Turnpike
