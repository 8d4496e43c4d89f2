import Turnpike.Proofs.Permits

namespace Turnpike

namespace FixedWindow

def answers (w : FixedWindow) : List Nat → List (Nat × Bool)
  | [] => []
  | now :: later => (now, (w.tryAcquire now).1) :: (w.tryAcquire now).2.answers later

def number (policy : RateLimitPolicy) (created now : Nat) : Nat := (now - created) / policy.length

def admittedIn (policy : RateLimitPolicy) (created k : Nat) (past : List (Nat × Bool)) : Nat :=
  past.countP fun (now, admitted) => admitted ∧ number policy created now = k

/-- A limiter that stands in the window of its latest reading, with the permits taken in it. -/
structure Stands (policy : RateLimitPolicy) (created latest : Nat) (past : List (Nat × Bool))
    (w : FixedWindow) : Prop where
  policy_eq : w.policy = policy
  start_eq : w.start = created + policy.length * number policy created latest
  used_eq : w.used = admittedIn policy created (number policy created latest) past
  created_le : created ≤ latest
  le_latest : ∀ call ∈ past, call.1 ≤ latest

variable {policy : RateLimitPolicy} {created latest now k : Nat} {past : List (Nat × Bool)}
  {w : FixedWindow}

theorem stands_create (policy : RateLimitPolicy) (created : Nat) :
    Stands policy created created [] (create policy created) :=
  ⟨rfl, by simp [create, number], rfl, Nat.le_refl _, nofun⟩

theorem number_mono (policy : RateLimitPolicy) (created : Nat) (h : latest ≤ now) :
    number policy created latest ≤ number policy created now :=
  Nat.div_le_div_right (Nat.sub_le_sub_right h _)

theorem admittedIn_concat {admitted : Bool} :
    admittedIn policy created (number policy created now) (past ++ [(now, admitted)]) =
      admittedIn policy created (number policy created now) past + admitted.toNat := by
  unfold admittedIn
  rw [List.countP_append]
  cases admitted <;> simp

theorem admittedIn_eq_zero (h : ∀ call ∈ past, call.1 ≤ latest)
    (hk : number policy created latest < k) : admittedIn policy created k past = 0 := by
  apply List.countP_eq_zero.2
  rintro ⟨reading, admitted⟩ hmem hcall
  have hle : number policy created reading ≤ number policy created latest :=
    number_mono policy created (h _ hmem)
  simp only [decide_eq_true_eq] at hcall
  omega

theorem start_add_mod (policy : RateLimitPolicy) (h : created ≤ now) :
    created + policy.length * number policy created now + (now - created) % policy.length =
      now := by
  have hdiv := Nat.div_add_mod (now - created) policy.length
  unfold number
  omega

theorem moveTo_eq_of_le (h : w.start + w.policy.length ≤ now) :
    w.moveTo now = { w with start := now - (now - w.start) % w.policy.length, used := 0 } :=
  if_pos (Nat.le_sub_of_add_le' h)

theorem tryAcquire_eq_true_iff :
    (w.tryAcquire now).1 = true ↔ (w.moveTo now).used < w.policy.permits.toNat := by
  have hpolicy : (w.moveTo now).policy = w.policy := policy_moveTo
  rw [← hpolicy]
  simp only [tryAcquire]
  split
  · exact iff_of_true rfl ‹_›
  · exact iff_of_false Bool.false_ne_true ‹_›

theorem used_tryAcquire :
    (w.tryAcquire now).2.used = (w.moveTo now).used + (w.tryAcquire now).1.toNat := by
  simp only [tryAcquire]
  split <;> rfl

namespace Stands

theorem moveTo (h : Stands policy created latest past w) (hle : latest ≤ now) :
    Stands policy created now past (w.moveTo now) := by
  obtain ⟨rfl, hstart, hused, hcreated, hpast⟩ := h
  have hcreated' : created ≤ now := Nat.le_trans hcreated hle
  have hnow := start_add_mod w.policy hcreated'
  have hmod := Nat.mod_lt (now - created) w.policy.length_pos
  have hpast' : ∀ call ∈ past, call.1 ≤ now := fun call hcall => Nat.le_trans (hpast call hcall) hle
  rcases Nat.eq_or_lt_of_le (number_mono w.policy created hle) with heq | hlt
  · rw [moveTo_of_lt (by rw [hstart, heq]; omega)]
    exact ⟨rfl, heq ▸ hstart, heq ▸ hused, hcreated', hpast'⟩
  · have hover : w.start + w.policy.length ≤ now := by
      have hmul := Nat.mul_le_mul_left w.policy.length (Nat.succ_le_of_lt hlt)
      rw [Nat.mul_succ] at hmul
      omega
    have hsame : (now - w.start) % w.policy.length = (now - created) % w.policy.length := by
      have hsplit : now - created =
          w.policy.length * number w.policy created latest + (now - w.start) := by omega
      rw [hsplit, Nat.mul_add_mod]
    rw [moveTo_eq_of_le hover, hsame]
    refine ⟨rfl, ?_, (admittedIn_eq_zero hpast hlt).symm, hcreated', hpast'⟩
    simp only
    omega

theorem admitted_iff (h : Stands policy created latest past w) (hle : latest ≤ now) :
    (w.tryAcquire now).1 = true ↔
      admittedIn policy created (number policy created now) past < policy.permits.toNat := by
  have hmoved := h.moveTo hle
  rw [← hmoved.used_eq, ← h.policy_eq]
  exact tryAcquire_eq_true_iff

theorem tryAcquire (h : Stands policy created latest past w) (hle : latest ≤ now) :
    Stands policy created now (past ++ [(now, (w.tryAcquire now).1)]) (w.tryAcquire now).2 := by
  have hmoved := h.moveTo hle
  have hpast : ∀ call ∈ past ++ [(now, (w.tryAcquire now).1)], call.1 ≤ now := by
    simpa [or_imp, forall_and] using hmoved.le_latest
  refine ⟨policy_tryAcquire.trans h.policy_eq, start_tryAcquire.trans hmoved.start_eq, ?_,
    hmoved.created_le, hpast⟩
  rw [admittedIn_concat, ← hmoved.used_eq]
  exact used_tryAcquire

theorem answers_iff {readings : List Nat} (h : Stands policy created latest past w)
    (hordered : (latest :: readings).Pairwise (· ≤ ·)) {before after : List (Nat × Bool)}
    {admitted : Bool} (hanswers : w.answers readings = before ++ (now, admitted) :: after) :
    admitted = true ↔ admittedIn policy created (number policy created now) (past ++ before) <
      policy.permits.toNat := by
  induction readings generalizing w latest past before with
  | nil => simp [answers] at hanswers
  | cons reading later ih =>
    have hle : latest ≤ reading := List.rel_of_pairwise_cons hordered List.mem_cons_self
    rcases before with _ | ⟨call, before⟩
    · cases hanswers
      rw [List.append_nil]
      exact h.admitted_iff hle
    · obtain ⟨rfl, hlater⟩ := List.cons.inj hanswers
      have hcalls := ih (h.tryAcquire hle) hordered.tail hlater
      rwa [List.append_assoc] at hcalls

end Stands

/--
A call is admitted exactly if fewer calls than the permits were admitted before it in its window,
whatever the gaps between the calls.
-/
theorem admitted_iff_window_has_permit (policy : RateLimitPolicy) {created now : Nat}
    {readings : List Nat} (hordered : (created :: readings).Pairwise (· ≤ ·))
    {before after : List (Nat × Bool)} {admitted : Bool}
    (h : (create policy created).answers readings = before ++ (now, admitted) :: after) :
    admitted = true ↔ (before.countP fun (earlier, taken) => taken ∧
      (earlier - created) / max policy.windowMs.toNat 1 =
        (now - created) / max policy.windowMs.toNat 1) < policy.permits.toNat :=
  (stands_create policy created).answers_iff hordered h

theorem refused_until_boundary :
    let policy : RateLimitPolicy := { permits := 1, windowMs := 10 }
    let readings := [3, 12, 13, 44, 52, 53]
    (3 :: readings).Pairwise (· ≤ ·) ∧
      (create policy 3).answers readings =
        [(3, true), (12, false), (13, true), (44, true), (52, false)] ++ (53, true) :: [] ∧
      ([(3, true), (12, false), (13, true), (44, true), (52, false)].countP
        fun (earlier, taken) => taken ∧
          (earlier - 3) / max policy.windowMs.toNat 1 = (53 - 3) / max policy.windowMs.toNat 1) <
        policy.permits.toNat := by
  intro policy readings
  have hordered : (3 :: readings).Pairwise (· ≤ ·) := by decide
  have hanswers : (create policy 3).answers readings =
      [(3, true), (12, false), (13, true), (44, true), (52, false)] ++ (53, true) :: [] := by
    decide
  exact ⟨hordered, hanswers, (admitted_iff_window_has_permit policy hordered hanswers).1 rfl⟩

end FixedWindow

end Turnpike
