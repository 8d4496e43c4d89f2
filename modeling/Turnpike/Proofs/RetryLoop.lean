import Mathlib.Algebra.BigOperators.Intervals
import Turnpike.Proofs.HookProtocol

namespace Turnpike

/-- Work as a retrier sees it: what an attempt, and time that passes, make of the world. -/
structure Work (σ : Type) where
  idempotent : σ → Bool
  attempt : Nat → σ → Except Failure Unit × σ
  elapse : Nat → σ → σ

namespace Retrier

inductive Step
  | called (attempt : Nat) (result : Except Failure Unit)
  | slept (ms : Nat)

namespace Step

def call? : Step → Option Nat
  | called k _ => some k
  | slept _ => none

def sleep? : Step → Option Nat
  | called _ _ => none
  | slept ms => some ms

end Step

variable {σ : Type}

def called (w : Work σ) (k : Nat) : StateM (σ × List Step) (Except Failure Unit) := fun (s, log) =>
  let (result, s) := w.attempt k s
  (result, s, log ++ [.called k result])

def asked (w : Work σ) : StateM (σ × List Step) Bool := fun (s, log) => (w.idempotent s, s, log)

def slept (w : Work σ) (ms : Nat) : StateM (σ × List Step) Unit := fun (s, log) =>
  ((), w.elapse ms s, log ++ [.slept ms])

def execute (r : Retrier) (w : Work σ) (s : σ) : RetryOutcome × σ × List Step :=
  (r.run (asked w) (called w) (slept w)).run (s, [])

def delay (r : Retrier) (k : Nat) : Nat := (r.delayAfter? k).getD 0

def world (r : Retrier) (w : Work σ) (s : σ) : Nat → σ
  | 0 => s
  | k + 1 =>
    let s := (w.attempt (k + 1) (r.world w s k)).2
    if r.delay (k + 1) = 0 then s else w.elapse (r.delay (k + 1)) s

def result (r : Retrier) (w : Work σ) (s : σ) (k : Nat) : Except Failure Unit :=
  (w.attempt k (r.world w s (k - 1))).1

def sleep (r : Retrier) (k : Nat) : List Step :=
  if r.delay k = 0 then [] else [.slept (r.delay k)]

def rounds (r : Retrier) (w : Work σ) (s : σ) (k : Nat) : List Step :=
  (List.range' 1 k).flatMap fun k => .called k (r.result w s k) :: r.sleep k

def repeatable (r : Retrier) (w : Work σ) (s : σ) (k : Nat) : Bool :=
  w.idempotent (w.attempt k (r.world w s (k - 1))).2

def Final (r : Retrier) (w : Work σ) (s : σ) (k : Nat) : Prop :=
  r.result w s k = .ok () ∨
    (∃ f, r.result w s k = .error f ∧ r.policy.isRetryable f (r.repeatable w s k) = false) ∨
    r.policy.maxAttempts.toNat ≤ k

section Loop

variable {r : Retrier} {w : Work σ} {s : σ} {k : Nat} {idempotent : Bool} {f : Failure}

theorem delayAfter?_eq (r : Retrier) (hk : 1 ≤ k) : r.delayAfter? k =
    if r.policy.maxAttempts.toNat ≤ k then none else some (r.delay k) := by
  unfold delay
  cases hd : r.delayAfter? k with
  | some ms => simp [lt_of_delayAfter?_eq_some hd]
  | none =>
    rw [delayAfter?] at hd
    cases hs : r.schedule with
    | exponential =>
      rw [hs] at hd
      by_cases hle : r.policy.maxAttempts.toNat ≤ k
      · rw [if_pos hle]
      · simp [RetryPolicy.delay?, hle, Nat.ne_of_gt hk] at hd
    | fixed =>
      rw [hs] at hd
      by_cases hle : r.policy.maxAttempts.toNat ≤ k
      · rw [if_pos hle]
      · simp [hk, Nat.lt_of_not_le hle] at hd

theorem isRetryable_of_kind {p : RetryPolicy} (h : f.kind = .unready ∨ f.kind = .noProvider) :
    p.isRetryable f idempotent = false := by
  unfold RetryPolicy.isRetryable
  rcases h with h | h
  · rw [h]
  · rw [h]

theorem isRetryable_of_idempotentOnly {p : RetryPolicy} (hp : p.idempotentOnly = true)
    (hi : idempotent = false) : p.isRetryable f idempotent = false := by
  unfold RetryPolicy.isRetryable
  split
  · rfl
  · rfl
  · simp [hp, hi]

theorem again_of_final (hk : 1 ≤ k) (h : r.Final w s k) (hf : r.result w s k = .error f) :
    r.again (r.repeatable w s k) k f = none := by
  rw [again, delayAfter?_eq r hk]
  rcases h with h | ⟨g, hg, h⟩ | h
  · cases hf.symm.trans h
  · cases hf.symm.trans hg
    simp [h]
  · simp [h]

theorem again_of_not_final (hk : 1 ≤ k) (h : ¬ r.Final w s k) (hf : r.result w s k = .error f) :
    r.again (r.repeatable w s k) k f = some (r.delay k) := by
  have hr : r.policy.isRetryable f (r.repeatable w s k) = true := by
    by_contra hr
    exact h (.inr (.inl ⟨f, hf, by simpa using hr⟩))
  have hm : ¬ r.policy.maxAttempts.toNat ≤ k := fun hm => h (.inr (.inr hm))
  rw [again, if_pos hr, delayAfter?_eq r hk, if_neg hm]

theorem rounds_succ (r : Retrier) (w : Work σ) (s : σ) (k : Nat) : r.rounds w s (k + 1) =
    r.rounds w s k ++ .called (k + 1) (r.result w s (k + 1)) :: r.sleep (k + 1) := by
  simp [rounds, List.range'_1_concat, Nat.add_comm]

theorem run_bind_eq {τ α β : Type} {x : StateM τ α} {f : α → StateM τ β} {t t' : τ} {a : α}
    (h : x.run t = (a, t')) : (x >>= f).run t = (f a).run t' := by
  rw [StateT.run_bind, h]
  rfl

theorem run_called (r : Retrier) (w : Work σ) (s : σ) (k : Nat) (log : List Step) :
    (called w (k + 1)).run (r.world w s k, log) =
      (r.result w s (k + 1), (w.attempt (k + 1) (r.world w s k)).2,
        log ++ [.called (k + 1) (r.result w s (k + 1))]) :=
  rfl

theorem run_asked (r : Retrier) (w : Work σ) (s : σ) (k : Nat) (log : List Step) :
    (asked w).run ((w.attempt (k + 1) (r.world w s k)).2, log) =
      (r.repeatable w s (k + 1), (w.attempt (k + 1) (r.world w s k)).2, log) :=
  rfl

theorem run_slept {α : Type} (r : Retrier) (w : Work σ) (s : σ) (k : Nat) (log : List Step)
    (next : StateM (σ × List Step) α) :
    (do
      if r.delay (k + 1) ≠ 0 then slept w (r.delay (k + 1))
      next : StateM (σ × List Step) α).run ((w.attempt (k + 1) (r.world w s k)).2, log) =
      next.run (r.world w s (k + 1), log ++ r.sleep (k + 1)) := by
  by_cases h : r.delay (k + 1) = 0
  · simp [h, world, sleep]
  · have hs : (slept w (r.delay (k + 1))).run ((w.attempt (k + 1) (r.world w s k)).2, log) =
        ((), w.elapse (r.delay (k + 1)) (w.attempt (k + 1) (r.world w s k)).2,
          log ++ [.slept (r.delay (k + 1))]) := rfl
    rw [if_pos h, run_bind_eq hs, world, sleep, if_neg h, if_neg h]

theorem runFrom_of_final {log : List Step} (h : r.Final w s (k + 1)) :
    (r.runFrom (asked w) (called w) (slept w) (k + 1)).run (r.world w s k, log) =
      (⟨k + 1, r.result w s (k + 1)⟩, (w.attempt (k + 1) (r.world w s k)).2,
        log ++ [.called (k + 1) (r.result w s (k + 1))]) := by
  rw [runFrom_eq, run_bind_eq (run_called r w s k log)]
  cases hr : r.result w s (k + 1) with
  | ok => rfl
  | error f =>
    simp only
    rw [run_bind_eq (run_asked ..), again_of_final (Nat.le_add_left 1 k) h hr]
    rfl

theorem runFrom_of_not_final {log : List Step} (h : ¬ r.Final w s (k + 1)) :
    (r.runFrom (asked w) (called w) (slept w) (k + 1)).run (r.world w s k, log) =
      (r.runFrom (asked w) (called w) (slept w) (k + 2)).run (r.world w s (k + 1),
        log ++ .called (k + 1) (r.result w s (k + 1)) :: r.sleep (k + 1)) := by
  rw [runFrom_eq, run_bind_eq (run_called r w s k log)]
  cases hr : r.result w s (k + 1) with
  | ok => exact absurd (.inl hr) h
  | error f =>
    simp only
    rw [run_bind_eq (run_asked ..), again_of_not_final (Nat.le_add_left 1 k) h hr]
    simp only
    rw [run_slept, List.append_assoc]
    rfl

theorem execute_eq_runFrom (hk : ∀ l, 1 ≤ l → l ≤ k → ¬ r.Final w s l) :
    r.execute w s = (r.runFrom (asked w) (called w) (slept w) (k + 1)).run
      (r.world w s k, r.rounds w s k) := by
  induction k with
  | zero => rfl
  | succ k ih =>
    rw [ih fun l h₁ hl => hk l h₁ (Nat.le_succ_of_le hl),
      runFrom_of_not_final (hk (k + 1) (Nat.le_add_left 1 k) (Nat.le_refl _)), rounds_succ]

theorem exists_isLeast_final (r : Retrier) (w : Work σ) (s : σ) :
    ∃ n, IsLeast {n | 1 ≤ n ∧ r.Final w s n} n := by
  classical
  have h : ∃ n, 1 ≤ n ∧ r.Final w s n :=
    ⟨max 1 r.policy.maxAttempts.toNat, Nat.le_max_left .., .inr (.inr (Nat.le_max_right ..))⟩
  exact ⟨Nat.find h, Nat.find_spec h, fun _ hm => Nat.find_min' h hm⟩

theorem execute_eq_of_isLeast {n : Nat}
    (h : IsLeast {n | 1 ≤ n ∧ r.Final w s n} n) :
    r.execute w s = (⟨n, r.result w s n⟩, (w.attempt n (r.world w s (n - 1))).2,
      r.rounds w s (n - 1) ++ [.called n (r.result w s n)]) := by
  obtain ⟨⟨hn, hf⟩, hleast⟩ := h
  obtain ⟨k, rfl⟩ := Nat.exists_eq_add_of_le' hn
  rw [execute_eq_runFrom (k := k), runFrom_of_final hf, Nat.add_sub_cancel]
  intro l h₁ hl h
  exact Nat.not_succ_le_self k (Nat.le_trans (hleast ⟨h₁, h⟩) hl)

theorem filterMap_call?_rounds (r : Retrier) (w : Work σ) (s : σ) (k : Nat) :
    (r.rounds w s k).filterMap Step.call? = List.range' 1 k := by
  induction k with
  | zero => rfl
  | succ k ih =>
    have hs : (r.sleep (k + 1)).filterMap Step.call? = [] := by
      unfold sleep
      split <;> rfl
    rw [rounds_succ, List.filterMap_append, ih, List.range'_1_concat, Nat.add_comm 1 k]
    simp [Step.call?, hs]

theorem sum_sleep?_rounds (r : Retrier) (w : Work σ) (s : σ) (k : Nat) :
    ((r.rounds w s k).filterMap Step.sleep?).sum = ∑ l ∈ Finset.Ico 1 (k + 1), r.delay l := by
  induction k with
  | zero => rfl
  | succ k ih =>
    have hs : ((r.sleep (k + 1)).filterMap Step.sleep?).sum = r.delay (k + 1) := by
      unfold sleep
      split <;> simp [Step.sleep?, *]
    rw [rounds_succ, List.filterMap_append, List.sum_append, ih,
      Finset.sum_Ico_succ_top (Nat.le_add_left 1 k), List.filterMap_cons_none rfl, hs]

/--
The loop does what the policy says: attempts `1, …, n` in this order, up to the first that is
final, and between two of them the pause that the schedule has for the first of the two.
-/
theorem execute_ends_at_first_final (r : Retrier) (w : Work σ) (s : σ) :
    let (outcome, s', log) := r.execute w s
    let n := outcome.attempts
    IsLeast {n | 1 ≤ n ∧ r.Final w s n} n ∧
      outcome.result = r.result w s n ∧
      s' = (w.attempt n (r.world w s (n - 1))).2 ∧
      log = r.rounds w s (n - 1) ++ [.called n (r.result w s n)] ∧
      log.filterMap Step.call? = List.range' 1 n ∧
      (log.filterMap Step.sleep?).sum = ∑ k ∈ Finset.Ico 1 n, r.delay k ∧
      (∀ k, 1 ≤ k → k < n → r.delayAfter? k = some (r.delay k)) ∧
      n ≤ max 1 r.policy.maxAttempts.toNat ∧
      (∀ k f, 1 ≤ k → k ≤ n → r.result w s k = .error f →
        f.kind = .unready ∨ f.kind = .noProvider → k = n) ∧
      (r.policy.idempotentOnly = true →
        ∀ k, 1 ≤ k → k ≤ n → r.repeatable w s k = false → k = n) := by
  obtain ⟨n, h⟩ := exists_isLeast_final r w s
  obtain ⟨⟨hn, _⟩, hleast⟩ := id h
  rw [execute_eq_of_isLeast h]
  have hn' : n - 1 + 1 = n := Nat.sub_add_cancel hn
  refine ⟨h, rfl, rfl, rfl, ?_, ?_, ?_, ?_, ?_, ?_⟩
  · rw [List.filterMap_append, filterMap_call?_rounds, ← hn', List.range'_1_concat]
    simp [Step.call?, Nat.add_comm]
  · rw [List.filterMap_append, List.sum_append, sum_sleep?_rounds, hn']
    rfl
  · intro k h₁ hk
    have hk : ¬ r.policy.maxAttempts.toNat ≤ k := fun hm =>
      Nat.not_le_of_lt hk (hleast ⟨h₁, .inr (.inr hm)⟩)
    rw [delayAfter?_eq r h₁, if_neg hk]
  · exact hleast ⟨Nat.le_max_left .., .inr (.inr (Nat.le_max_right ..))⟩
  · intro k f h₁ hk hf hkind
    exact Nat.le_antisymm hk (hleast ⟨h₁, .inr (.inl ⟨f, hf, isRetryable_of_kind hkind⟩)⟩)
  · intro ho k h₁ hk hi
    refine Nat.le_antisymm hk (hleast ⟨h₁, ?_⟩)
    cases hr : r.result w s k with
    | ok => exact .inl hr
    | error f => exact .inr (.inl ⟨f, hr, isRetryable_of_idempotentOnly ho hi⟩)

end Loop

end Retrier

end Turnpike
