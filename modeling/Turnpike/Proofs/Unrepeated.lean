import Turnpike.Proofs.HookProtocol

namespace Turnpike

theorem Dialogue.record_bind {α β σ : Type} (answer : (q : Question) → σ → q.Answer × σ)
    (d : Dialogue α) (f : α → Dialogue β) (s : σ) :
    (d >>= f).record answer s =
      let r := d.record answer s
      (r.1 ++ ((f r.2.1).record answer r.2.2).1, ((f r.2.1).record answer r.2.2).2) := by
  induction d generalizing s with
  | done a => rfl
  | ask q next ih => simp only [ask_bind, record, ih, List.cons_append]

namespace Conduct

variable {α β σ : Type} {answer : (q : Question) → σ → q.Answer × σ} {i : Invocation} {s : σ}

def record (answer : (q : Question) → σ → q.Answer × σ) (c : Conduct α) (i : Invocation) (s : σ) :
    List Event × (α × Invocation) × σ :=
  (c.run i).record answer s

theorem runs_record (answer : (q : Question) → σ → q.Answer × σ) (c : Conduct α) (i : Invocation)
    (s : σ) :
    Runs c i (record answer c i s).1 (record answer c i s).2.1.1 (record answer c i s).2.1.2 :=
  Dialogue.runs_record answer _ s

theorem record_bind_eq_iff {c : Conduct α} {f g : α → Conduct β} :
    record answer (c >>= f) i s = record answer (c >>= g) i s ↔
      let r := record answer c i s
      record answer (f r.2.1.1) r.2.1.2 r.2.2 = record answer (g r.2.1.1) r.2.1.2 r.2.2 := by
  simp only [record, StateT.run_bind, Dialogue.record_bind, Prod.ext_iff,
    List.append_cancel_left_eq]

theorem snd_record_bind (c : Conduct α) (f : α → Conduct β) :
    (record answer (c >>= f) i s).2 =
      (let r := record answer c i s; record answer (f r.2.1.1) r.2.1.2 r.2.2).2 := by
  simp only [record, StateT.run_bind, Dialogue.record_bind]

@[simp] theorem record_pure (a : α) : record answer (pure a) i s = ([], (a, i), s) := rfl

@[simp] theorem record_get_bind {f : Invocation → Conduct β} :
    record answer (get >>= f) i s = record answer (f i) i s := rfl

def firstOutcome (stored : Option ServicePolicy) : Conduct (Option AttemptOutcome) := do
  match ← start stored with
  | some _ => return none
  | none => return some (← attempt)

end Conduct

theorem Retrier.again_eq_none_iff {retry : RetryPolicy} {schedule : Schedule} {idempotent : Bool}
    {f : Failure} : (Retrier.mk retry schedule).again idempotent 1 f = none ↔
      (1 < retry.maxAttempts → retry.isRetryable f idempotent = false) := by
  have hdelay : (Retrier.mk retry schedule).delayAfter? 1 = none ↔ ¬ 1 < retry.maxAttempts := by
    cases schedule <;>
      simp [delayAfter?, RetryPolicy.delay?, UInt32.lt_iff_toNat_lt]
  unfold again
  cases retry.isRetryable f idempotent with
  | false => simp
  | true => simpa using hdelay

namespace Conduct

open Invoker

variable {σ : Type} {answer : (q : Question) → σ → q.Answer × σ} {i : Invocation} {s : σ}

def repeated (r : Retrier) (idempotent : Bool) (o : AttemptOutcome) (ms : Nat) :
    Conduct (RetryOutcome × Option Response) :=
  (do
    if ms ≠ 0 then Invoker.pause ms
    r.runFrom (pure idempotent) retriedAttempt Invoker.pause 2 : Retried RetryOutcome).run
      (some o.response)

theorem run_runFrom (r : Retrier) (idempotent : Bool) (last : Option Response) :
    (r.runFrom (pure idempotent) retriedAttempt Invoker.pause 1).run last = (do
      let o ← attempt
      match o.failure.bind (r.again idempotent 1) with
      | none => return (⟨1, o.result⟩, some o.response)
      | some ms => repeated r idempotent o ms) := by
  rw [Retrier.runFrom_pure, run_retriedAttempt_bind]
  congr 1
  funext o
  cases hf : o.failure with
  | none => simp [AttemptOutcome.result, hf]
  | some f =>
    simp only [AttemptOutcome.result, hf, Option.bind_some]
    cases r.again idempotent 1 f with
    | none => rfl
    | some ms => rfl

theorem record_repeated_bind_ne {r : Retrier} {idempotent : Bool} {o : AttemptOutcome} {ms : Nat}
    {finish : RetryOutcome × Option Response → Conduct Response} {last : Response}
    (hfinish : ∀ outcome response, finish (outcome, some response) = pure response) :
    record answer (repeated r idempotent o ms >>= finish) i s ≠ record answer (pure last) i s := by
  intro heq
  obtain ⟨⟨outcome, _⟩, j, es, es', hr, hf, -⟩ :=
    runs_bind_iff.1 (runs_record answer (repeated r idempotent o ms >>= finish) i s)
  obtain ⟨es, hr, -⟩ := runs_pause_bind_iff.1 hr
  obtain ⟨n, response, hn, rfl⟩ := runs_runFrom_iff.1 ⟨outcome, hr⟩
  rw [hfinish] at hf
  obtain ⟨-, -, hj⟩ := runs_pure_iff.1 hf
  rw [heq] at hj
  have hattempts : i.attempts = i.attempts + n := (congrArg (·.attempts) hj).trans hn.attempts_eq
  have hpos := hn.pos
  omega

theorem record_underRetry_eq_iff {schedule : Schedule} {retry : RetryPolicy} :
    record answer (underRetry schedule.runner retry) i s =
        record answer (do return (← attempt).response) i s ↔
      (record answer attempt i s).2.1.1.failure.bind
        ((Retrier.mk retry schedule).again i.idempotent 1) = none := by
  simp only [underRetry, Schedule.runner, Retrier.run, run_runFrom, record_get_bind, bind_assoc]
  rw [record_bind_eq_iff]
  cases hagain : (record answer attempt i s).2.1.1.failure.bind
      ((Retrier.mk retry schedule).again i.idempotent 1) with
  | none => simp [hagain]
  | some ms =>
    simp only [hagain, reduceCtorEq, iff_false]
    exact record_repeated_bind_ne fun _ _ => rfl

end Conduct

/--
Failover and failfast differ in a call exactly if there is a retry rule that leaves a second attempt
and calls the failure of the first one retryable. If they do not differ, then in nothing: all is
asked and answered alike, the response and the invocation are the same, and so is the state of
those who answer, with all limiters, breakers, balancers and clocks that are in it.
-/
theorem failover_eq_failfast_iff {σ : Type} (answer : (q : Question) → σ → q.Answer × σ) (s : σ)
    (i : Invocation) (stored : Option ServicePolicy) (schedule : Schedule) :
    (((Invoker.failover schedule.runner).execute stored).run i).record answer s =
        ((Invoker.failfast.execute stored).run i).record answer s ↔
      ∀ retry o f, (i.policy <|> stored).bind (·.retry) = some retry → 1 < retry.maxAttempts →
        (((Conduct.firstOutcome stored).run i).record answer s).2.1.1 = some o →
        o.failure = some f → retry.isRetryable f i.idempotent = false := by
  have hi : (Conduct.record answer (Conduct.start stored) i s).2.1.2 = i.setDefaultPolicy stored :=
    (Conduct.runs_start_iff.1 (Conduct.runs_record answer (Conduct.start stored) i s)).1
  change Conduct.record answer _ i s = Conduct.record answer _ i s ↔
    ∀ retry o f, _ → _ → (Conduct.record answer _ i s).2.1.1 = _ → _
  unfold Invoker.failover Invoker.failfast Conduct.firstOutcome
  rw [Conduct.record_bind_eq_iff, Conduct.snd_record_bind]
  dsimp only
  rw [hi]
  generalize (Conduct.record answer (Conduct.start stored) i s).2.2 = s'
  cases (Conduct.record answer (Conduct.start stored) i s).2.1.1 with
  | some response => simp
  | none =>
    rw [Conduct.record_get_bind]
    change _ ↔ ∀ retry o f, (i.setDefaultPolicy stored).policy.bind (·.retry) = _ → _
    rw [Conduct.snd_record_bind]
    cases (i.setDefaultPolicy stored).policy.bind (·.retry) with
    | none => simp
    | some retry =>
      rw [Conduct.record_underRetry_eq_iff, Option.bind_eq_none_iff]
      simp only [Retrier.again_eq_none_iff, Conduct.record_pure, Option.some.injEq]
      constructor
      · rintro h _ _ f rfl hleft rfl hf
        exact h f hf hleft
      · intro h f hf hleft
        exact h retry _ f rfl hleft rfl hf

end Turnpike
