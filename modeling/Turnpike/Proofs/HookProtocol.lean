import Turnpike.Proofs.HookGrammar

namespace Turnpike

open Event (cluster context told)

/-! ### The runs of an attempt -/

namespace Conduct

variable {i j : Invocation} {es : List Event} {o : AttemptOutcome}

theorem runs_succeed_iff {e : Endpoint} {response : Response} :
    Runs (succeed e response) i es o j ↔
      es = succeeding i e response ∧ o = ⟨response, none⟩ ∧ j = (i.onSuccess e response).2 := by
  simp only [succeed, succeeding, runs_modifyGet_bind_iff, runs_tell_bind_iff, runs_get_bind_iff,
    runs_askCluster_bind_iff, runs_pure_iff]
  constructor
  · rintro ⟨_, ⟨_, _, ⟨rfl, rfl, rfl⟩, rfl⟩, rfl⟩
    exact ⟨rfl, rfl, rfl⟩
  · rintro ⟨rfl, rfl, rfl⟩
    exact ⟨_, ⟨(), _, ⟨rfl, rfl, rfl⟩, rfl⟩, rfl⟩

theorem runs_fail_iff {e : Option Endpoint} {f : Failure} :
    Runs (fail e f) i es o j ↔ ∃ response, es = failing i e f response ∧
      o = ⟨response, response.failure?⟩ ∧ j = (i.onFailure e f).2 := by
  simp only [fail, failing, runs_modifyGet_bind_iff, runs_tell_bind_iff, runs_get_bind_iff,
    runs_askCluster_bind_iff]
  rw [Invocation.request_onFailure]
  constructor
  · rintro ⟨_, ⟨response, es', h, rfl⟩, rfl⟩
    refine ⟨response, ?_⟩
    cases hr : response.failure? with
    | none =>
      rw [hr] at h
      obtain ⟨rfl, rfl, rfl⟩ := runs_pure_iff.1 h
      exact ⟨rfl, rfl, rfl⟩
    | some g =>
      rw [hr] at h
      obtain ⟨_, _, h', rfl⟩ := runs_askCluster_bind_iff.1 h
      obtain ⟨rfl, rfl, rfl⟩ := runs_pure_iff.1 h'
      exact ⟨rfl, rfl, rfl⟩
  · rintro ⟨response, rfl, rfl, rfl⟩
    refine ⟨_, ⟨response, _, ?_, rfl⟩, rfl⟩
    cases response.failure? with
    | none => exact runs_pure_iff.2 ⟨rfl, rfl, rfl⟩
    | some g => exact runs_askCluster_bind_iff.2 ⟨(), _, runs_pure_iff.2 ⟨rfl, rfl, rfl⟩, rfl⟩

theorem runs_candidates_iff {found : Except Failure (List Endpoint)} :
    Runs candidates i es found j ↔ Routed i es found j := by
  simp only [candidates, runs_get_bind_iff, runs_askContext_bind_iff]
  constructor
  · rintro ⟨mode, es', h, rfl⟩
    split at h
    · rename_i hmode
      obtain ⟨rfl, rfl, rfl⟩ := runs_pure_iff.1 h
      obtain rfl : mode = .reuse := hmode.1
      exact .reused (by simpa using hmode.2)
    · rename_i hmode
      have hmode : mode = .reroute ∨ i.instances = [] := by
        cases mode <;> simp_all
      obtain ⟨answer, _, h', rfl⟩ := runs_askCluster_bind_iff.1 h
      cases answer with
      | error f =>
        obtain ⟨rfl, rfl, rfl⟩ := runs_pure_iff.1 h'
        exact .asked hmode
      | ok found =>
        obtain ⟨rfl, rfl, rfl⟩ := runs_pure_iff.1 (runs_modify_bind_iff (f := fun _ => pure _).1 h')
        exact .asked hmode
  · intro h
    cases h with
    | reused hne =>
      refine ⟨.reuse, [], ?_, rfl⟩
      rw [if_pos ⟨rfl, by simpa using hne⟩]
      exact runs_pure_iff.2 ⟨rfl, rfl, rfl⟩
    | @asked mode _ hmode =>
      refine ⟨mode, _, ?_, rfl⟩
      rw [if_neg (by rintro ⟨rfl, h⟩; simp_all)]
      refine runs_askCluster_bind_iff.2 ⟨found, [], ?_, rfl⟩
      cases found with
      | error f => exact runs_pure_iff.2 ⟨rfl, rfl, rfl⟩
      | ok found => exact runs_modify_bind_iff.2 (runs_pure_iff.2 ⟨rfl, rfl, rfl⟩)

theorem runs_dispatch_iff {e : Endpoint} :
    Runs (dispatch e) i es o j ↔ Dispatched i e es o j := by
  simp only [dispatch, runs_get_bind_iff, runs_tell_bind_iff, runs_askCluster_bind_iff]
  constructor
  · rintro ⟨_, ⟨_, _, ⟨answer, es', h, rfl⟩, rfl⟩, rfl⟩
    rcases answer with f | reply | f
    · obtain ⟨response, rfl, rfl, rfl⟩ := runs_fail_iff.1 h
      have hd : Dispatched i e (dispatching i e (.error f) ++ failing i (some e) f response)
          ⟨response, response.failure?⟩ (i.onFailure (some e) f).2 := .failed (.inl rfl)
      simpa [dispatching] using hd
    · obtain ⟨rfl, rfl, rfl⟩ := runs_succeed_iff.1 h
      have hd := Dispatched.succeeded (i := i) (e := e) (r := reply)
      simpa [dispatching] using hd
    · obtain ⟨response, rfl, rfl, rfl⟩ := runs_fail_iff.1 h
      have hd : Dispatched i e
          (dispatching i e (.ok (.failure f)) ++ failing i (some e) f response)
          ⟨response, response.failure?⟩ (i.onFailure (some e) f).2 := .failed (.inr rfl)
      simpa [dispatching] using hd
  · intro h
    cases h with
    | @succeeded reply =>
      refine ⟨_, ⟨(), _, ⟨.ok (.success reply), _, ?_, rfl⟩, rfl⟩, List.append_assoc ..⟩
      exact runs_succeed_iff.2 ⟨rfl, rfl, rfl⟩
    | @failed answer f response hf =>
      refine ⟨_, ⟨(), _, ⟨answer, _, ?_, rfl⟩, rfl⟩, List.append_assoc ..⟩
      rcases hf with rfl | rfl <;> exact runs_fail_iff.2 ⟨response, rfl, rfl, rfl⟩

theorem runs_select_iff {found : List Endpoint} (h : found ≠ []) :
    Runs (select found) i es o j ↔
      (∃ es' f response, Refused i found es' f ∧ es = es' ++ failing i none f response ∧
        o = ⟨response, response.failure?⟩ ∧ j = (i.onFailure none f).2) ∨
      ∃ es' e admission, Dispatched (i.admittedBy admission) e es' o j ∧
        es = context (.select i (i.untried found)) (.ok (e, admission)) :: es' := by
  simp only [select, runs_get_bind_iff, runs_askContext_bind_iff]
  constructor
  · rintro ⟨answer, es', hr, rfl⟩
    rcases answer with (r | service | f) | ⟨e, admission⟩
    · obtain ⟨f, _, hf, rfl⟩ := runs_askCluster_bind_iff.1 hr
      obtain ⟨response, rfl, rfl, rfl⟩ := runs_fail_iff.1 hf
      exact .inl ⟨_, f, response, .rejected h, rfl, rfl, rfl⟩
    · obtain ⟨f, _, hf, rfl⟩ := runs_askCluster_bind_iff.1 hr
      obtain ⟨response, rfl, rfl, rfl⟩ := runs_fail_iff.1 hf
      exact .inl ⟨_, f, response, .noProvider h, rfl, rfl, rfl⟩
    · obtain ⟨response, rfl, rfl, rfl⟩ := runs_fail_iff.1 hr
      exact .inl ⟨_, f, response, .failed h, rfl, rfl, rfl⟩
    · refine .inr ⟨es', e, admission, ?_, rfl⟩
      cases admission with
      | none => exact runs_dispatch_iff.1 hr
      | some breaker =>
        exact runs_dispatch_iff.1 (runs_modify_bind_iff (f := fun _ => dispatch e).1 hr)
  · rintro (⟨es', f, response, hr, rfl, rfl, rfl⟩ | ⟨es', e, admission, hd, rfl⟩)
    · have hfail := runs_fail_iff (i := i) (e := none) (f := f).2 ⟨response, rfl, rfl, rfl⟩
      cases hr with
      | nobody hn => exact absurd hn h
      | @rejected r =>
        exact ⟨.error (.rejected r), _, runs_askCluster_bind_iff.2 ⟨f, _, hfail, rfl⟩, rfl⟩
      | @noProvider service =>
        exact ⟨.error (.noProvider service), _, runs_askCluster_bind_iff.2 ⟨f, _, hfail, rfl⟩, rfl⟩
      | failed => exact ⟨.error (.failed f), _, hfail, rfl⟩
    · refine ⟨.ok (e, admission), es', ?_, rfl⟩
      cases admission with
      | none => exact runs_dispatch_iff.2 hd
      | some breaker =>
        exact runs_modify_bind_iff (f := fun _ => dispatch e).2 (runs_dispatch_iff.2 hd)

theorem runs_attempt_iff : Runs attempt i es o j ↔ Attempted i es o j := by
  simp only [attempt, runs_modifyGet_bind_iff, runs_tell_bind_iff]
  constructor
  · rintro ⟨_, h, rfl⟩
    obtain ⟨found, k, es₁, es₂, hc, hf, rfl⟩ := runs_bind_iff.1 h
    have hc := runs_candidates_iff.1 hc
    rw [← List.append_assoc]
    rcases found with f | ⟨_ | ⟨e, rest⟩⟩
    · obtain ⟨response, rfl, rfl, rfl⟩ := runs_fail_iff.1 hf
      exact .unrouted hc
    · obtain ⟨f, _, hf', rfl⟩ := runs_askCluster_bind_iff.1 (runs_get_bind_iff.1 hf)
      obtain ⟨response, rfl, rfl, rfl⟩ := runs_fail_iff.1 hf'
      have ha : Attempted i _ ⟨response, response.failure?⟩ _ :=
        .refused hc (.nobody (f := f) rfl)
      simpa using ha
    · rcases (runs_select_iff (List.cons_ne_nil e rest)).1 hf with
        ⟨es', f, response, hr, rfl, rfl, rfl⟩ | ⟨es', e', admission, hd, rfl⟩
      · rw [← List.append_assoc]
        exact .refused hc hr
      · exact .dispatched hc (List.cons_ne_nil e rest) hd
  · intro h
    cases h with
    | @unrouted es₁ f k response hc =>
      refine ⟨_, runs_bind_iff.2 ⟨_, _, _, _, runs_candidates_iff.2 hc, ?_, rfl⟩,
        List.append_assoc ..⟩
      exact runs_fail_iff.2 ⟨response, rfl, rfl, rfl⟩
    | @refused es₁ es₂ found k f response hc hr =>
      refine ⟨_, runs_bind_iff.2 ⟨_, _, _, es₂ ++ failing k none f response,
        runs_candidates_iff.2 hc, ?_, rfl⟩, by simp⟩
      rcases found with _ | ⟨e, rest⟩
      · cases hr with
        | nobody => exact runs_get_bind_iff.2 (runs_askCluster_bind_iff.2
          ⟨f, _, runs_fail_iff.2 ⟨response, rfl, rfl, rfl⟩, rfl⟩)
        | rejected h | noProvider h | failed h => exact absurd rfl h
      · exact (runs_select_iff (List.cons_ne_nil e rest)).2
          (.inl ⟨es₂, f, response, hr, rfl, rfl, rfl⟩)
    | @dispatched es₁ es₂ found k _ e admission _ hc hne hd =>
      refine ⟨_, runs_bind_iff.2 ⟨_, _, _, _, runs_candidates_iff.2 hc, ?_, rfl⟩,
        List.append_assoc ..⟩
      rcases found with _ | ⟨e', rest⟩
      · exact absurd rfl hne
      · exact (runs_select_iff (List.cons_ne_nil e' rest)).2 (.inr ⟨es₂, e, admission, hd, rfl⟩)

theorem runs_start_iff {policy : Option ServicePolicy} {response? : Option Response} :
    Runs (start policy) i es response? j ↔ j = i.setDefaultPolicy policy ∧
      (response? = none ∧ Opened j es ∨
        ∃ response, response? = some response ∧ Barred j es response) := by
  simp only [start, runs_modify_bind_iff, runs_get_bind_iff, runs_askCluster_bind_iff,
    runs_askContext_bind_iff]
  constructor
  · rintro ⟨_, _, ⟨r, es', h, rfl⟩, rfl⟩
    cases hr : r.outbound with
    | true =>
      rw [if_pos hr] at h
      obtain ⟨rfl, rfl, rfl⟩ := runs_pure_iff.1 h
      exact ⟨rfl, .inl ⟨rfl, .ready hr⟩⟩
    | false =>
      rw [if_neg (by simp [hr])] at h
      obtain ⟨f, es', h', rfl⟩ := runs_askCluster_bind_iff.1 h
      cases f with
      | none =>
        obtain ⟨rfl, rfl, rfl⟩ := runs_pure_iff.1 h'
        exact ⟨rfl, .inl ⟨rfl, .letThrough hr⟩⟩
      | some f =>
        obtain ⟨response, _, h'', rfl⟩ := runs_askCluster_bind_iff.1 h'
        obtain ⟨rfl, rfl, rfl⟩ := runs_pure_iff.1 h''
        exact ⟨rfl, .inr ⟨response, rfl, .unready hr⟩⟩
  · rintro ⟨rfl, ⟨rfl, h⟩ | ⟨response, rfl, h⟩⟩
    · cases h with
      | @ready r hr =>
        refine ⟨(), _, ⟨r, [], ?_, rfl⟩, rfl⟩
        rw [if_pos hr]
        exact runs_pure_iff.2 ⟨rfl, rfl, rfl⟩
      | @letThrough r hr =>
        refine ⟨(), _, ⟨r, _, ?_, rfl⟩, rfl⟩
        rw [if_neg (by simp [hr])]
        exact runs_askCluster_bind_iff.2 ⟨none, [], runs_pure_iff.2 ⟨rfl, rfl, rfl⟩, rfl⟩
    · cases h with
      | @unready r f _ hr =>
        refine ⟨(), _, ⟨r, _, ?_, rfl⟩, rfl⟩
        rw [if_neg (by simp [hr])]
        exact runs_askCluster_bind_iff.2 ⟨some f, _,
          runs_askCluster_bind_iff.2 ⟨response, [], runs_pure_iff.2 ⟨rfl, rfl, rfl⟩, rfl⟩, rfl⟩

end Conduct

/-! ### The runs of a retrier -/

namespace Retrier

theorem lt_of_again_eq_some {r : Retrier} {idempotent : Bool} {attempt ms : Nat} {f : Failure}
    (h : r.again idempotent attempt f = some ms) : attempt < r.policy.maxAttempts.toNat := by
  unfold again at h
  split at h
  · exact lt_of_delayAfter?_eq_some h
  · cases h

section Run

variable {m : Type → Type} [Monad m]

theorem runFrom_eq (r : Retrier) (idempotent : m Bool) (work : Nat → m (Except Failure Unit))
    (pause : Nat → m Unit) (attempt : Nat) :
    r.runFrom idempotent work pause attempt = (do
      match ← work attempt with
      | .ok () => return ⟨attempt, .ok ()⟩
      | .error failure =>
        match r.again (← idempotent) attempt failure with
        | none => return ⟨attempt, .error failure⟩
        | some ms =>
          if ms ≠ 0 then pause ms
          r.runFrom idempotent work pause (attempt + 1)) := by
  rw [runFrom]
  congr 1
  funext result
  rcases result with f | ⟨⟩
  · change (idempotent >>= _) = (idempotent >>= _)
    congr 1
    funext safe
    by_cases h : r.policy.isRetryable f safe
    · simp only [again, h, if_true, Bool.not_true, Bool.false_eq_true, if_false]
      split <;> rename_i hd
      · rw [hd]
      · rw [hd]
    · simp [again, h]
  · rfl

theorem runFrom_pure [LawfulMonad m] (r : Retrier) (safe : Bool)
    (work : Nat → m (Except Failure Unit))
    (pause : Nat → m Unit) (attempt : Nat) :
    r.runFrom (pure safe) work pause attempt = (do
      match ← work attempt with
      | .ok () => return ⟨attempt, .ok ()⟩
      | .error failure =>
        match r.again safe attempt failure with
        | none => return ⟨attempt, .error failure⟩
        | some ms =>
          if ms ≠ 0 then pause ms
          r.runFrom (pure safe) work pause (attempt + 1)) := by
  rw [runFrom_eq]
  simp only [pure_bind]

end Run

end Retrier

namespace Conduct

open Invoker (retriedAttempt)

variable {α : Type} {i j : Invocation} {es : List Event}

theorem run_retriedAttempt_bind (k : Nat) (f : Except Failure Unit → Retried α)
    (last : Option Response) :
    (retriedAttempt k >>= f).run last =
      (attempt >>= fun o => (f o.result).run (some o.response) :
        Conduct (α × Option Response)) := by
  simp [retriedAttempt]

theorem run_pause_bind (ms : Nat) (c : Retried α) (last : Option Response) :
    (do
      if ms ≠ 0 then Invoker.pause ms
      c : Retried α).run last =
      if ms = 0 then c.run last
      else (do
        let i ← get
        ask (.sleep i ms)
        c.run last : Conduct (α × Option Response)) := by
  by_cases h : ms = 0
  · simp [h]
  · simp only [h, Invoker.pause, ne_eq, not_false_eq_true, if_true, if_false, bind_assoc,
      StateT.run_bind, StateT.run_monadLift, monadLift_self, pure_bind]

theorem runs_retriedAttempt_bind_iff {k : Nat} {f : Except Failure Unit → Retried α}
    {last : Option Response} {b : α × Option Response} :
    Runs ((retriedAttempt k >>= f).run last) i es b j ↔
      ∃ o i' es₁ es₂, Attempted i es₁ o i' ∧
        Runs ((f o.result).run (some o.response)) i' es₂ b j ∧ es = es₁ ++ es₂ := by
  simp only [run_retriedAttempt_bind, runs_bind_iff, runs_attempt_iff]

theorem runs_pause_bind_iff {ms : Nat} {c : Retried α} {last : Option Response}
    {b : α × Option Response} :
    Runs ((do
      if ms ≠ 0 then Invoker.pause ms
      c : Retried α).run last) i es b j ↔
      ∃ es', Runs (c.run last) i es' b j ∧ es = Event.pause i ms ++ es' := by
  rw [run_pause_bind]
  by_cases h : ms = 0
  · simp [Event.pause, h]
  · simp only [Event.pause, if_neg h, runs_get_bind_iff, runs_ask_bind_iff]
    constructor
    · rintro ⟨_, es', hc, rfl⟩
      exact ⟨es', hc, rfl⟩
    · rintro ⟨es', hc, rfl⟩
      exact ⟨(), es', hc, rfl⟩

theorem runs_runFrom_iff {r : Retrier} {idempotent : Bool} {k : Nat}
    {last last' : Option Response} :
    (∃ outcome, Runs ((r.runFrom (pure idempotent) retriedAttempt Invoker.pause k).run last) i es
        (outcome, last') j) ↔
      ∃ n response, Attempts (r.again idempotent) k i n es response j ∧ last' = some response := by
  induction hm : r.policy.maxAttempts.toNat - k using Nat.strongRecOn
    generalizing k i es last with
  | ind m ih =>
    rw [Retrier.runFrom_pure]
    simp only [runs_retriedAttempt_bind_iff]
    constructor
    · rintro ⟨outcome, o, i', es₁, es₂, ha, hr, rfl⟩
      cases hf : o.failure with
      | none =>
        simp only [AttemptOutcome.result, hf] at hr
        obtain ⟨rfl, h, rfl⟩ := runs_pure_iff.1 hr
        cases h
        exact ⟨1, o.response, by simpa using .last ha (by simp [hf]), rfl⟩
      | some f =>
        simp only [AttemptOutcome.result, hf] at hr
        cases hg : r.again idempotent k f with
        | none =>
          rw [hg] at hr
          obtain ⟨rfl, h, rfl⟩ := runs_pure_iff.1 hr
          cases h
          exact ⟨1, o.response, by simpa using .last ha (by simpa [hf] using hg), rfl⟩
        | some ms =>
          rw [hg] at hr
          have hlt := Retrier.lt_of_again_eq_some hg
          obtain ⟨es', hr', rfl⟩ := runs_pause_bind_iff.1 hr
          obtain ⟨n, response, hs, rfl⟩ := (ih _ (by omega) rfl).1 ⟨outcome, hr'⟩
          rw [← List.append_assoc]
          exact ⟨n + 1, response, .again ha (by simpa [hf] using hg) hs, rfl⟩
    · rintro ⟨n, response, hs, rfl⟩
      cases hs with
      | @last _ _ _ _ o ha hn =>
        refine ⟨⟨k, o.result⟩, o, j, es, [], ha, ?_, by simp⟩
        cases hf : o.failure with
        | none => simp [AttemptOutcome.result, hf, runs_pure_iff]
        | some f =>
          rw [hf] at hn
          simp only [Option.bind_some] at hn
          simp [AttemptOutcome.result, hf, hn, runs_pure_iff]
      | @again _ n' ms _ i' _ es₁ es₂ o _ ha hn hs =>
        obtain ⟨f, hf, hg⟩ := Option.bind_eq_some_iff.1 hn
        have hlt := Retrier.lt_of_again_eq_some hg
        obtain ⟨outcome, hr⟩ := (ih _ (by omega) rfl).2 ⟨n', response, hs, rfl⟩
        refine ⟨outcome, o, i', es₁, Event.pause i' ms ++ es₂, ha, ?_, List.append_assoc ..⟩
        simp only [AttemptOutcome.result, hf, hg]
        exact runs_pause_bind_iff.2 ⟨es₂, hr, rfl⟩

end Conduct

/-! ### The runs of an invoker -/

namespace Conduct

open Invoker

variable {i j : Invocation} {es : List Event} {response : Response}

theorem runs_underRetry_iff {s : Schedule} {retry : RetryPolicy} :
    Runs (underRetry s.runner retry) i es response j ↔
      ∃ n, Attempts ((Retrier.mk retry s).again i.idempotent) 1 i n es response j := by
  simp only [underRetry, runs_get_bind_iff, Schedule.runner, Retrier.run]
  rw [runs_bind_iff]
  constructor
  · rintro ⟨⟨outcome, last⟩, k, es₁, es₂, hr, hf, rfl⟩
    obtain ⟨n, response', ha, rfl⟩ := runs_runFrom_iff.1 ⟨outcome, hr⟩
    obtain ⟨rfl, rfl, rfl⟩ := runs_pure_iff.1 hf
    exact ⟨n, by simpa using ha⟩
  · rintro ⟨n, ha⟩
    obtain ⟨outcome, hr⟩ : ∃ outcome, Runs
        (((Retrier.mk retry s).runFrom (pure i.idempotent) retriedAttempt Invoker.pause 1).run none)
        i es (outcome, some response) j :=
      runs_runFrom_iff.2 ⟨n, response, ha, rfl⟩
    exact ⟨(outcome, some response), j, es, [], hr, runs_pure_iff.2 ⟨rfl, rfl, rfl⟩, by simp⟩

theorem runs_gated_iff {policy : Option ServicePolicy} {again : Again} {c : Conduct Response}
    (hc : ∀ {es}, Runs c (i.setDefaultPolicy policy) es response j ↔
      ∃ n, Attempts again 1 (i.setDefaultPolicy policy) n es response j) :
    Runs (do match ← start policy with
      | some response => return response
      | none => c) i es response j ↔
      ∃ n, Invoked again (i.setDefaultPolicy policy) n es response j := by
  rw [runs_bind_iff]
  constructor
  · rintro ⟨_, _, es₁, es₂, hs, h, rfl⟩
    obtain ⟨rfl, ⟨rfl, ho⟩ | ⟨r, rfl, hb⟩⟩ := runs_start_iff.1 hs
    · obtain ⟨n, ha⟩ := hc.1 h
      exact ⟨n, .attempted ho ha⟩
    · obtain ⟨rfl, rfl, rfl⟩ := runs_pure_iff.1 h
      exact ⟨0, by simpa using .refused hb⟩
  · rintro ⟨n, h⟩
    cases h with
    | refused hb =>
      exact ⟨some response, _, es, [], runs_start_iff.2 ⟨rfl, .inr ⟨response, rfl, hb⟩⟩,
        runs_pure_iff.2 ⟨rfl, rfl, rfl⟩, by simp⟩
    | attempted ho ha =>
      exact ⟨none, _, _, _, runs_start_iff.2 ⟨rfl, .inl ⟨rfl, ho⟩⟩, hc.2 ⟨n, ha⟩, rfl⟩

theorem runs_single_iff :
    Runs (do return (← attempt).response) i es response j ↔
      ∃ n, Attempts .never 1 i n es response j := by
  simp only [runs_bind_iff, runs_attempt_iff, runs_pure_iff, Attempts.once_iff]
  constructor
  · rintro ⟨o, _, es, _, ha, ⟨rfl, rfl, rfl⟩, rfl⟩
    exact ⟨1, rfl, o, by simpa using ha, rfl⟩
  · rintro ⟨_, rfl, o, ha, rfl⟩
    exact ⟨o, j, es, [], ha, ⟨rfl, rfl, rfl⟩, by simp⟩

theorem runs_failfast_iff {policy : Option ServicePolicy} :
    Runs (failfast.execute policy) i es response j ↔
      ∃ n, Invoked .never (i.setDefaultPolicy policy) n es response j :=
  runs_gated_iff runs_single_iff

theorem runs_failover_iff {s : Schedule} {policy : Option ServicePolicy} :
    Runs ((failover s.runner).execute policy) i es response j ↔
      ∃ n, Invoked (s.again (i.setDefaultPolicy policy)) (i.setDefaultPolicy policy) n es
        response j := by
  refine runs_gated_iff fun {es} => ?_
  rw [runs_get_bind_iff]
  unfold Schedule.again
  cases (i.setDefaultPolicy policy).policy.bind (·.retry) with
  | none => exact runs_single_iff
  | some retry => exact runs_underRetry_iff

end Conduct

end Turnpike
