import Turnpike.Proofs.Engines
import Turnpike.Proofs.RetryBudget

/-!
What a call sees of the stored policy while its application is not governed. The context ignores
the policy then; the engine does not: the policy still names the invoker, and brings its retry rule
and its routing mode.
-/

namespace Turnpike

/-! ### Invocations under another policy -/

namespace Invocation

def under (i : Invocation) (policy : Option ServicePolicy) : Invocation := { i with policy }

variable (i : Invocation) (policy : Option ServicePolicy)

@[simp] theorem policy_under : (i.under policy).policy = policy := rfl

@[simp] theorem instances_under : (i.under policy).instances = i.instances := rfl

theorem snd_setInstances_under (es : List Endpoint) :
    ((i.under policy).setInstances es).2 = (i.setInstances es).2.under policy := by
  cases h : i.instances.isEmpty <;> simp [setInstances, h, under]

theorem onFailure_under (e : Option Endpoint) (f : Failure) : (i.under policy).onFailure e f =
    ((i.onFailure e f).1, (i.onFailure e f).2.under policy) := by
  refine Prod.ext rfl ?_
  unfold onFailure markFailed under
  dsimp only
  split
  · split <;> rfl
  · rfl

end Invocation

/-! ### Dialogues of invocations that differ in their policies -/

/-- Two dialogues that differ only in the policy of the invocation. -/
inductive Dialogue.Twin {α : Type} (p p' : Option ServicePolicy) :
    Dialogue (α × Invocation) → Dialogue (α × Invocation) → Prop
  | done (a : α) (i : Invocation) : Twin p p' (.done (a, i.under p)) (.done (a, i.under p'))
  | same {q : Question} {next next' : q.Answer → Dialogue (α × Invocation)} :
    (∀ a, Twin p p' (next a) (next' a)) → Twin p p' (.ask q next) (.ask q next')
  | route {i : Invocation}
      {next next' : Except Failure (List Endpoint) → Dialogue (α × Invocation)} :
    (∀ a, Twin p p' (next a) (next' a)) →
    Twin p p' (.ask (.cluster (.route (i.under p))) next)
      (.ask (.cluster (.route (i.under p'))) next')
  | invoke {i : Invocation} {e : Endpoint}
      {next next' : Except Failure Response → Dialogue (α × Invocation)} :
    (∀ a, Twin p p' (next a) (next' a)) →
    Twin p p' (.ask (.cluster (.invoke (i.under p) e)) next)
      (.ask (.cluster (.invoke (i.under p') e)) next')
  | routingMode {i : Invocation} {next next' : RoutingMode → Dialogue (α × Invocation)} :
    (∀ a, Twin p p' (next a) (next' a)) →
    Twin p p' (.ask (.context (.routingMode (i.under p))) next)
      (.ask (.context (.routingMode (i.under p'))) next')
  | select {i : Invocation} {candidates : List Endpoint}
      {next next' : Except RouteError (Endpoint × Option BreakerId) → Dialogue (α × Invocation)} :
    (∀ a, Twin p p' (next a) (next' a)) →
    Twin p p' (.ask (.context (.select (i.under p) candidates)) next)
      (.ask (.context (.select (i.under p') candidates)) next')
  | sleep {i : Invocation} {ms : Nat} {next next' : Unit → Dialogue (α × Invocation)} :
    (∀ a, Twin p p' (next a) (next' a)) →
    Twin p p' (.ask (.sleep (i.under p) ms) next) (.ask (.sleep (i.under p') ms) next')

theorem Dialogue.Twin.bind {α β : Type} {p p' : Option ServicePolicy}
    {d d' : Dialogue (α × Invocation)} {f f' : α × Invocation → Dialogue (β × Invocation)}
    (h : Twin p p' d d')
    (hf : ∀ a (i : Invocation), Twin p p' (f (a, i.under p)) (f' (a, i.under p'))) :
    Twin p p' (d >>= f) (d' >>= f') := by
  induction h with
  | done a i => exact hf a i
  | same _ ih => exact .same ih
  | route _ ih => exact .route ih
  | invoke _ ih => exact .invoke ih
  | routingMode _ ih => exact .routingMode ih
  | select _ ih => exact .select ih
  | sleep _ ih => exact .sleep ih

namespace Conduct

variable {α β : Type} {p p' : Option ServicePolicy} {i j : Invocation}

def Twin (p p' : Option ServicePolicy) (c c' : Conduct α) (i : Invocation) : Prop :=
  Dialogue.Twin p p' (c.run (i.under p)) (c'.run (i.under p'))

theorem twin_pure (a : α) : Twin p p' (pure a) (pure a) i := .done a i

theorem Twin.bind {c c' : Conduct α} {f f' : α → Conduct β} (h : Twin p p' c c' i)
    (hf : ∀ a j, Twin p p' (f a) (f' a) j) : Twin p p' (c >>= f) (c' >>= f') i := by
  unfold Twin
  rw [StateT.run_bind, StateT.run_bind]
  exact Dialogue.Twin.bind h hf

@[simp] theorem twin_get_bind_iff {f f' : Invocation → Conduct β} :
    Twin p p' (get >>= f) (get >>= f') i ↔ Twin p p' (f (i.under p)) (f' (i.under p')) i :=
  Iff.rfl

theorem twin_modify_bind {g : Invocation → Invocation} {f f' : PUnit → Conduct β}
    (hg : ∀ p, g (i.under p) = (g i).under p) (h : Twin p p' (f ⟨⟩) (f' ⟨⟩) (g i)) :
    Twin p p' (modify g >>= f) (modify g >>= f') i := by
  change Dialogue.Twin p p' ((f ⟨⟩).run (g (i.under p))) ((f' ⟨⟩).run (g (i.under p')))
  rw [hg, hg]
  exact h

theorem twin_modifyGet_bind {g : Invocation → α × Invocation} {f f' : α → Conduct β}
    (hg : ∀ p, g (i.under p) = ((g i).1, (g i).2.under p))
    (h : Twin p p' (f (g i).1) (f' (g i).1) (g i).2) :
    Twin p p' (modifyGet g >>= f) (modifyGet g >>= f') i := by
  change Dialogue.Twin p p' ((f (g (i.under p)).1).run (g (i.under p)).2)
    ((f' (g (i.under p')).1).run (g (i.under p')).2)
  rw [hg, hg]
  exact h

theorem twin_askCluster_bind {call : ClusterCall} {f f' : call.Answer → Conduct β}
    (h : ∀ a, Twin p p' (f a) (f' a) i) :
    Twin p p' (bind (α := no_index call.Answer) (askCluster call) f)
      (bind (α := no_index call.Answer) (askCluster call) f') i :=
  .same h

theorem twin_askContext_bind {call : ContextCall} {f f' : call.Answer → Conduct β}
    (h : ∀ a, Twin p p' (f a) (f' a) i) :
    Twin p p' (bind (α := no_index call.Answer) (askContext call) f)
      (bind (α := no_index call.Answer) (askContext call) f') i :=
  .same h

theorem twin_tell_bind {signals : List Signal} {f f' : PUnit → Conduct β}
    (h : Twin p p' (f ⟨⟩) (f' ⟨⟩) i) :
    Twin p p' (tell signals >>= f) (tell signals >>= f') i := by
  induction signals with
  | nil => exact h
  | cons s signals ih => exact Dialogue.Twin.same fun _ => ih

theorem twin_routingMode_bind {f f' : RoutingMode → Conduct β} (h : ∀ a, Twin p p' (f a) (f' a) i) :
    Twin p p' (askContext (.routingMode (i.under p)) >>= f)
      (askContext (.routingMode (i.under p')) >>= f') i :=
  .routingMode h

theorem twin_route_bind {f f' : Except Failure (List Endpoint) → Conduct β}
    (h : ∀ a, Twin p p' (f a) (f' a) i) :
    Twin p p' (askCluster (.route (i.under p)) >>= f)
      (askCluster (.route (i.under p')) >>= f') i :=
  .route h

/-! ### The parts of an invocation -/

theorem twin_succeed (e : Endpoint) (response : Response) :
    Twin p p' (succeed e response) (succeed e response) i := by
  refine twin_modifyGet_bind (fun _ => rfl) ?_
  apply twin_tell_bind
  apply twin_get_bind_iff.2
  apply twin_askCluster_bind
  intro _
  exact twin_pure _

theorem twin_fail (e : Option Endpoint) (f : Failure) :
    Twin p p' (fail e f) (fail e f) i := by
  refine twin_modifyGet_bind (i.onFailure_under · e f) ?_
  apply twin_tell_bind
  apply twin_get_bind_iff.2
  apply twin_askCluster_bind
  intro response
  cases response.failure? with
  | none => exact twin_pure _
  | some f => exact twin_askCluster_bind fun _ => twin_pure _

theorem twin_candidates : Twin p p' candidates candidates i := by
  apply twin_get_bind_iff.2
  apply twin_routingMode_bind
  intro mode
  by_cases h : mode = .reuse ∧ (!i.instances.isEmpty) = true
  · rw [Invocation.instances_under, Invocation.instances_under, if_pos h, if_pos h]
    exact twin_pure _
  · rw [Invocation.instances_under, Invocation.instances_under, if_neg h, if_neg h]
    apply twin_route_bind
    rintro (f | found)
    · exact twin_pure _
    · exact twin_modify_bind (i.snd_setInstances_under · found) (twin_pure _)

theorem twin_dispatch (e : Endpoint) : Twin p p' (dispatch e) (dispatch e) i := by
  apply twin_get_bind_iff.2
  apply twin_tell_bind
  apply twin_get_bind_iff.2
  apply twin_askCluster_bind
  intro _
  apply twin_get_bind_iff.2
  apply Dialogue.Twin.invoke
  rintro (f | reply | f)
  · exact twin_fail _ _
  · exact twin_succeed _ _
  · exact twin_fail _ _

theorem twin_select (found : List Endpoint) : Twin p p' (select found) (select found) i := by
  apply twin_get_bind_iff.2
  apply Dialogue.Twin.select
  rintro ((r | service | f) | ⟨e, _ | b⟩)
  · exact twin_askCluster_bind fun f => twin_fail _ f
  · exact twin_askCluster_bind fun f => twin_fail _ f
  · exact twin_fail _ _
  · exact twin_dispatch e
  · exact twin_modify_bind (fun _ => rfl) (twin_dispatch e)

theorem twin_attempt : Twin p p' attempt attempt i := by
  refine twin_modifyGet_bind (fun _ => rfl) ?_
  apply twin_tell_bind
  apply twin_candidates.bind
  rintro (f | ⟨_ | ⟨e, rest⟩⟩) j
  · exact twin_fail _ _
  · exact twin_askCluster_bind fun f => twin_fail _ f
  · exact twin_select _

theorem twin_runFrom {r : Retrier} {idempotent : Bool} {k : Nat} {last : Option Response} :
    Twin p p' ((r.runFrom (pure idempotent) Invoker.retriedAttempt Invoker.pause k).run last)
      ((r.runFrom (pure idempotent) Invoker.retriedAttempt Invoker.pause k).run last) i := by
  induction hm : r.policy.maxAttempts.toNat - k using Nat.strongRecOn generalizing k i last with
  | ind m ih =>
    rw [Retrier.runFrom_pure, run_retriedAttempt_bind]
    apply twin_attempt.bind
    intro o j
    cases hf : o.failure with
    | none =>
      simp only [AttemptOutcome.result, hf]
      exact twin_pure _
    | some f =>
      simp only [AttemptOutcome.result, hf]
      cases hg : r.again idempotent k f with
      | none => exact twin_pure _
      | some ms =>
        have hlt := Retrier.lt_of_again_eq_some hg
        rw [run_pause_bind]
        split
        · exact ih _ (by omega) rfl
        · exact Dialogue.Twin.sleep fun _ => ih _ (by omega) rfl

theorem twin_single : Twin p p' (do return (← attempt).response)
    (do return (← attempt).response) i :=
  twin_attempt.bind fun _ _ => twin_pure _

theorem twin_underRetry {s : Schedule} {retry : RetryPolicy} :
    Twin p p' (Invoker.underRetry s.runner retry) (Invoker.underRetry s.runner retry) i := by
  apply twin_get_bind_iff.2
  apply twin_runFrom.bind
  rintro ⟨outcome, last⟩ j
  cases last with
  | none => exact twin_askCluster_bind fun _ => twin_pure _
  | some response => exact twin_pure _

theorem run_modify_bind {g : Invocation → Invocation} {f : PUnit → Conduct β} :
    (modify g >>= f).run i = (f ⟨⟩).run (g i) := rfl

theorem twin_start (hi : i.policy = none) :
    Dialogue.Twin p p' ((start p).run i) ((start p').run i) := by
  have hset (q : Option ServicePolicy) : i.setDefaultPolicy q = i.under q := by
    simp [Invocation.setDefaultPolicy, Invocation.under, hi]
  rw [start, start, run_modify_bind, run_modify_bind, hset, hset]
  change Twin p p' _ _ i
  apply twin_get_bind_iff.2
  apply twin_askCluster_bind
  intro _
  apply twin_askContext_bind
  intro readiness
  split
  · exact twin_pure _
  · apply twin_askCluster_bind
    rintro (_ | f)
    · exact twin_pure _
    · exact twin_askCluster_bind fun _ => twin_pure _

theorem twin_gated {c c' : Conduct Response} (hi : i.policy = none)
    (hc : ∀ j, Twin p p' c c' j) :
    Dialogue.Twin p p'
      ((do match ← start p with
        | some response => return response
        | none => c : Conduct Response).run i)
      ((do match ← start p' with
        | some response => return response
        | none => c' : Conduct Response).run i) := by
  rw [StateT.run_bind, StateT.run_bind]
  apply (twin_start hi).bind
  rintro (_ | response) j
  · exact hc j
  · exact twin_pure _

theorem twin_failfast (hi : i.policy = none) :
    Dialogue.Twin p p' ((Invoker.failfast.execute p).run i) ((Invoker.failfast.execute p').run i) :=
  twin_gated hi fun _ => twin_single

theorem twin_failover {s : Schedule} (hi : i.policy = none)
    (hretry : p.bind (·.retry) = p'.bind (·.retry)) :
    Dialogue.Twin p p' (((Invoker.failover s.runner).execute p).run i)
      (((Invoker.failover s.runner).execute p').run i) := by
  apply twin_gated hi
  intro j
  apply twin_get_bind_iff.2
  -- The rule is read off what the invocation has taken on, governed or not.
  rw [Invocation.policy_under, Invocation.policy_under, hretry]
  cases p'.bind (·.retry) with
  | none => exact twin_single
  | some retry => exact twin_underRetry

end Conduct

/-! ### Answers while the application is not governed -/

def Event.bare : Event → Event
  | ⟨.cluster (.route i), a⟩ => ⟨.cluster (.route (i.under none)), a⟩
  | ⟨.cluster (.invoke i e), a⟩ => ⟨.cluster (.invoke (i.under none) e), a⟩
  | ⟨.context (.routingMode i), a⟩ => ⟨.context (.routingMode (i.under none)), a⟩
  | ⟨.context (.select i candidates), a⟩ => ⟨.context (.select (i.under none) candidates), a⟩
  | ⟨.sleep i ms, a⟩ => ⟨.sleep (i.under none) ms, a⟩
  | e => e

namespace Governance

variable {β : Type} [LoadBalancer β] {g : Governance β} {now : Nat} {i : Invocation}

omit [LoadBalancer β] in
theorem modeOf_under (p : Option ServicePolicy) :
    g.modeOf (i.under p) = (p.bind (·.routing.mode)).getD g.routingMode := rfl

theorem select_under (h : g.readiness.policy = .initial) (p : Option ServicePolicy)
    (candidates : List Endpoint) :
    g.select now (i.under p) candidates = g.select now i candidates := by
  have hforce (j : Invocation) : g.inForce j = none := by
    simp [inForce, Readiness.governed, h]
  by_cases hne : candidates.filter (·.isAccessible) = []
  · rw [select_of_inaccessible hne, select_of_inaccessible hne]
    rfl
  · obtain ⟨e, -, balancer, -, hp⟩ := exists_pick g i.request hne
    exact (select_of_ungoverned hne (hforce (i.under p)) hp).trans
      (select_of_ungoverned hne (hforce i) hp).symm

theorem exists_balancer_of_answer (h : g.readiness.policy = .initial) (call : ContextCall) :
    ∃ balancer, (g.answer now call).2 = { g with balancer } := by
  cases call with
  | readiness | routingMode => exact ⟨g.balancer, rfl⟩
  | select i candidates =>
    by_cases hne : candidates.filter (·.isAccessible) = []
    · exact ⟨g.balancer, congrArg Prod.snd (select_of_inaccessible hne)⟩
    · obtain ⟨e, -, balancer, -, hp⟩ := exists_pick g i.request hne
      have hforce : g.inForce i = none := by simp [inForce, Readiness.governed, h]
      exact ⟨balancer, congrArg Prod.snd (select_of_ungoverned hne hforce hp)⟩

end Governance

structure Surroundings (β σ : Type) where
  context : σ → Governance β
  now : σ → Nat
  become : Governance β → σ → σ
  cluster : (call : ClusterCall) → σ → call.Answer × σ
  hear : Signal → σ → σ
  sleep : Invocation → Nat → σ → σ

namespace Surroundings

variable {α β σ : Type} [LoadBalancer β]

def answer (E : Surroundings β σ) : (q : Question) → σ → q.Answer × σ
  | .cluster call, s => E.cluster call s
  | .context call, s => ((E.context s).answer (E.now s) call).map id (E.become · s)
  | .tell signal, s => ((), E.hear signal s)
  | .sleep i ms, s => ((), E.sleep i ms s)

omit [LoadBalancer β] in
structure Blind (E : Surroundings β σ) : Prop where
  route : ∀ i p s, E.cluster (.route (i.under p)) s = E.cluster (.route i) s
  invoke : ∀ i p e s, E.cluster (.invoke (i.under p) e) s = E.cluster (.invoke i e) s
  sleep : ∀ i p ms s, E.sleep (i.under p) ms s = E.sleep i ms s

def Ungoverned (E : Surroundings β σ) (mode : RoutingMode) : Dialogue α → σ → Prop
  | .done _, _ => True
  | .ask q next, s =>
    ((E.context s).readiness.policy = .initial ∧ (E.context s).routingMode = mode) ∧
      E.Ungoverned mode (next (E.answer q s).1) (E.answer q s).2

def Matches (p p' : Option ServicePolicy) (r r' : List Event × (α × Invocation) × σ) : Prop :=
  r.1.map Event.bare = r'.1.map Event.bare ∧
    ∃ a, ∃ i : Invocation, ∃ s, r.2 = ((a, i.under p), s) ∧ r'.2 = ((a, i.under p'), s)

variable {E : Surroundings β σ} {mode : RoutingMode} {s : σ} {p p' : Option ServicePolicy}
  {d d' : Dialogue (α × Invocation)}

omit [LoadBalancer β] in
theorem Matches.cons {e e' : Event} {r r' : List Event × (α × Invocation) × σ}
    (h : Matches p p' r r') (he : e.bare = e'.bare) :
    Matches p p' (e :: r.1, r.2) (e' :: r'.1, r'.2) :=
  ⟨by simp only [List.map_cons, he, h.1], h.2⟩

theorem matches_record (h : d.Twin p p' d') (hblind : E.Blind)
    (hmode : (p.bind (·.routing.mode)).getD mode = (p'.bind (·.routing.mode)).getD mode)
    (hstays : E.Ungoverned mode d s) :
    Matches p p' (d.record E.answer s) (d'.record E.answer s) := by
  -- Where a question carries the policy, there is a reason of its own why the answer is the same.
  induction h generalizing s with
  | done a i => exact ⟨rfl, a, i, s, rfl, rfl⟩
  | same _ ih => exact (ih _ hstays.2).cons rfl
  | route _ ih =>
    have h := ih _ hstays.2
    simp only [Dialogue.record, answer, hblind.route] at h ⊢
    exact h.cons rfl
  | invoke _ ih =>
    have h := ih _ hstays.2
    simp only [Dialogue.record, answer, hblind.invoke] at h ⊢
    exact h.cons rfl
  | routingMode _ ih =>
    have h := ih _ hstays.2
    simp only [Dialogue.record, answer, Governance.answer, Governance.modeOf_under, hstays.1.2,
      hmode] at h ⊢
    exact h.cons rfl
  | select _ ih =>
    have h := ih _ hstays.2
    simp only [Dialogue.record, answer, Governance.answer, Governance.select_under hstays.1.1]
      at h ⊢
    exact h.cons rfl
  | sleep _ ih =>
    have h := ih _ hstays.2
    simp only [Dialogue.record, answer, hblind.sleep] at h ⊢
    exact h.cons rfl

end Surroundings

/--
What an ungoverned call sees of the policy of its service: who carries it out, under which retry
rule, and in which routing mode. A policy that says nothing of the mode leaves it as configured.
-/
structure Engine.SeesAlike (engine : Engine) (mode : RoutingMode)
    (p p' : Option ServicePolicy) : Prop where
  invoker : engine.invokerFor p = engine.invokerFor p'
  retry : engine.invokerFor p = .failfast ∨ p.bind (·.retry) = p'.bind (·.retry)
  mode : (p.bind (·.routing.mode)).getD mode = (p'.bind (·.routing.mode)).getD mode

/--
While the application is not governed, a call with no policy of its own goes the same way whatever
is stored, as long as the policies of its service name the same invoker and bring the same retry
rule and routing mode: the same is asked and answered, the response is the same, and so is what is
left behind. Breakers, limits, preferred locations and versions do not count.
-/
theorem ungoverned_call_sees_attempt_rules {β σ : Type} [LoadBalancer β] {engine : Engine}
    {store store' : PolicyStore} {mode : RoutingMode} {E : Surroundings β σ} {i : Invocation}
    {s : σ} (hbuilt : engine.BuiltIn) (hblind : E.Blind) (hi : i.policy = none)
    (hsees : engine.SeesAlike mode (store.get? i.service) (store'.get? i.service))
    (hstays : E.Ungoverned mode ({ engine with policies := store }.execute i) s) :
    let r := ({ engine with policies := store }.execute i).record E.answer s
    let r' := ({ engine with policies := store' }.execute i).record E.answer s
    r'.1.map Event.bare = r.1.map Event.bare ∧ r'.2.1.1 = r.2.1.1 ∧
      r'.2.1.2.under none = r.2.1.2.under none ∧ r'.2.2 = r.2.2 := by
  intro r r'
  have htwin : ({ engine with policies := store }.execute i).Twin (store.get? i.service)
      (store'.get? i.service) ({ engine with policies := store' }.execute i) := by
    have hexecute (store : PolicyStore) : { engine with policies := store }.execute i =
        ((engine.invokerFor (store.get? i.service)).execute (store.get? i.service)).run i := by
      unfold Engine.execute
      rw [hi]
      rfl
    rw [hexecute, hexecute, ← hsees.invoker]
    rcases hbuilt.invokerFor (store.get? i.service) with hf | ⟨schedule, hf⟩
    · rw [hf]
      exact Conduct.twin_failfast hi
    · rcases hsees.retry with hfast | hretry
      · rw [hfast]
        exact Conduct.twin_failfast hi
      · rw [hf]
        exact Conduct.twin_failover hi hretry
  obtain ⟨hevents, a, j, s', h, h'⟩ :=
    Surroundings.matches_record htwin hblind hsees.mode hstays
  refine ⟨hevents.symm, ?_⟩
  rw [show r.2 = _ from h, show r'.2 = _ from h']
  exact ⟨rfl, rfl, rfl⟩

namespace Surroundings

def refusing (candidates : List Endpoint) (f : Failure) : Surroundings Balancer Governance where
  context g := g
  now _ := 0
  become g _ := g
  cluster call g := ((Question.cluster call).refuse g candidates f, g)
  hear _ g := g
  sleep _ _ g := g

theorem blind_refusing (candidates : List Endpoint) (f : Failure) : (refusing candidates f).Blind :=
  ⟨fun _ _ _ => rfl, fun _ _ _ _ => rfl, fun _ _ _ _ => rfl⟩

theorem ungoverned_refusing {α : Type} (candidates : List Endpoint) (f : Failure)
    (d : Dialogue α) {g : Governance} {mode : RoutingMode} (h : g.readiness.policy = .initial)
    (hmode : g.routingMode = mode) : (refusing candidates f).Ungoverned mode d g := by
  induction d generalizing g with
  | done a => trivial
  | ask q next ih =>
    refine ⟨⟨h, hmode⟩, ?_⟩
    cases q with
    | cluster | tell | sleep => exact ih _ h hmode
    | context call =>
      obtain ⟨balancer, hb⟩ : ∃ balancer, (g.answer 0 call).2 = { g with balancer } :=
        Governance.exists_balancer_of_answer h call
      have hkept : (g.answer 0 call).2.readiness.policy = .initial ∧
          (g.answer 0 call).2.routingMode = mode := by
        rw [hb]
        exact ⟨h, hmode⟩
      exact ih _ hkept.1 hkept.2

end Surroundings

/-- Rules of admission in a policy that names neither an invoker nor retries nor a mode. -/
theorem ungoverned_call_ignores_admission_rules :
    let config : GovernanceConfig := { invoker := "failover", retrier := "fixed" }
    let policy : ServicePolicy := {
      service := "s", version := 7, circuitBreaker := some {}, rateLimit := some { permits := 0 }
      routing := { unit := some "u", fallback := false } }
    let E := Surroundings.refusing [{ id := "a", host := "h", port := 1 }]
      (.dispatch .connect "refused")
    let i : Invocation := {
      request := { id := ⟨⟨List.replicate 16 0, rfl⟩⟩, service := "s", path := "/" } }
    ∃ engine g store, Engine.ofConfig config = .ok engine ∧
      Governance.ofConfig ⟨.ready, .initial⟩ config 0 = .ok g ∧
      PolicyStore.update {} policy = .ok store ∧ store.get? "s" = some policy ∧ E.Blind ∧
      E.Ungoverned g.routingMode (engine.execute i) g ∧
      (({ engine with policies := store }.execute i).record E.answer g).1.map Event.bare =
        ((engine.execute i).record E.answer g).1.map Event.bare := by
  intro config policy E i
  obtain ⟨engine, g, store, hbuilt, hg, hstore, hpolicy, hstored, hsees, hinitial⟩ :
      ∃ engine g store, Engine.ofConfig config = .ok engine ∧
        Governance.ofConfig ⟨.ready, .initial⟩ config 0 = .ok g ∧
        PolicyStore.update {} policy = .ok store ∧ store.get? "s" = some policy ∧
        engine.policies = {} ∧
        engine.SeesAlike g.routingMode (engine.policies.get? i.service) (store.get? i.service) ∧
        g.readiness.policy = .initial :=
    ⟨_, _, _, rfl, rfl, rfl, by decide +kernel, rfl, ⟨rfl, .inr rfl, rfl⟩, rfl⟩
  have hbuiltIn : engine.BuiltIn := ⟨config, engine, hbuilt, rfl⟩
  have hblind : E.Blind := Surroundings.blind_refusing _ _
  have hstays : E.Ungoverned g.routingMode ({ engine with policies := engine.policies }.execute i)
      g := Surroundings.ungoverned_refusing _ _ _ hinitial rfl
  exact ⟨engine, g, store, hbuilt, hg, hstore, hpolicy, hblind, hstays,
    (ungoverned_call_sees_attempt_rules hbuiltIn hblind rfl hsees hstays).1⟩

/--
A stored policy steers a call that it does not govern: its invoker and its retry rule bring two
more dispatches, and its routing mode has the cluster asked for candidates that are pinned.
-/
theorem stored_policy_steers_ungoverned_call :
    let config : GovernanceConfig := { retrier := "fixed" }
    let retrying : ServicePolicy := {
      service := "s", invoker := some "failover", retry := some { maxAttempts := 3 } }
    let rerouting : ServicePolicy := { service := "s", routing := { mode := some .reroute } }
    let candidates : List Endpoint := [{ id := "a", host := "h", port := 1 }]
    let E := Surroundings.refusing candidates (.dispatch .connect "refused")
    let i : Invocation := {
      request := { id := ⟨⟨List.replicate 16 0, rfl⟩⟩, service := "s", path := "/" } }
    let pinned : Invocation := { i with instances := candidates }
    ∃ engine g store store', Engine.ofConfig config = .ok engine ∧
      Governance.ofConfig ⟨.ready, .initial⟩ config 0 = .ok g ∧
      PolicyStore.update {} retrying = .ok store ∧ PolicyStore.update {} rerouting = .ok store' ∧
      E.Blind ∧ (∀ d : Dialogue (Response × Invocation), E.Ungoverned g.routingMode d g) ∧
      (Event.dispatches ((engine.execute i).record E.answer g).1).length = 1 ∧
      (Event.dispatches
        (({ engine with policies := store }.execute i).record E.answer g).1).length = 3 ∧
      (({ engine with policies := store' }.execute pinned).record E.answer g).1.length =
        ((engine.execute pinned).record E.answer g).1.length + 1 := by
  intro config retrying rerouting candidates E i pinned
  refine ⟨_, _, _, _, rfl, rfl, rfl, rfl, Surroundings.blind_refusing _ _, fun d =>
    Surroundings.ungoverned_refusing _ _ d rfl rfl, ?_, ?_, ?_⟩
  · decide +kernel
  · decide +kernel
  · decide +kernel

end Turnpike
