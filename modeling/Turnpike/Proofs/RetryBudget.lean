import Mathlib.Data.Finset.Card
import Mathlib.Data.Finset.Dedup
import Turnpike.Proofs.Engines
import Turnpike.Proofs.HookProtocol
import Turnpike.Proofs.Selection

/-!
How much of a retry budget is spent when every dispatch fails. Attempts go to endpoints that have
not failed yet, and a candidate that cannot be selected never fails; as long as there is one, the
attempts do not start over.
-/

namespace Turnpike

/-! ### Selecting under a policy without breaker and limit -/

def ServicePolicy.eligible (policy : ServicePolicy) (r : Readiness) (e : Endpoint) : Bool :=
  e.isAccessible && (!r.governed || policy.routing.fallback || policy.routing.matched e)

section Eligible

variable {policy : ServicePolicy} {r : Readiness} {candidates located : List Endpoint}

theorem eligible_of_locate {e : Endpoint}
    (hl : policy.routing.locate (candidates.filter (·.isAccessible)) = some located)
    (he : e ∈ located) : e ∈ candidates ∧ policy.eligible r e = true := by
  have hmem := List.mem_filter.1 (RoutingRules.subset_of_locate hl he)
  refine ⟨hmem.1, ?_⟩
  cases hf : policy.routing.fallback with
  | true => simp [ServicePolicy.eligible, hf, hmem.2]
  | false =>
    rw [RoutingRules.locate_strict hf (List.ne_nil_of_mem (RoutingRules.subset_of_locate hl he))]
      at hl
    split at hl
    · cases hl
    · cases hl
      simp [ServicePolicy.eligible, hmem.2, (List.mem_filter.1 he).2]

theorem not_eligible_of_locate (hr : r.governed = true)
    (hne : candidates.filter (·.isAccessible) ≠ [])
    (hl : policy.routing.locate (candidates.filter (·.isAccessible)) = none) :
    ∀ e ∈ candidates, policy.eligible r e = false := by
  intro e he
  cases hf : policy.routing.fallback with
  | true =>
    obtain ⟨located, h⟩ := RoutingRules.exists_locate_fallback hf
      (candidates.filter (·.isAccessible))
    rw [hl] at h
    cases h
  | false =>
    rw [RoutingRules.locate_strict hf hne] at hl
    split at hl
    · rename_i hm
      cases ha : e.isAccessible with
      | false => simp [ServicePolicy.eligible, ha]
      | true =>
        have := List.filter_eq_nil_iff.1 hm e (List.mem_filter.2 ⟨he, ha⟩)
        simp [ServicePolicy.eligible, hr, hf, this]
    · cases hl

theorem select_eligible {β : Type} [LoadBalancer β] {g : Governance β} (now : Nat)
    (candidates : List Endpoint) {i : Invocation} (hr : g.readiness = r)
    (hi : i.policy = some policy)
    (hbreaker : policy.circuitBreaker = none) (hlimit : policy.rateLimit = none) :
    (∃ e ∈ candidates, policy.eligible r e = true ∧
      (g.select now i candidates).1 = .ok (e, none)) ∨
    ((∀ e ∈ candidates, policy.eligible r e = false) ∧
      (g.select now i candidates).1 = .error (.noProvider i.service)) := by
  subst hr
  by_cases hne : candidates.filter (·.isAccessible) = []
  · refine .inr ⟨fun e he => ?_, by rw [Governance.select_of_inaccessible hne]⟩
    have := List.filter_eq_nil_iff.1 hne e he
    simp [ServicePolicy.eligible, this]
  cases hg : g.readiness.governed with
  | false =>
    have hforce : g.inForce i = none := by simp [Governance.inForce, hg]
    obtain ⟨e, he, balancer, -, hp⟩ := Governance.exists_pick g i.request hne
    obtain ⟨he, ha⟩ := List.mem_filter.1 he
    exact .inl ⟨e, he, by simp [ServicePolicy.eligible, ha, hg], by
      rw [Governance.select_of_ungoverned hne hforce hp]⟩
  | true =>
    have hforce : g.inForce i = some policy := by simp [Governance.inForce, hg, hi]
    rw [Governance.select_of_governed hne hforce]
    cases hl : policy.routing.locate (candidates.filter (·.isAccessible)) with
    | none =>
      exact .inr ⟨not_eligible_of_locate hg hne hl, by
        rw [Governance.selectUnder_of_mislocated hl]; rfl⟩
    | some located =>
      obtain ⟨e, he, balancer, -, hp⟩ := Governance.exists_pick g i.request
        (RoutingRules.ne_nil_of_locate hl hne)
      obtain ⟨hmem, helig⟩ := eligible_of_locate (r := g.readiness) hl he
      exact .inl ⟨e, hmem, helig, by
        rw [Governance.selectUnder_of_unlimited hl (.picked hbreaker hp) hlimit]⟩

end Eligible

/-! ### Failing dispatches -/

def Carries (answer : Except Failure Response) (f : Failure) : Prop :=
  answer = .error f ∨ answer = .ok (.failure f)

namespace Event

def dispatch? : Event → Option (Except Failure Response)
  | ⟨.cluster (.invoke _ _), answer⟩ => some answer
  | _ => none

def dispatches (es : List Event) : List (Except Failure Response) := es.filterMap dispatch?

@[simp] theorem dispatches_append (es es' : List Event) :
    dispatches (es ++ es') = dispatches es ++ dispatches es' :=
  List.filterMap_append ..

@[simp] theorem dispatches_told (signals : List Signal) : dispatches (told signals) = [] := by
  induction signals with
  | nil => rfl
  | cons s signals ih => exact ih

@[simp] theorem dispatches_pause (i : Invocation) (ms : Nat) : dispatches (pause i ms) = [] := by
  unfold pause
  split <;> rfl

@[simp] theorem dispatches_failing (i : Invocation) (e : Option Endpoint) (f : Failure)
    (response : Response) : dispatches (failing i e f response) = [] := by
  rw [failing, dispatches_append, dispatches_told]
  cases response <;> rfl

@[simp] theorem dispatches_dispatching (i : Invocation) (e : Endpoint)
    (answer : Except Failure Response) : dispatches (dispatching i e answer) = [answer] := by
  rw [dispatching, dispatches_append, dispatches_told]
  rfl

/--
An event of a run in which the candidates stay the same and every dispatch fails, in a way that is
worth another attempt. Responses carry failures as they are.
-/
def Futile (β : Type) [LoadBalancer β] (r : Readiness) (mode : RoutingMode)
    (candidates : List Endpoint) (worth : Failure → Bool) : Event → Prop
  | ⟨.context call, answer⟩ => ∃ (g : Governance β) (now : Nat),
    g.readiness = r ∧ g.routingMode = mode ∧ answer = (g.answer now call).1
  | ⟨.cluster (.route _), answer⟩ => answer = .ok candidates
  | ⟨.cluster (.invoke _ _), answer⟩ => ∃ f, Carries answer f ∧ worth f = true
  | ⟨.cluster (.createResponse f _ _), response⟩ => response = .failure f
  | _ => True

end Event

theorem Routed.dispatches_eq_nil {i j : Invocation} {es : List Event}
    {found : Except Failure (List Endpoint)} (h : Routed i es found j) :
    Event.dispatches es = [] := by
  cases h with
  | reused => rfl
  | asked => rfl

theorem Refused.dispatches_eq_nil {i : Invocation} {found : List Endpoint} {es : List Event}
    {f : Failure} (h : Refused i found es f) : Event.dispatches es = [] := by
  cases h <;> rfl

theorem Opened.dispatches_eq_nil {i : Invocation} {es : List Event} (h : Opened i es) :
    Event.dispatches es = [] := by
  cases h <;> rfl

section Futile

open Event (dispatches Futile)

variable {β : Type} [LoadBalancer β] {r : Readiness} {mode : RoutingMode} {policy : ServicePolicy}
  {candidates : List Endpoint} {worth : Failure → Bool} {i j : Invocation} {es : List Event}

structure Bound (mode : RoutingMode) (policy : ServicePolicy) (candidates : List Endpoint)
    (i : Invocation) : Prop where
  under : i.policy = some policy
  pinned : i.instances = [] ∨ i.instances = candidates ∨ policy.routing.mode.getD mode = .reroute

theorem Routed.futile {found : Except Failure (List Endpoint)} (h : Routed i es found j)
    (hi : Bound mode policy candidates i) (hes : ∀ e ∈ es, Futile β r mode candidates worth e) :
    found = .ok candidates ∧ Bound mode policy candidates j ∧ j.failed = i.failed := by
  have hmode : ∀ {m : RoutingMode},
      Futile β r mode candidates worth (.context (.routingMode i) m) →
      m = policy.routing.mode.getD mode := by
    rintro m ⟨g, now, -, rfl, hm⟩
    rw [hm]
    simp [Governance.answer, Governance.modeOf, Invocation.routingMode?, hi.under]
  cases h with
  | reused hne =>
    have hm := hmode (hes _ (List.mem_cons_self ..))
    rcases hi.pinned with h | h | h
    · exact absurd h hne
    · exact ⟨by rw [h], hi, rfl⟩
    · rw [← hm] at h
      cases h
  | asked hm =>
    obtain rfl : found = .ok candidates := hes (.cluster (.route i) found) (by simp)
    refine ⟨rfl, ⟨?_, ?_⟩, ?_⟩
    · rw [Invocation.recorded, Invocation.snd_setInstances]
      exact hi.under
    · simp only [Invocation.recorded, Invocation.setInstances]
      split
      · exact .inr (.inl rfl)
      · exact hi.pinned
    · rw [Invocation.recorded, Invocation.snd_setInstances]

theorem Dispatched.futile {e : Endpoint} {o : AttemptOutcome} (h : Dispatched i e es o j)
    (hes : ∀ e ∈ es, Futile β r mode candidates worth e) :
    ∃ a f, Carries a f ∧ worth f = true ∧ dispatches es = [a] ∧
      o = ⟨.failure f, some f⟩ ∧ j = (i.onFailure (some e) f).2 := by
  cases h with
  | @succeeded reply =>
    obtain ⟨f, h | h, -⟩ := hes (.cluster (.invoke i e) (.ok (.success reply)))
      (by simp [dispatching]) <;> cases h
  | @failed answer f response hf =>
    obtain ⟨f', hf', hw⟩ : ∃ f', Carries answer f' ∧ worth f' = true :=
      hes (.cluster (.invoke i e) answer) (by simp [dispatching])
    obtain rfl : f' = f := by
      rcases hf with rfl | rfl <;> rcases hf' with h | h <;> cases h <;> rfl
    obtain rfl : response = .failure f' :=
      hes (.cluster (.createResponse f' i.request (some e)) response) (by simp [failing])
    exact ⟨answer, f', hf', hw, by simp, rfl, rfl⟩

theorem Bound.onFailure (hi : Bound mode policy candidates i) (e : Option Endpoint) (f : Failure) :
    Bound mode policy candidates (i.onFailure e f).2 := by
  rw [frame_onFailure]
  exact ⟨hi.under, hi.pinned⟩

theorem Bound.select {found : List Endpoint}
    {answer : Except RouteError (Endpoint × Option BreakerId)}
    (hi : Bound mode policy candidates i) (hbreaker : policy.circuitBreaker = none)
    (hlimit : policy.rateLimit = none)
    (h : Futile β r mode candidates worth (.context (.select i found) answer)) :
    (∃ e ∈ found, policy.eligible r e = true ∧ answer = .ok (e, none)) ∨
      ((∀ e ∈ found, policy.eligible r e = false) ∧ answer = .error (.noProvider i.service)) := by
  obtain ⟨g, now, hr, -, rfl⟩ := h
  exact select_eligible now found hr hi.under hbreaker hlimit

theorem Refused.futile {f : Failure} (h : Refused i candidates es f)
    (hbreaker : policy.circuitBreaker = none) (hlimit : policy.rateLimit = none)
    (hi : Bound mode policy candidates i) (hes : ∀ e ∈ es, Futile β r mode candidates worth e) :
    ∀ e ∈ i.untried candidates, policy.eligible r e = false := by
  cases h with
  | nobody hnil => simp [hnil, Invocation.untried]
  | rejected | failed =>
    rcases hi.select hbreaker hlimit (hes _ (List.mem_cons_self ..)) with ⟨_, _, _, h⟩ | ⟨_, h⟩ <;>
      cases h
  | noProvider =>
    rcases hi.select hbreaker hlimit (hes _ (List.mem_cons_self ..)) with ⟨_, _, _, h⟩ | ⟨h, _⟩
    · cases h
    · exact h

theorem untried_congr {i j : Invocation} (h : j.failed = i.failed) (candidates : List Endpoint) :
    j.untried candidates = i.untried candidates := by
  simp only [Invocation.untried, h]

theorem Attempted.futile {o : AttemptOutcome} (h : Attempted i es o j)
    (hbreaker : policy.circuitBreaker = none) (hlimit : policy.rateLimit = none)
    (hi : Bound mode policy candidates i) (hes : ∀ e ∈ es, Futile β r mode candidates worth e) :
    Bound mode policy candidates j ∧
      ((∃ e ∈ i.untried candidates, policy.eligible r e = true ∧
        j.failed = (i.markFailed (some e)).failed ∧ ∃ a f, Carries a f ∧ worth f = true ∧
          dispatches es = [a] ∧ o = ⟨.failure f, some f⟩) ∨
      ((∀ e ∈ i.untried candidates, policy.eligible r e = false) ∧ dispatches es = [] ∧
        j.failed = i.failed)) := by
  have hi' : Bound mode policy candidates i.beginAttempt.2 := ⟨hi.under, hi.pinned⟩
  cases h with
  | unrouted hr =>
    obtain ⟨h, -⟩ := hr.futile hi' fun e he => hes e (by simp [he])
    cases h
  | @refused es₁ es₂ found k f response hr hrefused =>
    obtain ⟨h, hk, hfailed⟩ := hr.futile hi' fun e he => hes e (by simp [he])
    cases h
    refine ⟨hk.onFailure none f, .inr ⟨?_, ?_, hfailed⟩⟩
    · rw [← untried_congr (i := i) (j := k) hfailed]
      exact hrefused.futile hbreaker hlimit hk fun e he => hes e (by simp [he])
    · simp [hr.dispatches_eq_nil, hrefused.dispatches_eq_nil]
  | @dispatched es₁ es₂ found k _ e admission _ hr hne hd =>
    obtain ⟨h, hk, hfailed⟩ := hr.futile hi' fun e he => hes e (by simp [he])
    cases h
    rcases hk.select hbreaker hlimit
        (hes (.context (.select k (k.untried candidates)) (.ok (e, admission))) (by simp)) with
      ⟨e', he, helig, h⟩ | ⟨_, h⟩
    · cases h
      obtain ⟨a, f, hf, hw, ha, rfl, rfl⟩ := hd.futile fun e he => hes e (by simp [he])
      rw [untried_congr (i := i) (j := k) hfailed] at he
      refine ⟨hk.onFailure _ _, .inl ⟨e, he, helig, ?_, a, f, hf, hw, ?_, rfl⟩⟩
      · change (k.markFailed (some e)).failed = _
        rw [Invocation.failed_markFailed_some, Invocation.failed_markFailed_some, hfailed]
        rfl
      · rw [Event.dispatches_append, Event.dispatches_append, Event.dispatches_told,
          hr.dispatches_eq_nil]
        exact ha
    · cases h

end Futile

/-! ### Candidates that run out -/

def ServicePolicy.fresh (policy : ServicePolicy) (r : Readiness) (candidates : List Endpoint)
    (failed : List String) : Finset String :=
  ((candidates.filter (policy.eligible r ·)).map (·.id)).toFinset \ failed.toFinset

/-- Whether every candidate has failed or shares its id with one that may be dispatched to. -/
def ServicePolicy.Covers (policy : ServicePolicy) (r : Readiness) (candidates : List Endpoint)
    (failed : List String) : Prop :=
  ∀ c ∈ candidates, c.id ∈ failed ∨
    ∃ e ∈ candidates, policy.eligible r e = true ∧ e.id = c.id

instance (policy : ServicePolicy) (r : Readiness) (candidates : List Endpoint)
    (failed : List String) : Decidable (policy.Covers r candidates failed) :=
  inferInstanceAs (Decidable (∀ c ∈ candidates, c.id ∈ failed ∨
    ∃ e ∈ candidates, policy.eligible r e = true ∧ e.id = c.id))

section Fresh

variable {policy : ServicePolicy} {r : Readiness} {candidates : List Endpoint}
  {failed : List String} {i : Invocation} {e : Endpoint}

theorem mem_fresh_iff {id : String} : id ∈ policy.fresh r candidates failed ↔
    (∃ e ∈ candidates, policy.eligible r e = true ∧ e.id = id) ∧ id ∉ failed := by
  simp [ServicePolicy.fresh, and_assoc]

theorem mem_untried_iff : e ∈ i.untried candidates ↔
    e ∈ candidates ∧ (e.id ∉ i.failed ∨ ∀ c ∈ candidates, c.id ∈ i.failed) := by
  simp only [Invocation.untried]
  split <;> rename_i h
  · have hall : ∀ c ∈ candidates, c.id ∈ i.failed := by simpa using h
    exact ⟨fun he => ⟨he, .inr hall⟩, fun he => he.1⟩
  · have hsome : ¬∀ c ∈ candidates, c.id ∈ i.failed := by simpa using h
    simp [hsome]

theorem exists_eligible_untried_iff (hne : ∃ e ∈ candidates, policy.eligible r e = true) :
    (∃ e ∈ i.untried candidates, policy.eligible r e = true) ↔
      policy.fresh r candidates i.failed ≠ ∅ ∨ policy.Covers r candidates i.failed := by
  simp only [mem_untried_iff, ne_eq, ← Finset.nonempty_iff_ne_empty]
  constructor
  · rintro ⟨e, ⟨he, hfresh | hall⟩, helig⟩
    · exact .inl ⟨e.id, mem_fresh_iff.2 ⟨⟨e, he, helig, rfl⟩, hfresh⟩⟩
    · exact .inr fun c hc => .inl (hall c hc)
  · intro h
    by_cases hf : (policy.fresh r candidates i.failed).Nonempty
    · obtain ⟨_, hid⟩ := hf
      obtain ⟨⟨e, he, helig, rfl⟩, hfresh⟩ := mem_fresh_iff.1 hid
      exact ⟨e, ⟨he, .inl hfresh⟩, helig⟩
    · have hcover := h.resolve_left hf
      obtain ⟨e, he, helig⟩ := hne
      refine ⟨e, ⟨he, .inr fun c hc => ?_⟩, helig⟩
      rcases hcover c hc with h | ⟨e', he', helig', hid⟩
      · exact h
      · by_contra hc'
        exact hf ⟨c.id, mem_fresh_iff.2 ⟨⟨e', he', helig', hid⟩, hc'⟩⟩

theorem fresh_eq_empty_of_not_eligible (hne : ∃ e ∈ candidates, policy.eligible r e = true)
    (h : ∀ e ∈ i.untried candidates, policy.eligible r e = false) :
    policy.fresh r candidates i.failed = ∅ ∧ ¬policy.Covers r candidates i.failed := by
  have hopen : ¬∃ e ∈ i.untried candidates, policy.eligible r e = true := by simpa using h
  rw [exists_eligible_untried_iff hne, not_or, not_not] at hopen
  exact hopen

theorem mem_failed_markFailed_iff {id : String} :
    id ∈ (i.markFailed (some e)).failed ↔ id ∈ i.failed ∨ id = e.id := by
  rw [Invocation.failed_markFailed_some]
  split
  · constructor
    · exact .inl
    · rintro (h | rfl) <;> assumption
  · simp

theorem fresh_markFailed : policy.fresh r candidates (i.markFailed (some e)).failed =
    (policy.fresh r candidates i.failed).erase e.id := by
  ext id
  rw [Finset.mem_erase, mem_fresh_iff, mem_fresh_iff, mem_failed_markFailed_iff]
  tauto

theorem covers_markFailed_iff (he : e ∈ candidates) (helig : policy.eligible r e = true) :
    policy.Covers r candidates (i.markFailed (some e)).failed ↔
      policy.Covers r candidates i.failed := by
  simp only [ServicePolicy.Covers, mem_failed_markFailed_iff]
  constructor
  · intro h c hc
    rcases h c hc with (h | h) | h
    · exact .inl h
    · exact .inr ⟨e, he, helig, h.symm⟩
    · exact .inr h
  · intro h c hc
    exact (h c hc).imp_left .inl

theorem card_fresh_markFailed (he : e ∈ i.untried candidates) (helig : policy.eligible r e = true)
    (hne : policy.fresh r candidates i.failed ≠ ∅) :
    (policy.fresh r candidates (i.markFailed (some e)).failed).card + 1 =
      (policy.fresh r candidates i.failed).card := by
  rw [fresh_markFailed]
  refine Finset.card_erase_add_one (mem_fresh_iff.2 ?_)
  obtain ⟨hmem, hfresh⟩ := mem_untried_iff.1 he
  refine ⟨⟨e, hmem, helig, rfl⟩, hfresh.elim id fun hall => ?_⟩
  obtain ⟨_, hid⟩ := Finset.nonempty_iff_ne_empty.2 hne
  obtain ⟨⟨e', he', -, rfl⟩, h⟩ := mem_fresh_iff.1 hid
  exact absurd (hall e' he') h

end Fresh

/-! ### The attempts of a call -/

/-- Up to `N` attempts, and no fewer while their failures are worth another one. -/
structure Again.Spends (again : Again) (worth : Failure → Bool) (N : Nat) : Prop where
  lt {k : Nat} {f : Failure} {ms : Nat} : again k f = some ms → k < N
  ne_none {k : Nat} {f : Failure} : 1 ≤ k → k < N → worth f = true → again k f ≠ none

theorem Retrier.spends_again (retrier : Retrier) (idempotent : Bool) :
    (retrier.again idempotent).Spends (retrier.policy.isRetryable · idempotent)
      retrier.policy.maxAttempts.toNat where
  lt := lt_of_again_eq_some
  ne_none {k f} h₁ h₂ hw := by
    simp only [again, hw, if_true, delayAfter?]
    cases retrier.schedule with
    | exponential =>
      simp only [RetryPolicy.delay?]
      rw [if_neg (by omega)]
      simp
    | fixed => simp [h₁, h₂]

section Attempts

open Event (dispatches Futile)

variable {β : Type} [LoadBalancer β] {r : Readiness} {mode : RoutingMode} {policy : ServicePolicy}
  {candidates : List Endpoint} {worth : Failure → Bool} {again : Again} {N : Nat}

theorem Attempts.futile (hagain : again.Spends worth N)
    (hbreaker : policy.circuitBreaker = none) (hlimit : policy.rateLimit = none)
    (hne : ∃ e ∈ candidates, policy.eligible r e = true) {k n : Nat} {i j : Invocation}
    {es : List Event} {response : Response} (h : Attempts again k i n es response j) (hk : 1 ≤ k)
    (hkN : k ≤ N) (hi : Bound mode policy candidates i)
    (hes : ∀ e ∈ es, Futile β r mode candidates worth e) :
    (policy.Covers r candidates i.failed ∨ N + 1 - k ≤ (policy.fresh r candidates i.failed).card →
      (dispatches es).length = N + 1 - k ∧ ∃ a f, (dispatches es).getLast? = some a ∧
        Carries a f ∧ response = .failure f) ∧
    (¬policy.Covers r candidates i.failed →
      (policy.fresh r candidates i.failed).card < N + 1 - k →
      (dispatches es).length = (policy.fresh r candidates i.failed).card) := by
  -- Every dispatch takes one candidate out of the fresh ones, until none is left. Then the
  -- attempts start over if nobody else is left either, and find nobody to go to otherwise.
  induction h with
  | @last k i j es o ha hlast =>
    obtain ⟨-, ⟨e, he, helig, -, a, f, hf, hw, hd, rfl⟩ | ⟨hnone, hd, -⟩⟩ :=
      ha.futile hbreaker hlimit hi hes
    · have hN : N ≤ k := by
        by_contra hlt
        exact hagain.ne_none hk (by omega) hw hlast
      have hopen := (exists_eligible_untried_iff hne).1 ⟨e, he, helig⟩
      refine ⟨fun _ => ⟨by rw [hd]; simp; omega, a, f, by rw [hd]; rfl, hf, rfl⟩, ?_⟩
      intro hcover hlt
      have := Finset.card_pos.2 (Finset.nonempty_iff_ne_empty.2 (hopen.resolve_right hcover))
      omega
    · obtain ⟨hempty, hcover⟩ := fresh_eq_empty_of_not_eligible hne hnone
      rw [hempty, hd, Finset.card_empty]
      refine ⟨fun h => ?_, fun _ _ => rfl⟩
      rcases h with h | h
      · exact absurd h hcover
      · omega
  | @again k n ms i j l es es' o response ha hsome _ ih =>
    have hlt : k < N := by
      obtain ⟨f, -, hf⟩ := Option.bind_eq_some_iff.1 hsome
      exact hagain.lt hf
    obtain ⟨hj, h⟩ := ha.futile hbreaker hlimit hi fun e he => hes e (by simp [he])
    obtain ⟨ihspent, ihshort⟩ := ih (by omega) hlt hj fun e he => hes e (by simp [he])
    rcases h with ⟨e, he, helig, hfailed, a, f, -, -, hd, -⟩ | ⟨hnone, hd, hfailed⟩
    · have hopen := (exists_eligible_untried_iff hne).1 ⟨e, he, helig⟩
      rw [hfailed, covers_markFailed_iff (mem_untried_iff.1 he).1 helig] at ihspent ihshort
      have hspent : policy.Covers r candidates i.failed ∨
          N + 1 - (k + 1) ≤ (policy.fresh r candidates (i.markFailed (some e)).failed).card →
          (dispatches (es ++ Event.pause j ms ++ es')).length = N + 1 - k ∧
          ∃ a f, (dispatches (es ++ Event.pause j ms ++ es')).getLast? = some a ∧
            Carries a f ∧ response = .failure f := by
        intro h
        obtain ⟨hlen, b, f, hlast, hf, hresponse⟩ := ihspent h
        refine ⟨?_, b, f, ?_, hf, hresponse⟩
        · simp only [Event.dispatches_append, Event.dispatches_pause, hd, List.append_nil,
            List.singleton_append, List.length_cons, hlen]
          omega
        · simp [hd, List.getLast?_cons, hlast]
      by_cases hf : policy.fresh r candidates i.failed = ∅
      · have hcover := hopen.resolve_left (not_not.2 hf)
        exact ⟨fun _ => hspent (.inl hcover), fun h => absurd hcover h⟩
      · have hcard := card_fresh_markFailed he helig hf
        refine ⟨fun h => hspent (h.imp_right fun h => by omega), fun hcover hshort => ?_⟩
        simp [hd, ihshort hcover (by omega), ← hcard]
    · obtain ⟨hempty, hcover⟩ := fresh_eq_empty_of_not_eligible hne hnone
      rw [hfailed, hempty, Finset.card_empty] at ihshort
      rw [hempty, Finset.card_empty]
      refine ⟨fun h => ?_, fun _ _ => ?_⟩
      · rcases h with h | h
        · exact absurd h hcover
        · omega
      · simpa [hd] using ihshort hcover (by omega)

end Attempts

/-! ### Engines -/

namespace Engine

theorem invoked_of_execute {config : GovernanceConfig} {built : Engine} {store : PolicyStore}
    {i j : Invocation} {policy : ServicePolicy} {retry : RetryPolicy} {es : List Event}
    {response : Response} (hbuilt : ofConfig config = .ok built)
    (hpolicy : (i.policy <|> store.get? i.service) = some policy)
    (hinvoker : policy.invoker = some "failover") (hretry : policy.retry = some retry)
    (h : ({ built with policies := store }.execute i).Runs es (response, j)) :
    ∃ schedule n, Invoked ((Retrier.mk retry schedule).again i.idempotent)
      (i.setDefaultPolicy (store.get? i.service)) n es response j := by
  obtain ⟨schedule, hs, -⟩ := exists_invokers_of_ofConfig hbuilt
  simp only [execute, hpolicy] at h
  rw [invokerFor_failover { built with policies := store } hs hinvoker] at h
  obtain ⟨n, h⟩ := Conduct.runs_failover_iff.1 h
  refine ⟨schedule, n, ?_⟩
  have hagain : schedule.again (i.setDefaultPolicy (store.get? i.service)) =
      (Retrier.mk retry schedule).again i.idempotent := by
    unfold Schedule.again
    rw [show (i.setDefaultPolicy (store.get? i.service)).policy = some policy from hpolicy,
      Option.bind_some, hretry]
    rfl
  rwa [hagain] at h

end Engine

/--
When every dispatch fails in a way that is worth another attempt, the whole budget is dispatched
exactly if every candidate may run out, or there are as many fresh ones as attempts. Otherwise each
fresh candidate is dispatched to once.
-/
theorem retry_budget_spent_iff {β : Type} [LoadBalancer β] {config : GovernanceConfig}
    {built : Engine} {store : PolicyStore} {i j : Invocation} {policy : ServicePolicy}
    {retry : RetryPolicy} {r : Readiness} {candidates : List Endpoint} {es : List Event}
    {response : Response} (hbuilt : Engine.ofConfig config = .ok built)
    (hpolicy : (i.policy <|> store.get? i.service) = some policy)
    (hinvoker : policy.invoker = some "failover") (hretry : policy.retry = some retry)
    (hattempts : retry.maxAttempts ≠ 0)
    (hbreaker : policy.circuitBreaker = none) (hlimit : policy.rateLimit = none)
    (hready : r.outbound = true)
    (hpinned : i.instances = [] ∨ i.instances = candidates ∨
      policy.routing.mode.getD config.routingMode = .reroute)
    (haccepts : ∃ (g : Governance β) (now : Nat), g.readiness = r ∧
      (g.select now { i with policy := some policy } candidates).1.isOk = true)
    (hruns : ({ built with policies := store }.execute i).Runs es (response, j))
    (hes : ∀ e ∈ es,
      e.Futile β r config.routingMode candidates (retry.isRetryable · i.idempotent)) :
    let N := retry.maxAttempts.toNat
    let fresh := (policy.fresh r candidates i.failed).card
    ((Event.dispatches es).length = N ∧ (∃ a f, (Event.dispatches es).getLast? = some a ∧
      Carries a f ∧ response = .failure f) ↔ policy.Covers r candidates i.failed ∨ N ≤ fresh) ∧
    (¬policy.Covers r candidates i.failed → fresh < N →
      (Event.dispatches es).length = fresh) := by
  intro N fresh
  have hN : 1 ≤ N := by
    have : retry.maxAttempts.toNat ≠ 0 := by simpa [← UInt32.toNat_inj] using hattempts
    omega
  have hne : ∃ e ∈ candidates, policy.eligible r e = true := by
    obtain ⟨g, now, hr, hok⟩ := haccepts
    rcases select_eligible now candidates hr
      (i := { i with policy := some policy }) rfl hbreaker hlimit with
      ⟨e, he, helig, -⟩ | ⟨-, h⟩
    · exact ⟨e, he, helig⟩
    · rw [h] at hok
      cases hok
  obtain ⟨schedule, n, h⟩ := Engine.invoked_of_execute hbuilt hpolicy hinvoker hretry hruns
  cases h with
  | refused hb =>
    cases hb with
    | @unready r' f response hr' =>
      obtain ⟨g, now, rfl, -, h⟩ := hes (.context .readiness r') (by simp)
      obtain rfl : r' = g.readiness := h
      rw [hready] at hr'
      cases hr'
  | @attempted n es₁ es₂ response j hopened ha =>
    obtain ⟨hspent, hshort⟩ := ha.futile
      (Retrier.spends_again _ _) hbreaker hlimit hne (Nat.le_refl 1) hN ⟨hpolicy, hpinned⟩
      fun e he => hes e (by simp [he])
    rw [Event.dispatches_append, hopened.dispatches_eq_nil, List.nil_append]
    refine ⟨⟨fun ⟨hlen, _⟩ => ?_, hspent⟩, hshort⟩
    by_contra h
    rw [not_or, not_le] at h
    exact absurd (hlen.symm.trans (hshort h.1 h.2)) (Nat.ne_of_gt h.2)

def Question.refuse (g : Governance) (candidates : List Endpoint) (f : Failure) :
    (q : Question) → q.Answer
  | .context call => (g.answer 0 call).1
  | .cluster (.route _) => .ok candidates
  | .cluster (.invoke _ _) => .error f
  | .cluster (.createResponse f _ _) => .failure f
  | .cluster (.createReject r _) => r.toFailure
  | .cluster (.createUnready _ _) => none
  | .cluster (.createNoProvider r) => .noProvider r.service
  | .cluster (.start _) | .cluster (.startRequest _ _) | .cluster (.success _ _ _)
  | .cluster (.error _ _ _) | .tell _ | .sleep _ _ => ()

theorem futile_refuse (g : Governance) (candidates : List Endpoint) {f : Failure}
    {worth : Failure → Bool} (hf : worth f = true) (q : Question) :
    Event.Futile Balancer g.readiness g.routingMode candidates worth
      ⟨q, q.refuse g candidates f⟩ := by
  cases q with
  | context call => exact ⟨g, 0, rfl, rfl, rfl⟩
  | tell | sleep => trivial
  | cluster call =>
    cases call with
    | invoke => exact ⟨f, .inl rfl, hf⟩
    | route | createResponse => rfl
    | _ => trivial

/-- A suspended candidate never fails, and so keeps the attempts from starting over. -/
theorem retry_budget_of_suspended :
    let candidates : List Endpoint := [
      { id := "a", host := "h", port := 1 },
      { id := "b", host := "h", port := 2, state := .suspended }]
    let retry : RetryPolicy := { maxAttempts := 3 }
    let i : Invocation := {
      request := { id := ⟨⟨List.replicate 16 0, rfl⟩⟩, service := "s", path := "/" }
      policy := some { service := "s", invoker := some "failover", retry := some retry } }
    ∃ engine es response j, Engine.ofConfig {} = .ok engine ∧
      (engine.execute i).Runs es (response, j) ∧
      (∀ e ∈ es, e.Futile Balancer ⟨.ready, .initial⟩ .reuse candidates
        (retry.isRetryable · i.idempotent)) ∧
      (Event.dispatches es).length = 1 := by
  intro candidates retry i
  let g : Governance := {
    readiness := ⟨.ready, .initial⟩, routingMode := .reuse
    limiters := ⟨.empty, .tokenBucket, ⟨30000, 60000, 0, .empty⟩⟩
    breakers := ⟨.empty, .count, ⟨30000, 60000, 0, .empty⟩, #[]⟩
    balancer := .roundRobinStart }
  let f : Failure := .dispatch .connect "refused"
  obtain ⟨engine, hbuilt, -⟩ :
      ∃ engine, Engine.ofConfig {} = .ok engine ∧ engine.policies = {} := ⟨_, rfl, rfl⟩
  let answer (q : Question) (_ : Unit) := (q.refuse g candidates f, ())
  have hruns := Dialogue.runs_record answer (engine.execute i) ()
  have hes : ∀ e ∈ _, Event.Futile Balancer ⟨.ready, .initial⟩ .reuse candidates
      (retry.isRetryable · i.idempotent) e :=
    Dialogue.forall_mem_record answer (I := fun _ => True)
      (fun q _ _ => ⟨futile_refuse g candidates rfl q, trivial⟩) (engine.execute i) (s := ())
      trivial
  refine ⟨engine, _, _, _, hbuilt, hruns, hes, ?_⟩
  exact (retry_budget_spent_iff (β := Balancer) hbuilt rfl rfl rfl
    (by decide) rfl rfl rfl (.inl rfl) ⟨g, 0, rfl, rfl⟩ hruns hes).2 (by decide) (by decide)

end Turnpike
