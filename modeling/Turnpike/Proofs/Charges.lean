import Turnpike.Proofs.Selection

namespace Turnpike

inductive Charge
  | asked (ask : Ask)
  | limited (key : String) (permitted : Bool)
  | released (breaker : BreakerId)
  deriving DecidableEq

namespace Governance

variable {β : Type} [LoadBalancer β]

structure Locates (g : Governance β) (i : Invocation) (candidates : List Endpoint)
    (policy : ServicePolicy) (located : List Endpoint) : Prop where
  accessible : candidates.filter (·.isAccessible) ≠ []
  inForce : g.inForce i = some policy
  located : policy.routing.locate (candidates.filter (·.isAccessible)) = some located

inductive Selects (now : Nat) (i : Invocation) (g : Governance β) (candidates : List Endpoint) :
    List Charge → Except RouteError (Endpoint × Option BreakerId) → Governance β → Prop
  | inaccessible :
    candidates.filter (·.isAccessible) = [] →
    Selects now i g candidates [] (.error (.noProvider i.service)) g
  | ungoverned {e : Endpoint} {g' : Governance β} :
    candidates.filter (·.isAccessible) ≠ [] → g.inForce i = none →
    g.pick i.request (candidates.filter (·.isAccessible)) = (some e, g') →
    Selects now i g candidates [] (.ok (e, none)) g'
  | mislocated {policy : ServicePolicy} :
    candidates.filter (·.isAccessible) ≠ [] → g.inForce i = some policy →
    policy.routing.locate (candidates.filter (·.isAccessible)) = none →
    Selects now i g candidates [] (.error (.noProvider i.service)) g
  | circuitOpen {policy : ServicePolicy} {located : List Endpoint} {asks : List Ask}
      {g' : Governance β} :
    g.Locates i candidates policy located →
    Chooses now i.request policy g located asks none g' →
    Selects now i g candidates (asks.map .asked)
      (.error (.rejected (BreakerBank.rejection policy.service))) g'
  | unlimited {policy : ServicePolicy} {located : List Endpoint} {asks : List Ask} {e : Endpoint}
      {admission : Option BreakerId} {g' : Governance β} :
    g.Locates i candidates policy located →
    Chooses now i.request policy g located asks (some (e, admission)) g' →
    policy.rateLimit = none →
    Selects now i g candidates (asks.map .asked) (.ok (e, admission)) g'
  | permitted {policy : ServicePolicy} {located : List Endpoint} {asks : List Ask} {e : Endpoint}
      {admission : Option BreakerId} {g' : Governance β} {limit : RateLimitPolicy}
      {limiters : LimiterBank} :
    g.Locates i candidates policy located →
    Chooses now i.request policy g located asks (some (e, admission)) g' →
    policy.rateLimit = some limit →
    g.limiters.tryAcquire now i.request.limitKey limit policy.version.toNat = (true, limiters) →
    Selects now i g candidates (asks.map .asked ++ [.limited i.request.limitKey true])
      (.ok (e, admission)) { g' with limiters }
  | limited {policy : ServicePolicy} {located : List Endpoint} {asks : List Ask} {e : Endpoint}
      {admission : Option BreakerId} {g' : Governance β} {limit : RateLimitPolicy}
      {limiters : LimiterBank} :
    g.Locates i candidates policy located →
    Chooses now i.request policy g located asks (some (e, admission)) g' →
    policy.rateLimit = some limit →
    g.limiters.tryAcquire now i.request.limitKey limit policy.version.toNat = (false, limiters) →
    Selects now i g candidates
      (asks.map .asked ++ .limited i.request.limitKey false :: admission.toList.map .released)
      (.error (.rejected (LimiterBank.rejection i.request.limitKey)))
      (admission.elim { g' with limiters } fun id => { g' with limiters }.settle now id .release)

variable {now : Nat} {i : Invocation} {g g' : Governance β} {candidates : List Endpoint}
  {charges : List Charge} {answer : Except RouteError (Endpoint × Option BreakerId)}

theorem Selects.eq_select (h : Selects now i g candidates charges answer g') :
    g.select now i candidates = (answer, g') := by
  cases h with
  | inaccessible h => exact select_of_inaccessible h
  | ungoverned hne hforce hp => exact select_of_ungoverned hne hforce hp
  | mislocated hne hforce hl =>
    rw [select_of_governed hne hforce, selectUnder_of_mislocated hl]
    rfl
  | circuitOpen hl hc => rw [select_of_governed hl.1 hl.2, selectUnder_of_none hl.3 hc]
  | unlimited hl hc hlimit =>
    rw [select_of_governed hl.1 hl.2, selectUnder_of_unlimited hl.3 hc hlimit]
  | permitted hl hc hlimit ht =>
    rw [select_of_governed hl.1 hl.2, selectUnder_of_permitted hl.3 hc hlimit ht]
  | limited hl hc hlimit ht =>
    rw [select_of_governed hl.1 hl.2, selectUnder_of_limited hl.3 hc hlimit ht]

theorem exists_selects (now : Nat) (i : Invocation) (g : Governance β)
    (candidates : List Endpoint) : ∃ charges answer g',
      Selects now i g candidates charges answer g' := by
  by_cases hne : candidates.filter (·.isAccessible) = []
  · exact ⟨_, _, _, .inaccessible hne⟩
  cases hforce : g.inForce i with
  | none =>
    obtain ⟨e, -, balancer, -, hp⟩ := exists_pick g i.request hne
    exact ⟨_, _, _, .ungoverned hne hforce hp⟩
  | some policy =>
    cases hl : policy.routing.locate (candidates.filter (·.isAccessible)) with
    | none => exact ⟨_, _, _, .mislocated hne hforce hl⟩
    | some located =>
      have hloc : g.Locates i candidates policy located := ⟨hne, hforce, hl⟩
      obtain ⟨asks, chosen, g', hc⟩ := exists_chooses g now i.request policy
        (RoutingRules.ne_nil_of_locate hl hne)
      rcases chosen with _ | ⟨e, admission⟩
      · exact ⟨_, _, _, .circuitOpen hloc hc⟩
      cases hlimit : policy.rateLimit with
      | none => exact ⟨_, _, _, .unlimited hloc hc hlimit⟩
      | some limit =>
        rcases ht : g.limiters.tryAcquire now i.request.limitKey limit policy.version.toNat with
          ⟨_ | _, limiters⟩
        · exact ⟨_, _, _, .limited hloc hc hlimit ht⟩
        · exact ⟨_, _, _, .permitted hloc hc hlimit ht⟩

theorem selects_iff : (∃ charges, Selects now i g candidates charges answer g') ↔
    g.select now i candidates = (answer, g') := by
  constructor
  · rintro ⟨charges, h⟩
    exact h.eq_select
  · intro h
    obtain ⟨charges, answer', g'', hs⟩ := exists_selects now i g candidates
    obtain ⟨rfl, rfl⟩ := Prod.mk.inj (hs.eq_select.symm.trans h)
    exact ⟨charges, hs⟩

theorem Selects.mem {e : Endpoint} {admission : Option BreakerId}
    (h : Selects now i g candidates charges (.ok (e, admission)) g') : e ∈ candidates := by
  cases h with
  | ungoverned _ _ hp => exact (List.mem_filter.1 (mem_of_pick (congrArg Prod.fst hp))).1
  | unlimited hl hc | permitted hl hc =>
    have hlocated := (hc.split e admission rfl).1
    exact (List.mem_filter.1 (RoutingRules.subset_of_locate hl.located hlocated)).1

theorem Selects.frame (h : Selects now i g candidates charges answer g') :
    g' = { g with
      limiters := g'.limiters, breakers := g'.breakers, balancer := g'.balancer } := by
  cases h with
  | inaccessible | mislocated => rfl
  | ungoverned _ _ hp => rw [frame_pick hp]
  | circuitOpen _ hc | unlimited _ hc | permitted _ hc => rw [hc.frame]
  | @limited _ _ _ _ admission _ _ _ _ hc =>
    rw [hc.frame]
    cases admission <;> rfl

inductive Answers (now : Nat) (g : Governance β) :
    (call : ContextCall) → List Charge → call.Answer → Governance β → Prop
  | readiness : Answers now g .readiness [] g.readiness g
  | routingMode {i : Invocation} : Answers now g (.routingMode i) [] (g.modeOf i) g
  | select {i : Invocation} {candidates : List Endpoint} {charges : List Charge}
      {answer : Except RouteError (Endpoint × Option BreakerId)} {g' : Governance β} :
    Selects now i g candidates charges answer g' →
    Answers now g (.select i candidates) charges answer g'

theorem Answers.frame {call : ContextCall} {a : call.Answer}
    (h : Answers now g call charges a g') :
    g' = { g with
      limiters := g'.limiters, breakers := g'.breakers, balancer := g'.balancer } := by
  cases h with
  | readiness | routingMode => rfl
  | select h => exact h.frame

theorem answers_iff {call : ContextCall} {answer : call.Answer} :
    (∃ charges, Answers now g call charges answer g') ↔ g.answer now call = (answer, g') := by
  constructor
  · rintro ⟨charges, h⟩
    cases h with
    | readiness | routingMode => rfl
    | select h => exact h.eq_select
  · intro h
    cases call with
    | readiness | routingMode =>
      cases h
      exact ⟨[], by constructor⟩
    | select i candidates =>
      obtain ⟨charges, hs⟩ := selects_iff.2 h
      exact ⟨charges, .select hs⟩

end Governance

end Turnpike
