import Turnpike.Proofs.Breakers
import Turnpike.Proofs.Depot
import Turnpike.Proofs.Origins
import Turnpike.Proofs.Ungoverned

/-!
Which rules are in force after an update. A call goes under the policy that is stored when it
begins. The limiter and the breakers that decide it were made for the rules of that policy, or for
those that another call has brought to the same key under the same version.
-/

namespace Turnpike

/-! ### What is attached -/

theorem PolicyStore.get?_of_update {store store' : PolicyStore} {policy : ServicePolicy}
    (h : store.update policy = .ok store') : store'.get? policy.service = some policy := by
  unfold update at h
  cases hvalid : policy.validate with
  | error e =>
    rw [hvalid] at h
    cases h
  | ok =>
    rw [hvalid] at h
    cases h
    exact (Dict.get?_insert ..).trans (if_pos rfl)

namespace Mark

inductive Stores : PolicyStore → Mark → PolicyStore → Prop
  | stored {store store' : PolicyStore} : Stores store (.stored store') store'
  | called {store : PolicyStore} {n : Nat} {i : Invocation} :
    Stores store (.called n i (i.policy <|> store.get? i.service)) store
  | other {store : PolicyStore} {n : Nat} {m : Mark} : m.owner? = some n → m.call? = none →
    Stores store m store

theorem attached_of_stores {policy : ServicePolicy} {log : List Mark} {store store' : PolicyStore}
    (h : Along Stores store log store') (hstore : store.get? policy.service = some policy)
    (hstays : ∀ next, .stored next ∈ log → next.get? policy.service = some policy) :
    ∀ n i attached, .called n i attached ∈ log → i.policy = none → i.service = policy.service →
      attached = some policy := by
  induction h with
  | nil => simp
  | @cons _ _ _ m log hm _ ih =>
    intro n i attached hmem hnone hservice
    have hlater next (hnext : .stored next ∈ log) := hstays next (List.mem_cons_of_mem m hnext)
    cases hm with
    | stored =>
      have hmem : .called n i attached ∈ log := by simpa using hmem
      exact ih (hstays _ List.mem_cons_self) hlater n i attached hmem hnone hservice
    | called =>
      rcases List.mem_cons.1 hmem with heq | hmem
      · cases heq
        rw [hnone, hservice, hstore]
        rfl
      · exact ih hstore hlater n i attached hmem hnone hservice
    | other _ hcall =>
      rcases List.mem_cons.1 hmem with rfl | hmem
      · cases hcall
      · exact ih hstore hlater n i attached hmem hnone hservice

end Mark

namespace Depot

variable {β : Type} [LoadBalancer β] {d₀ d d' : Depot β} {log ms : List Mark}

theorem Step.stores (h : Step d ms d') :
    Along Mark.Stores d.engine.policies ms d'.engine.policies := by
  cases h with
  | store => exact .single .stored
  | call => exact .single .called
  | @move n es f =>
    apply Along.of_forall
    intro m hm
    rcases List.mem_append.1 hm with hm | hm <;>
    · obtain ⟨_, -, rfl⟩ := List.mem_map.1 hm
      exact .other rfl rfl
  | status | sweepLimiters | sweepBreakers => exact .nil

theorem Reaches.stores (h : Reaches d₀ log d) :
    Along Mark.Stores d₀.engine.policies log d.engine.policies := by
  induction h with
  | start => exact .nil
  | step _ hstep ih => exact ih.append hstep.stores

end Depot

/-! ### What breakers and limiters are for -/

namespace BreakerBank

def Keeps (b b' : BreakerBank) : Prop :=
  ∀ (id : BreakerId) (x : Breaker), b.breakers[id]? = some x →
    ∃ x' : Breaker, b'.breakers[id]? = some x' ∧ x'.policy = x.policy

variable {b b' b'' : BreakerBank} {now version : Nat} {id : BreakerId} {key : String}
  {policy : BreakerPolicy}

theorem Keeps.refl : b.Keeps b := fun _ x hx => ⟨x, hx, rfl⟩

theorem Keeps.trans (h : b.Keeps b') (h' : b'.Keeps b'') : b.Keeps b'' := by
  intro id x hx
  obtain ⟨x', hx', heq⟩ := h id x hx
  obtain ⟨x'', hx'', heq'⟩ := h' id x' hx'
  exact ⟨x'', hx'', heq'.trans heq⟩

theorem keeps_answer (b : BreakerBank) (now : Nat) (id : BreakerId) (c : Breaker.Call) :
    b.Keeps (b.answer now id c).2 :=
  fun _ _ hx => exists_getElem?_answer hx now c

theorem keeps_breaker (h : b.breaker now key policy version = (id, b')) : b.Keeps b' := by
  intro k x hx
  have hlt : k < b.breakers.size := (Array.getElem?_eq_some_iff.1 hx).1
  exact ⟨x, (getElem?_breaker_of_lt h hlt).trans hx, rfl⟩

end BreakerBank

namespace Governance

variable {β : Type} {now version : Nat} {request : OutboundRequest} {rule : BreakerPolicy}
  {P : String → Nat → RateLimitPolicy → Prop} {Q : String → Nat → BreakerPolicy → Prop}
  {g g' : Governance β}

structure AskedUnder (Q : String → Nat → BreakerPolicy → Prop) (version : Nat)
    (request : OutboundRequest) (a : Ask) (b : BreakerBank) (made : BreakerPolicy) : Prop where
  policy : (b.breakers[a.breaker]?).map (·.policy) = some made
  brought : Q (request.breakerKey a.endpoint) version made

theorem AskedUnder.keeps {a : Ask} {b b' : BreakerBank} {made : BreakerPolicy}
    (h : AskedUnder Q version request a b made) (hkeeps : b.Keeps b') :
    AskedUnder Q version request a b' made := by
  obtain ⟨x, hx, rfl⟩ := Option.map_eq_some_iff.1 h.policy
  obtain ⟨x', hx', heq⟩ := hkeeps _ x hx
  exact ⟨Option.map_eq_some_iff.2 ⟨x', hx', heq⟩, h.brought⟩

theorem madeFor_askBreaker {e : Endpoint} {granted : Bool} {id : BreakerId}
    (h : g.askBreaker now request rule version e = ((granted, id), g'))
    (hg : g.breakers.MadeFor Q) (hQ : Q (request.breakerKey e) version rule) :
    g'.breakers.MadeFor Q ∧ g.breakers.Keeps g'.breakers ∧
      ∃ made, AskedUnder Q version request ⟨e, id, granted⟩ g'.breakers made := by
  unfold askBreaker at h
  rcases hbank : g.breakers.breaker now (request.breakerKey e) rule version with ⟨id', bank⟩
  rcases hask : bank.tryAcquire now id' with ⟨granted', bank'⟩
  simp only [hbank, hask] at h
  cases h
  obtain rfl : (bank.answer now id .tryAcquire).2 = bank' := congrArg Prod.snd hask
  obtain ⟨x, hx, hmade⟩ := hg.handed hQ hbank
  obtain ⟨x', hx', heq⟩ := BreakerBank.keeps_answer bank now id .tryAcquire id x hx
  refine ⟨(hg.breaker hQ hbank).answer now id .tryAcquire,
    (BreakerBank.keeps_breaker hbank).trans (BreakerBank.keeps_answer bank now id .tryAcquire),
    x.policy, ?_, hmade⟩
  exact Option.map_eq_some_iff.2 ⟨x', hx', heq⟩

variable [LoadBalancer β] {candidates : List Endpoint} {asks : List Ask}

theorem Asks.madeFor {r : Option (Endpoint × BreakerId)}
    (h : Asks now request rule version g candidates asks r g') (hg : g.breakers.MadeFor Q)
    (hQ : ∀ e, Q (request.breakerKey e) version rule) :
    g'.breakers.MadeFor Q ∧ g.breakers.Keeps g'.breakers ∧
      ∀ a ∈ asks, ∃ made, AskedUnder Q version request a g'.breakers made := by
  induction h with
  | exhausted hp =>
    rw [frame_pick hp]
    exact ⟨hg, .refl, by simp⟩
  | granted hp ha =>
    have hpicked := congrArg (·.breakers) (frame_pick hp)
    dsimp only at hpicked
    obtain ⟨hmade, hkeeps, hasked⟩ := madeFor_askBreaker ha (hpicked ▸ hg) (hQ _)
    exact ⟨hmade, hpicked ▸ hkeeps, by simpa using hasked⟩
  | refused hp ha _ ih =>
    have hpicked := congrArg (·.breakers) (frame_pick hp)
    dsimp only at hpicked
    obtain ⟨hmade, hkeeps, made, hasked⟩ := madeFor_askBreaker ha (hpicked ▸ hg) (hQ _)
    -- The breaker that refused stays under its policy, whatever is asked after it.
    obtain ⟨hmade', hkeeps', hasks⟩ := ih hmade
    refine ⟨hmade', (hpicked ▸ hkeeps).trans hkeeps', ?_⟩
    exact List.forall_mem_cons.2 ⟨⟨made, hasked.keeps hkeeps'⟩, hasks⟩

structure LimitedUnder (P : String → Nat → RateLimitPolicy → Prop) (now version : Nat)
    (rule : RateLimitPolicy) (b : LimiterBank) (key : String) (permitted : Bool)
    (made : RateLimitPolicy) : Prop where
  decides : ((b.decider now key rule version).tryAcquire now).1 = permitted
  isFor : b.IsFor made (b.decider now key rule version)
  brought : P key version made

structure Brings (P : String → Nat → RateLimitPolicy → Prop)
    (Q : String → Nat → BreakerPolicy → Prop) (request : OutboundRequest)
    (policy : ServicePolicy) : Prop where
  limit : ∀ rule, policy.rateLimit = some rule → P request.limitKey policy.version.toNat rule
  breaker : ∀ rule e, policy.circuitBreaker = some rule →
    Q (request.breakerKey e) policy.version.toNat rule

theorem Chooses.madeFor {policy : ServicePolicy} {chosen : Option (Endpoint × Option BreakerId)}
    (h : Chooses now request policy g candidates asks chosen g') (hg : g.breakers.MadeFor Q)
    (hbrings : Brings P Q request policy) :
    g'.breakers.MadeFor Q ∧ ∀ a ∈ asks, ∃ rule made, policy.circuitBreaker = some rule ∧
      AskedUnder Q policy.version.toNat request a g'.breakers made := by
  cases h with
  | @admitted rule _ _ _ hrule ha =>
    obtain ⟨hmade, -, hasked⟩ := ha.madeFor hg fun e => hbrings.breaker rule e hrule
    refine ⟨hmade, fun a hmem => ?_⟩
    obtain ⟨made, hunder⟩ := hasked a hmem
    exact ⟨rule, made, hrule, hunder⟩
  | picked _ hp =>
    rw [frame_pick hp]
    exact ⟨hg, by simp⟩

section Selects

variable {i : Invocation} {charges : List Charge}
  {answer : Except RouteError (Endpoint × Option BreakerId)}

theorem Selects.limitedUnder (h : Selects now i g candidates charges answer g')
    (hg : g.limiters.MadeFor P)
    (hbrings : ∀ policy, g.inForce i = some policy → Brings P Q i.request policy) :
    g'.limiters.MadeFor P ∧ ∀ key permitted, .limited key permitted ∈ charges →
      ∃ policy rule made, g.inForce i = some policy ∧ policy.rateLimit = some rule ∧
        key = i.request.limitKey ∧
        LimitedUnder P now policy.version.toNat rule g.limiters key permitted made := by
  -- What a limiter decides, and what it leaves, do not depend on the answer.
  have hlimit {policy : ServicePolicy} {located : List Endpoint} {limit : RateLimitPolicy}
      {permitted : Bool} {limiters : LimiterBank} (hl : g.Locates i candidates policy located)
      (hlimit : policy.rateLimit = some limit)
      (ht : g.limiters.tryAcquire now i.request.limitKey limit policy.version.toNat =
        (permitted, limiters)) :
      limiters.MadeFor P ∧ ∃ policy rule made, g.inForce i = some policy ∧
        policy.rateLimit = some rule ∧
        LimitedUnder P now policy.version.toNat rule g.limiters i.request.limitKey permitted
          made := by
    have hp := (hbrings policy hl.inForce).limit limit hlimit
    obtain ⟨-, -, hdecides, -⟩ := LimiterBank.exists_serves_decider g.limiters now
      i.request.limitKey limit policy.version.toNat
    obtain ⟨made, hmade, hfor⟩ := hg.decider hp now
    obtain rfl : (g.limiters.tryAcquire now i.request.limitKey limit policy.version.toNat).2 =
      limiters := congrArg Prod.snd ht
    refine ⟨hg.tryAcquire hp now, policy, limit, made, hl.inForce, hlimit, ?_, hfor, hmade⟩
    exact hdecides.symm.trans (congrArg Prod.fst ht)
  cases h with
  | inaccessible | mislocated => exact ⟨hg, by simp⟩
  | ungoverned _ _ hp =>
    rw [frame_pick hp]
    exact ⟨hg, by simp⟩
  | circuitOpen _ hc | unlimited _ hc =>
    rw [hc.frame]
    exact ⟨hg, by simp⟩
  | permitted hl _ hrule ht =>
    obtain ⟨hmade, policy, rule, made, hforce, hrule, hunder⟩ := hlimit hl hrule ht
    refine ⟨hmade, fun key permitted hmem => ?_⟩
    obtain ⟨rfl, rfl⟩ : key = i.request.limitKey ∧ permitted = true := by simpa using hmem
    exact ⟨policy, rule, made, hforce, hrule, rfl, hunder⟩
  | @limited _ _ _ _ admission _ _ _ hl _ hrule ht =>
    obtain ⟨hmade, policy, rule, made, hforce, hrule, hunder⟩ := hlimit hl hrule ht
    refine ⟨?_, fun key permitted hmem => ?_⟩
    · cases admission <;> exact hmade
    · obtain ⟨rfl, rfl⟩ : key = i.request.limitKey ∧ permitted = false := by simpa using hmem
      exact ⟨policy, rule, made, hforce, hrule, rfl, hunder⟩

theorem Selects.askedUnder (h : Selects now i g candidates charges answer g')
    (hg : g.breakers.MadeFor Q)
    (hbrings : ∀ policy, g.inForce i = some policy → Brings P Q i.request policy) :
    g'.breakers.MadeFor Q ∧ ∀ a, .asked a ∈ charges →
      ∃ policy rule made, g.inForce i = some policy ∧ policy.circuitBreaker = some rule ∧
        AskedUnder Q policy.version.toNat i.request a g'.breakers made := by
  have hasked {policy : ServicePolicy} {located : List Endpoint} {asks : List Ask}
      {chosen : Option (Endpoint × Option BreakerId)} {g'' : Governance β}
      (hl : g.Locates i candidates policy located)
      (hc : Chooses now i.request policy g located asks chosen g'') :
      g''.breakers.MadeFor Q ∧ ∀ a ∈ asks, ∃ policy rule made, g.inForce i = some policy ∧
        policy.circuitBreaker = some rule ∧
        AskedUnder Q policy.version.toNat i.request a g''.breakers made := by
    obtain ⟨hmade, hasks⟩ := hc.madeFor hg (hbrings policy hl.inForce)
    refine ⟨hmade, fun a ha => ?_⟩
    obtain ⟨rule, made, hrule, hunder⟩ := hasks a ha
    exact ⟨policy, rule, made, hl.inForce, hrule, hunder⟩
  cases h with
  | inaccessible | mislocated => exact ⟨hg, by simp⟩
  | ungoverned _ _ hp =>
    rw [frame_pick hp]
    exact ⟨hg, by simp⟩
  | circuitOpen hl hc | unlimited hl hc | permitted hl hc =>
    obtain ⟨hmade, hasks⟩ := hasked hl hc
    exact ⟨hmade, fun a ha => hasks a (by simpa using ha)⟩
  | @limited _ _ _ _ admission g'' _ limiters hl hc =>
    obtain ⟨hmade, hasks⟩ := hasked hl hc
    cases admission with
    | none => exact ⟨hmade, fun a ha => hasks a (by simpa using ha)⟩
    | some id =>
      refine ⟨hmade.answer now id (.settle .release), fun a ha => ?_⟩
      obtain ⟨policy, rule, made, hforce, hrule, hunder⟩ := hasks a (by simpa using ha)
      exact ⟨policy, rule, made, hforce, hrule,
        hunder.keeps (BreakerBank.keeps_answer _ now id (.settle .release))⟩

theorem Selects.charged {e : Endpoint} {admission : Option BreakerId} {policy : ServicePolicy}
    (h : Selects now i g candidates charges (.ok (e, admission)) g')
    (hforce : g.inForce i = some policy) :
    (policy.rateLimit.isSome → .limited i.request.limitKey true ∈ charges) ∧
      (policy.circuitBreaker.isSome → ∃ id, .asked ⟨e, id, true⟩ ∈ charges) := by
  have hasked {located : List Endpoint} {asks : List Ask} {g'' : Governance β}
      (hc : Chooses now i.request policy g located asks (some (e, admission)) g'')
      (hrule : policy.circuitBreaker.isSome) : ∃ id, ⟨e, id, true⟩ ∈ asks := by
    obtain ⟨-, refused, hasks, -⟩ := hc.split e admission rfl
    cases admission with
    | some id => exact ⟨id, by simp [hasks]⟩
    | none =>
      generalize hchosen : some (e, none) = chosen at hc
      cases hc with
      | admitted =>
        obtain ⟨_, _, heq⟩ := Option.map_eq_some_iff.1 hchosen.symm
        cases heq
      | picked hnone => simp [hnone] at hrule
  cases h with
  | ungoverned _ hnone => cases hnone.symm.trans hforce
  | unlimited hl hc hnone =>
    cases hl.inForce.symm.trans hforce
    exact ⟨by simp [hnone], fun hrule => by simpa using hasked hc hrule⟩
  | permitted hl hc =>
    cases hl.inForce.symm.trans hforce
    exact ⟨by simp, fun hrule => by simpa using hasked hc hrule⟩

end Selects

/--
A selection decides under the policy in force: by a limiter and by breakers that were made for rules
which their keys may have under its version, and never around a rule of the policy.
-/
structure Decides (P : String → Nat → RateLimitPolicy → Prop)
    (Q : String → Nat → BreakerPolicy → Prop) (now : Nat) (i : Invocation) (g : Governance β)
    (charges : List Charge) (answer : Except RouteError (Endpoint × Option BreakerId))
    (g' : Governance β) : Prop where
  limited : ∀ key permitted, .limited key permitted ∈ charges →
    ∃ policy rule made, i.policy = some policy ∧ policy.rateLimit = some rule ∧
      key = i.request.limitKey ∧
      LimitedUnder P now policy.version.toNat rule g.limiters key permitted made
  asked : ∀ a, .asked a ∈ charges →
    ∃ policy rule made, i.policy = some policy ∧ policy.circuitBreaker = some rule ∧
      AskedUnder Q policy.version.toNat i.request a g'.breakers made
  admitted : ∀ e admission policy, answer = .ok (e, admission) → i.policy = some policy →
    (policy.rateLimit.isSome → .limited i.request.limitKey true ∈ charges) ∧
      (policy.circuitBreaker.isSome → ∃ id, .asked ⟨e, id, true⟩ ∈ charges)

end Governance

/-! ### Runs -/

namespace Mark

def LimitRule (log : List Mark) (key : String) (version : Nat) (rule : RateLimitPolicy) : Prop :=
  ∃ n i, ∃ policy : ServicePolicy, .called n i (some policy) ∈ log ∧ i.request.limitKey = key ∧
    policy.version.toNat = version ∧ policy.rateLimit = some rule

def BreakerRule (log : List Mark) (key : String) (version : Nat) (rule : BreakerPolicy) : Prop :=
  ∃ n i e, ∃ policy : ServicePolicy, .called n i (some policy) ∈ log ∧
    i.request.breakerKey e = key ∧ policy.version.toNat = version ∧
    policy.circuitBreaker = some rule

variable {log : List Mark}

theorem LimitRule.append {key : String} {version : Nat} {rule : RateLimitPolicy}
    (h : LimitRule log key version rule) (ms : List Mark) :
    LimitRule (log ++ ms) key version rule := by
  obtain ⟨n, i, policy, hmem, h⟩ := h
  exact ⟨n, i, policy, List.mem_append_left _ hmem, h⟩

theorem BreakerRule.append {key : String} {version : Nat} {rule : BreakerPolicy}
    (h : BreakerRule log key version rule) (ms : List Mark) :
    BreakerRule (log ++ ms) key version rule := by
  obtain ⟨n, i, e, policy, hmem, h⟩ := h
  exact ⟨n, i, e, policy, List.mem_append_left _ hmem, h⟩

theorem brings_of_called {n : Nat} {i : Invocation} {policy : ServicePolicy}
    (h : .called n i (some policy) ∈ log) :
    Governance.Brings (LimitRule log) (BreakerRule log) i.request policy :=
  ⟨fun _ hrule => ⟨n, i, policy, h, rfl, rfl, hrule⟩,
    fun _ e hrule => ⟨n, i, e, policy, h, rfl, rfl, hrule⟩⟩

end Mark

namespace Governance

variable {β : Type} {g : Governance β} {P : String → Nat → RateLimitPolicy → Prop}
  {Q : String → Nat → BreakerPolicy → Prop}

structure MadeFor (P : String → Nat → RateLimitPolicy → Prop)
    (Q : String → Nat → BreakerPolicy → Prop) (g : Governance β) : Prop where
  limiters : g.limiters.MadeFor P
  breakers : g.breakers.MadeFor Q

theorem MadeFor.hear (h : g.MadeFor P Q) (now : Nat) (signal : Signal) :
    (g.hear now signal).MadeFor P Q := by
  cases signal with
  | report id report => exact ⟨h.limiters, h.breakers.answer now id (.settle report)⟩
  | _ => exact h

theorem MadeFor.foldl_hear (h : g.MadeFor P Q) (now : Nat) (signals : List Signal) :
    (signals.foldl (·.hear now) g).MadeFor P Q := by
  induction signals generalizing g with
  | nil => exact h
  | cons signal signals ih => exact ih (h.hear now signal)

theorem policy_of_inForce {i : Invocation} {policy : ServicePolicy}
    (h : g.inForce i = some policy) : i.policy = some policy := by
  unfold inForce at h
  split at h
  · exact h
  · cases h

end Governance

namespace Depot

variable {β : Type} [LoadBalancer β] {d d' : Depot β} {g g' : Governance β} {engine : Engine}
  {log ms : List Mark} {n : Nat} {f f' : Flight} {es : List Entry}

omit [LoadBalancer β] in
theorem brings_of_watched {i : Invocation} {candidates : List Endpoint}
    {next : _ → Dialogue (Response × Invocation)}
    (hf : (Flight.running (.ask (.context (.select i candidates)) next)).Watched
      (Mark.latest? n log)) (policy : ServicePolicy) (hforce : g.inForce i = some policy) :
    Governance.Brings (Mark.LimitRule log) (Mark.BreakerRule log) i.request policy := by
  obtain ⟨j, hcall, hrequest⟩ := hf.carries rfl
  rw [Governance.policy_of_inForce hforce] at hcall
  rw [← hrequest]
  exact Mark.brings_of_called (Mark.called_mem_of_latest? hcall)

theorem madeFor_of_moves (h : Fleet.Moves g f es f' g') (hf : f.Watched (Mark.latest? n log))
    (hg : g.MadeFor (Mark.LimitRule log) (Mark.BreakerRule log)) :
    g'.MadeFor (Mark.LimitRule log) (Mark.BreakerRule log) := by
  cases h with
  | enter | call | cluster | wake | finish | abandon => exact hg
  | tell now => exact hg.hear now _
  | drop now => exact hg.foldl_hear now _
  | context now ha =>
    cases ha with
    | readiness | routingMode => exact hg
    | select hs =>
      exact ⟨(hs.limitedUnder hg.limiters (brings_of_watched hf)).1,
        (hs.askedUnder hg.breakers (brings_of_watched hf)).1⟩

theorem Step.madeFor (h : Step d ms d') (hf : ∀ n, (d.fleet.flights n).Watched (Mark.latest? n log))
    (hd : d.context.MadeFor (Mark.LimitRule log) (Mark.BreakerRule log)) :
    d'.context.MadeFor (Mark.LimitRule (log ++ ms)) (Mark.BreakerRule (log ++ ms)) := by
  have hlater : d'.context.MadeFor (Mark.LimitRule log) (Mark.BreakerRule log) := by
    cases h with
    | store | call => exact hd
    | status => exact ⟨hd.limiters, hd.breakers⟩
    | move n hm _ => exact madeFor_of_moves hm (hf n) hd
    | sweepLimiters now => exact ⟨hd.limiters.sweep now, hd.breakers⟩
    | sweepBreakers now => exact ⟨hd.limiters, hd.breakers.sweep now⟩
  exact ⟨hlater.limiters.mono fun _ _ _ h => h.append ms,
    hlater.breakers.mono fun _ _ _ h => h.append ms⟩

theorem Reaches.madeFor (h : Reaches (fresh engine g) log d) (he : engine.BuiltIn)
    (hlimiters : g.limiters.isEmpty = true) (hbreakers : g.breakers.isEmpty = true) :
    d.context.MadeFor (Mark.LimitRule log) (Mark.BreakerRule log) := by
  induction h with
  | start => exact ⟨.of_isEmpty hlimiters, .of_isEmpty hbreakers⟩
  | step h hstep ih => exact hstep.madeFor (h.watched he) ih

end Depot

/--
In every run in which policies are in force, what is selected goes under the policy that the call
has attached: the limiter and the breakers that decide were made for its rules, or for rules that
another call has brought to the same key under the same version. A policy that an update has stored
is attached by every later call of its service that has none of its own, until another one is
stored. And the limiter that a bank takes was made for the rule that it is given, or for one that it
was given before with this key and version.
-/
theorem decided_under_rules_of_version {β : Type} [LoadBalancer β] {engine : Engine}
    {g : Governance β} {log : List Mark} {d : Depot β} (hbuilt : engine.BuiltIn)
    (hready : g.readiness.policy = .policyReady) (hlimiters : g.limiters.isEmpty = true)
    (hbreakers : g.breakers.isEmpty = true) (h : Depot.Reaches (.fresh engine g) log d) :
    (∀ n i candidates next now charges answer g',
      d.fleet.flights n = .running (.ask (.context (.select i candidates)) next) →
      d.context.Answers now (.select i candidates) charges answer g' →
      (∃ j, Mark.latest? n log = some (j, i.policy) ∧ j.request = i.request) ∧
        Governance.Decides (Mark.LimitRule log) (Mark.BreakerRule log) now i d.context charges
          answer g') ∧
    (∀ pre old store policy post, log = pre ++ .stored store :: post →
      PolicyStore.update old policy = .ok store →
      (∀ next, .stored next ∈ post → next.get? policy.service = some policy) →
      ∀ n i attached, .called n i attached ∈ post → i.policy = none →
        i.service = policy.service → attached = some policy) ∧
    ∀ (b : LimiterBank) past now key rule version, b.isEmpty = true →
      ((b.after past).tryAcquire now key rule version).1 =
          (((b.after past).decider now key rule version).tryAcquire now).1 ∧
        ∃ made, (b.after past).IsFor made ((b.after past).decider now key rule version) ∧
          (made = rule ∨ ∃ t admitted, (t, .asked key made version admitted) ∈ past) := by
  refine ⟨?_, ?_, ?_⟩
  · intro n i candidates next now charges answer g' hf ha
    have hwatched := h.watched hbuilt n
    rw [hf] at hwatched
    obtain ⟨j, hcall, hrequest⟩ := hwatched.carries rfl
    refine ⟨⟨j, hcall, hrequest⟩, ?_⟩
    have hmade := h.madeFor hbuilt hlimiters hbreakers
    have hgoverned : d.context.readiness.governed = true := by
      rw [h.governed]
      simp [Depot.fresh, Depot.context, Readiness.governed, hready]
    have hforce : d.context.inForce i = i.policy := by
      rw [Governance.inForce, hgoverned, if_pos rfl]
    cases ha with
    | select hs =>
      refine ⟨?_, ?_, ?_⟩
      · have hlimited := (hs.limitedUnder hmade.limiters (Depot.brings_of_watched hwatched)).2
        rwa [hforce] at hlimited
      · have hasked := (hs.askedUnder hmade.breakers (Depot.brings_of_watched hwatched)).2
        rwa [hforce] at hasked
      · rintro e admission policy rfl hpolicy
        exact hs.charged (hforce.trans hpolicy)
  · intro pre old store policy post hlog hupdate hstays
    have hstores := h.stores
    rw [hlog] at hstores
    obtain ⟨store', -, hpost⟩ := Along.exists_of_append hstores
    cases hpost with
    | cons hstored hpost =>
      cases hstored with
      | stored =>
        exact Mark.attached_of_stores hpost (PolicyStore.get?_of_update hupdate) hstays
      | other ho => cases ho
  · intro b past now key rule version hempty
    obtain ⟨-, -, hdecides, -⟩ :=
      LimiterBank.exists_serves_decider (b.after past) now key rule version
    refine ⟨hdecides, ?_⟩
    let P (k : String) (v : Nat) (made : RateLimitPolicy) : Prop :=
      (k = key ∧ v = version ∧ made = rule) ∨ ∃ t admitted, (t, .asked k made v admitted) ∈ past
    have hpast : (b.after past).MadeFor P :=
      (LimiterBank.MadeFor.of_isEmpty hempty).after fun t k made v admitted hmem =>
        .inr ⟨t, admitted, hmem⟩
    obtain ⟨made, hmade, hfor⟩ := hpast.decider (.inl ⟨rfl, rfl, rfl⟩) now
    refine ⟨made, hfor, hmade.imp_left ?_⟩
    rintro ⟨-, -, rfl⟩
    rfl

theorem admitted_under_updated_rules :
    let g : Governance := {
      readiness := ⟨.ready, .policyReady⟩, routingMode := .reuse
      limiters := ⟨.empty, .fixedWindow, ⟨30000, 60000, 0, .empty⟩⟩
      breakers := ⟨.empty, .count, ⟨30000, 60000, 0, .empty⟩, #[]⟩
      balancer := .roundRobinStart }
    let engine : Engine := ⟨Invoker.builtin Schedule.exponential.runner, Invoker.failfast, {}⟩
    let policy : ServicePolicy := {
      service := "s", version := 7, circuitBreaker := some {}, rateLimit := some { permits := 1 } }
    ∃ log d store, Depot.Reaches (.fresh engine g) log d ∧
      PolicyStore.update {} policy = .ok store ∧ .stored store ∈ log ∧
      ∃ i candidates next charges answer g',
        d.fleet.flights 0 = .running (.ask (.context (.select i candidates)) next) ∧
        d.context.Answers 0 (.select i candidates) charges answer g' ∧
        .limited "s:/" true ∈ charges ∧
        (d.context.limiters.decider 0 "s:/" { permits := 1 } 7).policy = { permits := 1 } ∧
        ∃ x, g'.breakerAt? 0 = some x ∧ x.policy = {} := by
  intro g engine policy
  let a : Endpoint := { id := "a", host := "h", port := 1 }
  let i : Invocation := {
    request := { id := ⟨⟨List.replicate 16 0, rfl⟩⟩, service := "s", path := "/" }
    instances := [a] }
  let begun : Invocation := { i with policy := some policy, attempts := 1 }
  have hengine : engine.BuiltIn := ⟨{}, engine, rfl, rfl⟩
  let g' := (g.pick i.request [a]).2
  let g'' := (g'.askBreaker 0 i.request {} policy.version.toNat a).2
  let limiters := (g.limiters.tryAcquire 0 "s:/" { permits := 1 } policy.version.toNat).2
  have hpick : g.pick i.request [a] = (some a, g') := Prod.ext (by decide) rfl
  have hask : g'.askBreaker 0 i.request {} policy.version.toNat a = ((true, 0), g'') :=
    Prod.ext (by decide) rfl
  have hchoose :
      Governance.Chooses 0 i.request policy g [a] [⟨a, 0, true⟩] (some (a, some 0)) g'' :=
    .admitted (r := some (a, 0)) rfl (.granted hpick hask)
  have hselect : Governance.Selects 0 begun g [a] [.asked ⟨a, 0, true⟩, .limited "s:/" true]
      (.ok (a, some 0)) { g'' with limiters } :=
    .permitted (i := begun) ⟨by decide, rfl, rfl⟩ hchoose rfl (Prod.ext (by decide) rfl)
  obtain ⟨store, hstore, hget⟩ : ∃ store, PolicyStore.update {} policy = .ok store ∧
      store.get? "s" = some policy :=
    ⟨_, rfl, by decide⟩
  have hstart : Depot.Reaches (.fresh engine g) [] (.fresh engine g) := .start
  have h := hstart.step (.store (.updated hstore))
  have h := h.move 0 rfl rfl (.enter (i := i) rfl) nofun
  let engine' : Engine := { engine with policies := store }
  have hexecute : engine'.execute i = (Invoker.failfast.execute (some policy)).run i := by
    unfold Engine.execute
    rw [show engine'.policies.get? i.service = some policy from hget]
    rfl
  have h := h.call 0 (show _ = engine' from rfl) rfl
  rw [hexecute] at h
  have h := h.move 0 rfl rfl (.cluster ()) nofun
  have h := h.move 0 rfl rfl (.context 0 .readiness) nofun
  have h := h.move 0 rfl rfl (.context 0 .routingMode) nofun
  obtain ⟨log, d, h, hg, hcalls, ⟨post, hlog, hkept⟩, next, hf⟩ : ∃ log d,
      Depot.Reaches (.fresh engine g) log d ∧ d.context = g ∧
      log.filterMap Mark.call? = [(i, engine'.attached i)] ∧
      (∃ post, log = .stored store :: post ∧ Mark.ofOwner 0 post = post) ∧
      ∃ next, d.fleet.flights 0 = .running (.ask (.context (.select begun [a])) next) :=
    ⟨_, _, h, rfl, rfl, ⟨_, rfl, rfl⟩, _, rfl⟩
  obtain ⟨hselects, hattach, -⟩ := decided_under_rules_of_version hengine rfl rfl rfl h
  have hcalled {n : Nat} {j : Invocation} {attached : Option ServicePolicy}
      (hmem : .called n j attached ∈ log) : attached = some policy := by
    have hcall : (j, attached) ∈ log.filterMap Mark.call? := List.mem_filterMap.2 ⟨_, hmem, rfl⟩
    rw [hcalls] at hcall
    cases List.mem_singleton.1 hcall
    refine hattach [] {} store policy post hlog hstore ?_ n i _ (by simpa [hlog] using hmem) rfl rfl
    intro next hnext
    rw [← hkept] at hnext
    cases of_decide_eq_true (List.mem_filter.1 hnext).2
  have hanswers := Governance.Answers.select hselect
  have hdecides := (hselects 0 begun [a] next 0 _ _ _ hf (hg ▸ hanswers)).2
  obtain ⟨_, _, made, ⟨⟩, ⟨⟩, -, -, hfor, n, j, policy', hmem, -, -, hlimit⟩ :=
    hdecides.limited "s:/" true (by simp)
  cases hcalled hmem
  cases hlimit
  obtain ⟨_, _, made, ⟨⟩, ⟨⟩, hx, n, j, _, policy', hmem, -, -, hrule⟩ :=
    hdecides.asked ⟨a, 0, true⟩ (by simp)
  cases hcalled hmem
  cases hrule
  exact ⟨log, d, store, h, hstore, by simp [hlog], begun, [a], next, _, _, _, hf, hg ▸ hanswers,
    by simp, hfor.1, Option.map_eq_some_iff.1 hx⟩

/--
An update under the version in use is not seen: the call that follows it has the new policy
attached, but is turned away by the limiter of the old one.
-/
theorem update_under_version_in_use_unseen :
    let rule (permits : UInt64) : RateLimitPolicy := { strategy := some "fixedWindow", permits }
    let policy (permits : UInt64) : ServicePolicy :=
      { service := "s", rateLimit := some (rule permits) }
    let E := Surroundings.refusing [{ id := "a", host := "h", port := 1 }]
      (.dispatch .connect "refused")
    let i : Invocation := {
      request := { id := ⟨⟨List.replicate 16 0, rfl⟩⟩, service := "s", path := "/" } }
    ∃ engine g store store', Engine.ofConfig {} = .ok engine ∧
      Governance.ofConfig ⟨.ready, .policyReady⟩ {} 0 = .ok g ∧
      PolicyStore.update {} (policy 1) = .ok store ∧
      PolicyStore.update store (policy 100) = .ok store' ∧
      let first := ({ engine with policies := store }.execute i).record E.answer g
      let second := ({ engine with policies := store' }.execute i).record E.answer first.2.2
      (Event.dispatches first.1).length = 1 ∧ second.2.1.2.policy = some (policy 100) ∧
        Event.dispatches second.1 = [] ∧
        (first.2.2.limiters.decider 0 "s:/" (rule 100) 0).policy = rule 1 := by
  intro rule policy E i
  refine ⟨_, _, _, _, rfl, rfl, rfl, rfl, ?_, ?_, ?_, ?_⟩
  · decide +kernel
  · decide +kernel
  · decide +kernel
  · decide +kernel

end Turnpike
