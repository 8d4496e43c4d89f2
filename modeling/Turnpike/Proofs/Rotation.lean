import Mathlib.Order.Interval.Finset.Nat
import Turnpike.Proofs.Charges
import Turnpike.Proofs.Resolution

namespace Turnpike

/-! ### Turns -/

namespace Balancer

def turns (m picks n : Nat) : List Nat := (List.range' picks n).map (· % m)

variable {m picks n p q : Nat}

@[simp] theorem length_turns : (turns m picks n).length = n := by
  simp [turns]

theorem turns_succ : turns m picks (n + 1) = picks % m :: turns m (picks + 1) n := by
  simp [turns, List.range'_succ]

theorem turns_add (m picks n k : Nat) :
    turns m picks (n + k) = turns m picks n ++ turns m (picks + n) k := by
  simp [turns, ← List.map_append]

theorem count_turns_round (picks : Nat) (h : p < m) : (turns m picks m).count p = 1 := by
  have hround : (↑((List.range' picks (picks + m - picks)).map (· % m)) : Multiset Nat) =
      Multiset.range m :=
    Nat.multiset_Ico_map_mod picks m
  rw [Nat.add_sub_cancel_left] at hround
  rw [turns, ← Multiset.coe_count, hround]
  exact Multiset.count_eq_one_of_mem (Multiset.nodup_range m) (Multiset.mem_range.2 h)

theorem count_turns_le (picks n : Nat) (hp : p < m) (hq : q < m) :
    (turns m picks n).count p ≤ (turns m picks n).count q + 1 := by
  induction n using Nat.strongRecOn generalizing picks with
  | ind n ih =>
    rcases Nat.lt_or_ge n m with hlt | hge
    · -- What is less than a round takes no position twice.
      have hround := count_turns_round picks hp
      have hsplit := turns_add m picks n (m - n)
      rw [Nat.add_sub_of_le (Nat.le_of_lt hlt)] at hsplit
      rw [hsplit, List.count_append] at hround
      omega
    · obtain ⟨k, rfl⟩ := Nat.exists_eq_add_of_le hge
      have hk := ih k (by omega) (picks + m)
      rw [turns_add, List.count_append, List.count_append, count_turns_round picks hp,
        count_turns_round picks hq]
      omega

end Balancer

/-! ### Selections and dispatches of a call -/

structure EngineCall where
  engine : Engine
  invocation : Invocation

namespace EngineCall

def dialogue (c : EngineCall) : Dialogue (Response × Invocation) := c.engine.execute c.invocation

def IsFailfast (c : EngineCall) : Prop :=
  c.engine.invokerFor (c.engine.attached c.invocation) = .failfast

end EngineCall

namespace Event

def selection? : Event → Option (Except RouteError (Endpoint × Option BreakerId))
  | ⟨.context (.select _ _), answer⟩ => some answer
  | _ => none

def chosen (answer : Except RouteError (Endpoint × Option BreakerId)) : List Endpoint :=
  (answer.toOption.map (·.1)).toList

def selections (es : List Event) : List (Except RouteError (Endpoint × Option BreakerId)) :=
  es.filterMap selection?

def destinations (es : List Event) : List Endpoint :=
  es.filterMap fun e => e.invoked?.map (·.2)

structure Idle (es : List Event) : Prop where
  selections_eq : selections es = []
  destinations_eq : destinations es = []

structure Single (es : List Event) : Prop where
  length_selections : (selections es).length ≤ 1
  destinations_eq : destinations es = (selections es).flatMap chosen

variable {e : Event} {es es' : List Event}

theorem selections_append :
    selections (es ++ es') = selections es ++ selections es' := by
  simp [selections]

theorem destinations_append :
    destinations (es ++ es') = destinations es ++ destinations es' := by
  simp [destinations]

theorem Silent.selection?_eq (h : e.Silent) : e.selection? = none := by
  unfold selection?
  split
  · cases h
  · rfl

theorem idle_of_silent (h : ∀ e ∈ es, e.Silent) : Idle es where
  selections_eq := List.filterMap_eq_nil_iff.2 fun e he => (h e he).selection?_eq
  destinations_eq := List.filterMap_eq_nil_iff.2 fun e he => by
    rw [(h e he).invoked?_eq, Option.map_none]

namespace Idle

theorem append (h : Idle es) (h' : Idle es') : Idle (es ++ es') where
  selections_eq := by rw [selections_append, h.selections_eq, h'.selections_eq, List.nil_append]
  destinations_eq := by
    rw [destinations_append, h.destinations_eq, h'.destinations_eq, List.nil_append]

theorem append_single (h : Idle es) (h' : Single es') : Single (es ++ es') where
  length_selections := by
    rw [selections_append, h.selections_eq]
    exact h'.length_selections
  destinations_eq := by
    rw [selections_append, destinations_append, h.selections_eq, h.destinations_eq]
    exact h'.destinations_eq

theorem single (h : Idle es) : Single es where
  length_selections := by
    rw [h.selections_eq]
    exact Nat.zero_le 1
  destinations_eq := by rw [h.destinations_eq, h.selections_eq, List.flatMap_nil]

end Idle

theorem Single.append_idle (h : Single es) (h' : Idle es') : Single (es ++ es') where
  length_selections := by
    rw [selections_append, h'.selections_eq, List.append_nil]
    exact h.length_selections
  destinations_eq := by
    rw [selections_append, destinations_append, h'.selections_eq, h'.destinations_eq,
      List.append_nil, List.append_nil]
    exact h.destinations_eq

theorem selections_select (i : Invocation) (candidates : List Endpoint)
    (answer : Except RouteError (Endpoint × Option BreakerId)) (es : List Event) :
    selections (context (.select i candidates) answer :: es) = answer :: selections es := rfl

theorem single_of_selected {i : Invocation} {candidates : List Endpoint}
    {answer : Except RouteError (Endpoint × Option BreakerId)} (hselections : selections es = [])
    (hdestinations : destinations es = chosen answer) :
    Single (context (.select i candidates) answer :: es) where
  length_selections := by
    rw [selections_select, hselections]
    exact Nat.le_refl 1
  destinations_eq := by
    rw [selections_select, hselections, List.flatMap_singleton]
    exact hdestinations

end Event

section Attempts

open Event (cluster context told selections destinations Idle Single)

variable {i j : Invocation} {es : List Event} {o : AttemptOutcome}

theorem idle_told (signals : List Signal) : Idle (told signals) :=
  Event.idle_of_silent fun _ => Event.silent_of_mem_told

theorem idle_failing (i : Invocation) (e : Option Endpoint) (f : Failure) (response : Response) :
    Idle (failing i e f response) :=
  Event.idle_of_silent fun _ => Event.silent_of_mem_failing

theorem Routed.idle {found : Except Failure (List Endpoint)} (h : Routed i es found j) :
    Idle es := by
  cases h with
  | reused | asked => exact ⟨rfl, rfl⟩

theorem Refused.single {found : List Endpoint} {f : Failure} (h : Refused i found es f) :
    Single es := by
  cases h with
  | nobody => exact ⟨Nat.zero_le 1, rfl⟩
  | rejected | noProvider | failed => exact ⟨Nat.le_refl 1, rfl⟩

theorem selections_dispatching (i : Invocation) (e : Endpoint) (answer : Except Failure Response) :
    selections (dispatching i e answer) = [] := by
  rw [dispatching, Event.selections_append, (idle_told _).selections_eq]
  rfl

theorem destinations_dispatching (i : Invocation) (e : Endpoint)
    (answer : Except Failure Response) : destinations (dispatching i e answer) = [e] := by
  rw [dispatching, Event.destinations_append, (idle_told _).destinations_eq]
  rfl

theorem Dispatched.eq_append {e : Endpoint} (h : Dispatched i e es o j) :
    ∃ answer es', Idle es' ∧ es = dispatching i e answer ++ es' := by
  cases h with
  | succeeded =>
    exact ⟨_, _, Event.idle_of_silent fun _ => Event.silent_of_mem_succeeding, rfl⟩
  | failed => exact ⟨_, _, idle_failing .., rfl⟩

theorem Attempted.single (h : Attempted i es o j) : Single es := by
  have htold := idle_told i.beginAttempt.1
  cases h with
  | unrouted hr => exact ((htold.append hr.idle).append (idle_failing ..)).single
  | refused hr hrefused =>
    exact ((htold.append hr.idle).append_single hrefused.single).append_idle (idle_failing ..)
  | dispatched hr _ hd =>
    obtain ⟨answer, es', hes', rfl⟩ := hd.eq_append
    apply (htold.append hr.idle).append_single
    rw [← List.cons_append]
    exact (Event.single_of_selected (selections_dispatching ..)
      (destinations_dispatching ..)).append_idle hes'

theorem Invoked.single {n : Nat} {response : Response} (h : Invoked .never i n es response j) :
    Single es := by
  cases h with
  | refused hbarred => exact (Event.idle_of_silent hbarred.silent).single
  | attempted hopened ha =>
    obtain ⟨-, o, ha, -⟩ := Attempts.once_iff.1 ha
    exact (Event.idle_of_silent hopened.silent).append_single ha.single

end Attempts

theorem EngineCall.IsFailfast.single {c : EngineCall} (h : c.IsFailfast) {es : List Event}
    {result : Response × Invocation} (hruns : c.dialogue.Runs es result) : Event.Single es := by
  unfold IsFailfast Engine.attached at h
  simp only [dialogue, Engine.execute, h] at hruns
  obtain ⟨n, hinvoked⟩ := Conduct.runs_failfast_iff.1 hruns
  exact hinvoked.single

/-! ### Calls beside each other -/

namespace Event

def ofOwner (n : Nat) (log : List (Nat × Event)) : List Event :=
  (log.filter (·.1 = n)).map (·.2)

def picks (log : List (Nat × Event)) :
    List (Nat × Except RouteError (Endpoint × Option BreakerId)) :=
  log.filterMap fun x => x.2.selection?.map (x.1, ·)

def order (log : List (Nat × Event)) : List Nat := (picks log).map (·.1)

variable {log : List (Nat × Event)} {n : Nat}

theorem map_snd_picks (log : List (Nat × Event)) :
    (picks log).map (·.2) = selections (log.map (·.2)) := by
  simp [picks, selections, List.map_filterMap, List.filterMap_map, Function.comp_def]

theorem selections_ofOwner (n : Nat) (log : List (Nat × Event)) :
    selections (ofOwner n log) = ((picks log).filter (·.1 = n)).map (·.2) := by
  induction log with
  | nil => rfl
  | cons x log ih =>
    unfold selections ofOwner picks at *
    by_cases hn : x.1 = n <;> cases hx : x.2.selection? <;> simp [hn, hx, ih]

theorem length_order (log : List (Nat × Event)) :
    (order log).length = (selections (log.map (·.2))).length := by
  rw [← map_snd_picks, order, List.length_map, List.length_map]

theorem count_order (n : Nat) (log : List (Nat × Event)) :
    (order log).count n = (selections (ofOwner n log)).length := by
  rw [selections_ofOwner, List.length_map, ← List.countP_eq_length_filter, order, List.count,
    List.countP_map]
  exact List.countP_congr fun x _ => by simp

theorem selections_of_mem_picks {answer : Except RouteError (Endpoint × Option BreakerId)}
    (h : (n, answer) ∈ picks log) (hsingle : Single (ofOwner n log)) :
    selections (ofOwner n log) = [answer] := by
  have hmem : answer ∈ selections (ofOwner n log) := by
    rw [selections_ofOwner]
    exact List.mem_map.2 ⟨_, List.mem_filter.2 ⟨h, decide_eq_true rfl⟩, rfl⟩
  obtain ⟨answer', hanswer⟩ := List.length_eq_one_iff.1
    (Nat.le_antisymm hsingle.length_selections (List.length_pos_of_mem hmem))
  rw [hanswer, List.mem_singleton] at hmem
  rw [hanswer, hmem]

end Event

namespace EngineCall

structure Completes (calls : List EngineCall) (log : List (Nat × Event)) : Prop where
  runs : ∀ (n : Nat) (c : EngineCall), calls[n]? = some c →
    ∃ result, c.dialogue.Runs (Event.ofOwner n log) result
  owned : ∀ x ∈ log, x.1 < calls.length

theorem Completes.single {calls : List EngineCall} {log : List (Nat × Event)}
    (h : Completes calls log) (hfailfast : ∀ c ∈ calls, c.IsFailfast) (n : Nat) :
    Event.Single (Event.ofOwner n log) := by
  cases hn : calls[n]? with
  | none =>
    have hempty : Event.ofOwner n log = [] := by
      rw [Event.ofOwner, List.map_eq_nil_iff, List.filter_eq_nil_iff]
      intro x hx hxn
      have hlt := h.owned x hx
      rw [of_decide_eq_true hxn] at hlt
      exact Nat.not_lt_of_ge (List.getElem?_eq_none_iff.1 hn) hlt
    rw [hempty]
    exact ⟨Nat.zero_le 1, rfl⟩
  | some c =>
    obtain ⟨result, hruns⟩ := h.runs n c hn
    exact (hfailfast c (List.mem_of_getElem? hn)).single hruns

end EngineCall

namespace Governance

variable {β : Type} [LoadBalancer β]

/-- A selection that is free to choose among the located endpoints, under no rule but location. -/
inductive Offers (g : Governance β) (i : Invocation) (candidates located : List Endpoint) : Prop
  | ungoverned : g.inForce i = none → candidates.filter (·.isAccessible) = located →
    Offers g i candidates located
  | governed {policy : ServicePolicy} : g.Locates i candidates policy located →
    policy.circuitBreaker = none → policy.rateLimit = none → Offers g i candidates located

/--
A context goes through these events, and offers the located endpoints to each selection. Whatever
else happens meanwhile leaves its balancer alone.
-/
inductive Attends (located : List Endpoint) : Governance β → List Event → Governance β → Prop
  | done {g : Governance β} : Attends located g [] g
  | readiness {g g' : Governance β} {es : List Event} : Attends located g es g' →
    Attends located g (.context .readiness g.readiness :: es) g'
  | routingMode {g g' : Governance β} {i : Invocation} {es : List Event} :
    Attends located g es g' → Attends located g (.context (.routingMode i) (g.modeOf i) :: es) g'
  | select {g g' g'' : Governance β} {i : Invocation} {candidates : List Endpoint}
      {answer : Except RouteError (Endpoint × Option BreakerId)} {es : List Event} (now : Nat) :
    g.Offers i candidates located → g.select now i candidates = (answer, g') →
    Attends located g' es g'' →
    Attends located g (.context (.select i candidates) answer :: es) g''
  | tell {g g' : Governance β} {signal : Signal} {es : List Event} (now : Nat) :
    Attends located (g.hear now signal) es g' → Attends located g (⟨.tell signal, ()⟩ :: es) g'
  | cluster {g g' : Governance β} {call : ClusterCall} (a : call.Answer) {es : List Event} :
    Attends located g es g' → Attends located g (.cluster call a :: es) g'
  | sleep {g g' : Governance β} {i : Invocation} {ms : Nat} {es : List Event} :
    Attends located g es g' → Attends located g (⟨.sleep i ms, ()⟩ :: es) g'
  | meanwhile {g g' g'' : Governance β} {es : List Event} :
    g'.balancer = g.balancer → Attends located g' es g'' → Attends located g es g''

variable {g g' : Governance β} {i : Invocation} {candidates located : List Endpoint} {now : Nat}

theorem Offers.select_eq (h : g.Offers i candidates located) {e : Endpoint}
    (hp : g.pick i.request located = (some e, g')) :
    g.select now i candidates = (.ok (e, none), g') := by
  cases h with
  | ungoverned hforce hlocated =>
    subst hlocated
    have hmem := mem_of_pick (congrArg Prod.fst hp)
    exact (Selects.ungoverned (List.ne_nil_of_mem hmem) hforce hp).eq_select
  | governed hlocates hbreaker hlimit =>
    exact (Selects.unlimited hlocates (.picked hbreaker hp) hlimit).eq_select

end Governance

section Rounds

variable {g g' : Governance} {located : List Endpoint} {picks : UInt64}

theorem Governance.exists_pick_roundRobin (hbalancer : g.balancer = .roundRobin picks)
    (hne : located ≠ []) (request : OutboundRequest) :
    ∃ e, located[picks.toNat % located.length]? = some e ∧
      g.pick request located = (some e, { g with balancer := .roundRobin (picks + 1) }) := by
  have hlt : picks.toNat % located.length < located.length :=
    Nat.mod_lt _ (List.length_pos_iff.2 hne)
  refine ⟨_, List.getElem?_eq_getElem hlt, ?_⟩
  simp [pick, LoadBalancer.pick, Balancer.pick, hbalancer, hne, hlt, Prod.map]

theorem Governance.Attends.map_chosen_selections {es : List Event}
    (h : g.Attends located es g') (hbalancer : g.balancer = .roundRobin picks)
    (hne : located ≠ [])
    (hfew : picks.toNat + (Event.selections es).length ≤ UInt64.size) :
    (Event.selections es).map Event.chosen =
      (Balancer.turns located.length picks.toNat (Event.selections es).length).map
        (fun p => located[p]?.toList) := by
  induction h generalizing picks with
  | done => rfl
  | readiness _ ih | routingMode _ ih => exact ih hbalancer hfew
  | @select _ _ _ i _ _ es _ hoffers hselect _ ih =>
    obtain ⟨e, he, hp⟩ := exists_pick_roundRobin hbalancer hne i.request
    cases (hoffers.select_eq hp).symm.trans hselect
    rw [Event.selections_select, List.length_cons] at hfew ⊢
    rw [List.map_cons, Balancer.turns_succ, List.map_cons, he]
    congr 1
    rcases Nat.eq_zero_or_pos (Event.selections es).length with hzero | hpos
    · rw [List.length_eq_zero_iff.1 hzero]
      rfl
    · -- The count wraps around only after the last pick.
      have hlt : picks.toNat + 1 < UInt64.size := by omega
      have hsucc : (picks + 1).toNat = picks.toNat + 1 := by
        rw [UInt64.toNat_add]
        exact Nat.mod_eq_of_lt hlt
      have hrest := ih rfl (by omega)
      rwa [hsucc] at hrest
  | @tell _ _ signal _ _ _ ih =>
    refine ih ?_ hfew
    cases signal <;> exact hbalancer
  | cluster _ _ ih | sleep _ ih => exact ih hbalancer hfew
  | meanwhile hsame _ ih => exact ih (hsame.trans hbalancer) hfew

theorem map_destinations_order {log : List (Nat × Event)}
    (hbalancer : g.balancer = .roundRobin picks) (hne : located ≠ [])
    (hsingle : ∀ n, Event.Single (Event.ofOwner n log))
    (hattends : g.Attends located (log.map (·.2)) g')
    (hfew : picks.toNat + (Event.order log).length ≤ UInt64.size) :
    (Event.order log).map (fun n => Event.destinations (Event.ofOwner n log)) =
      (Balancer.turns located.length picks.toNat (Event.order log).length).map
        (fun p => located[p]?.toList) := by
  have hdestinations : ∀ x ∈ Event.picks log,
      Event.destinations (Event.ofOwner x.1 log) = Event.chosen x.2 := by
    rintro ⟨n, answer⟩ hmem
    rw [(hsingle n).destinations_eq, Event.selections_of_mem_picks hmem (hsingle n),
      List.flatMap_singleton]
  rw [Event.length_order] at hfew ⊢
  have hchosen := hattends.map_chosen_selections hbalancer hne hfew
  rw [← hchosen, ← Event.map_snd_picks, Event.order, List.map_map, List.map_map]
  exact List.map_congr_left hdestinations

/--
Calls that take their turns. At most one selection goes to each of them, and only those to which
one goes are dispatched. Any stretch of these goes to the located endpoints in turn, each call to
one: if they are as many as there are endpoints, each position has one of them, and in any case no
position has two more than another.
-/
theorem round_robin_takes_turns {calls : List EngineCall} {log : List (Nat × Event)}
    (hbalancer : g.balancer = .roundRobin picks) (hne : located ≠ [])
    (hfailfast : ∀ c ∈ calls, c.IsFailfast) (hcompletes : EngineCall.Completes calls log)
    (hattends : g.Attends located (log.map (·.2)) g')
    (hfew : picks.toNat + (Event.order log).length ≤ UInt64.size) :
    let m := located.length
    let order := Event.order log
    order.Nodup ∧ (∀ n, n ∉ order → Event.destinations (Event.ofOwner n log) = []) ∧
    ∀ before window after, order = before ++ window ++ after →
      let positions := Balancer.turns m (picks.toNat + before.length) window.length
      window.map (fun n => Event.destinations (Event.ofOwner n log)) =
        positions.map (fun p => located[p]?.toList) ∧
      (window.length = m → ∀ p < m, positions.count p = 1) ∧
      ∀ p < m, ∀ q < m, positions.count p ≤ positions.count q + 1 := by
  intro m order
  have hsingle := hcompletes.single hfailfast
  refine ⟨List.nodup_iff_count_le_one.2 fun n => ?_, fun n hn => ?_,
    fun before window after hsplit => ⟨?_, fun hlength p hp => ?_, fun p hp q hq => ?_⟩⟩
  · rw [Event.count_order]
    exact (hsingle n).length_selections
  · rw [← List.count_eq_zero, Event.count_order] at hn
    rw [(hsingle n).destinations_eq, List.length_eq_zero_iff.1 hn, List.flatMap_nil]
  · have hwhole := map_destinations_order hbalancer hne hsingle hattends hfew
    rw [show Event.order log = _ from hsplit, List.append_assoc, List.length_append,
      List.length_append, Balancer.turns_add, Balancer.turns_add] at hwhole
    simp only [List.map_append] at hwhole
    obtain ⟨-, hrest⟩ := List.append_inj hwhole (by simp)
    exact (List.append_inj hrest (by simp)).1
  · rw [hlength]
    exact Balancer.count_turns_round _ hp
  · exact Balancer.count_turns_le _ _ hp hq

theorem second_call_takes_first_turn :
    let a : Endpoint := { id := "a", host := "h", port := 1 }
    let b : Endpoint := { id := "b", host := "h", port := 2 }
    let suspended : Endpoint := { id := "c", host := "h", port := 3, state := .suspended }
    let g : Governance := {
      readiness := ⟨.ready, .policyReady⟩, routingMode := .reuse
      limiters := ⟨.empty, .fixedWindow, ⟨30000, 60000, 0, .empty⟩⟩
      breakers := ⟨.empty, .count, ⟨30000, 60000, 0, .empty⟩, #[]⟩
      balancer := .roundRobinStart }
    let c : EngineCall := {
      engine := ⟨Invoker.builtin Schedule.exponential.runner, Invoker.failfast, {}⟩
      invocation := {
        request := { id := ⟨⟨List.replicate 16 0, rfl⟩⟩, service := "s", path := "/" }
        instances := [a, suspended, b], policy := some { service := "s" } } }
    c.IsFailfast ∧ ∃ log g', EngineCall.Completes [c, c, c] log ∧
      g.Attends [a, b] (log.map (·.2)) g' ∧ log.head?.map (·.1) = some 0 ∧
      Event.order log = [1, 0, 2] ∧
      [1, 0, 2].map (fun n => Event.destinations (Event.ofOwner n log)) = [[a], [b], [a]] := by
  open Event (cluster context) in
  intro a b suspended g c
  let i := c.invocation
  let i₁ : Invocation := { i with attempts := 1 }
  let reply : Reply := { endpoint := "e", payload := [] }
  let begins : List Event :=
    [cluster (.start i.request) (), context .readiness ⟨.ready, .policyReady⟩]
  let goes (e : Endpoint) : List Event := [
    context (.routingMode i₁) .reuse, context (.select i₁ [a, suspended, b]) (.ok (e, none)),
    cluster (.startRequest i.request e) (), cluster (.invoke i₁ e) (.ok (.success reply)),
    cluster (.success (.success reply) i.request e) ()]
  have hfailfast : c.IsFailfast := rfl
  have hruns (e : Endpoint) : ∃ result, c.dialogue.Runs (begins ++ goes e) result := by
    have hrouted : Routed i₁ [context (.routingMode i₁) .reuse] (.ok [a, suspended, b]) i₁ :=
      .reused (List.cons_ne_nil a _)
    have hdispatched : Dispatched (i₁.admittedBy none) e
        (dispatching i₁ e (.ok (.success reply)) ++ succeeding i₁ e (.success reply))
        ⟨.success reply, none⟩ _ :=
      .succeeded
    have hattempted : Attempted i _ _ _ :=
      .dispatched hrouted (List.cons_ne_nil a _) hdispatched
    have hopened : Opened i begins := .ready rfl
    exact ⟨_, Conduct.runs_failfast_iff.2 ⟨1, .attempted hopened (.last hattempted rfl)⟩⟩
  let log : List (Nat × Event) :=
    begins.map (0, ·) ++ (begins ++ goes a).map (1, ·) ++ (goes b).map (0, ·) ++
      (begins ++ goes a).map (2, ·)
  have hcompletes : EngineCall.Completes [c, c, c] log := by
    constructor
    · rintro (_ | _ | _ | n) _ ⟨⟩
      · exact hruns b
      · exact hruns a
      · exact hruns a
    · simp [log, begins, goes]
  let taken (picks : UInt64) : Governance := { g with balancer := .roundRobin picks }
  have hbegins {picks : UInt64} {es : List Event} {g' : Governance}
      (h : (taken picks).Attends [a, b] es g') : (taken picks).Attends [a, b] (begins ++ es) g' :=
    .cluster _ (.readiness h)
  have hgoes {picks : UInt64} {e : Endpoint} {es : List Event} {g' : Governance}
      (hpick : (taken picks).pick i.request [a, b] = (some e, taken (picks + 1)))
      (h : (taken (picks + 1)).Attends [a, b] es g') :
      (taken picks).Attends [a, b] (goes e ++ es) g' := by
    have hoffers : (taken picks).Offers i₁ [a, suspended, b] [a, b] :=
      .governed ⟨by decide, rfl, rfl⟩ rfl rfl
    exact .routingMode (.select 0 hoffers (hoffers.select_eq hpick)
      (.cluster _ (.cluster _ (.cluster _ h))))
  have hround : (taken 2).pick i.request [a, b] = (some a, taken 3) := Prod.ext (by decide) rfl
  have hattends : g.Attends [a, b] (log.map (·.2)) (taken 3) :=
    hbegins (hbegins (hgoes rfl (hgoes rfl (hbegins (hgoes hround .done)))))
  have horder : Event.order log = [1, 0, 2] := rfl
  obtain ⟨-, -, hturns⟩ := round_robin_takes_turns rfl (List.cons_ne_nil a [b])
    (by simpa using hfailfast) hcompletes hattends (by rw [horder]; decide)
  have hdestinations := (hturns [] [1, 0, 2] [] horder).1
  have hpositions : Balancer.turns [a, b].length (UInt64.toNat 0 + 0) 3 = [0, 1, 0] := by decide
  exact ⟨hfailfast, log, _, hcompletes, hattends, rfl, horder,
    hdestinations.trans (congrArg _ hpositions)⟩

end Rounds

end Turnpike
