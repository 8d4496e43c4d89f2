import Turnpike.Proofs.Depot

/-!
A permit is spent on a dispatch, and on nothing else. Of each owner the log is read from left to
right, with the key of the permit that is spent and whose dispatch has not started yet.
-/

namespace Turnpike

/-! ### Permits and dispatches -/

inductive Event.Undispatched : Event → Prop
  | unready {r : Readiness} {request : OutboundRequest} {f : Failure} :
    Undispatched (.cluster (.createUnready r request) (some f))
  | unrouted {i : Invocation} {f : Failure} : Undispatched (.cluster (.route i) (.error f))
  | nobody {request : OutboundRequest} {f : Failure} :
    Undispatched (.cluster (.createNoProvider request) f)
  | rejected {r : Rejection} {request : OutboundRequest} {f : Failure} :
    Undispatched (.cluster (.createReject r request) f)
  | nowhere {f : Failure} {request : OutboundRequest} {response : Response} :
    Undispatched (.cluster (.createResponse f request none) response)

namespace Mark

def permit? : Mark → Option String
  | .entered _ (.charged (.limited key true)) => some key
  | _ => none

def dispatch? : Mark → Option String
  | .dispatched _ request => some request.limitKey
  | _ => none

inductive Undispatched : Mark → Prop
  | entered {n : Nat} {e : Event} : e.Undispatched → Undispatched (.entered n (.answered e))

/-- What a mark makes of the permit that waits for its dispatch. Nothing else may happen. -/
inductive Spends : Option String → Mark → Option String → Prop
  | permitted {m : Mark} {key : String} : m.permit? = some key → Spends none m (some key)
  | dispatched {m : Mark} {key : String} : m.dispatch? = some key → Spends (some key) m none
  | waits {m : Mark} {key : String} : m.permit? = none → m.dispatch? = none → ¬ m.Undispatched →
    Spends (some key) m (some key)
  | free {m : Mark} : m.permit? = none → m.dispatch? = none → Spends none m none

variable {l l' : Option String} {m : Mark} {pre post ms log : List Mark}

theorem permits_eq_of_spends (h : Along Spends l ms l') :
    l.toList ++ ms.filterMap permit? = ms.filterMap dispatch? ++ l'.toList := by
  induction h with
  | nil => simp
  | @cons l l' _ m ms hm _ ih =>
    cases hm with
    | @permitted _ key hp =>
      have hd : m.dispatch? = none := by
        unfold permit? at hp
        split at hp
        · rfl
        · cases hp
      simpa [hp, hd] using ih
    | @dispatched _ key hd =>
      have hp : m.permit? = none := by
        unfold dispatch? at hd
        split at hd
        · rfl
        · cases hd
      simpa [hp, hd] using ih
    | waits hp hd | free hp hd => simpa [hp, hd] using ih

theorem spent_of_undispatched (h : Along Spends l (pre ++ m :: post) l') (hm : m.Undispatched) :
    Along Spends l pre none := by
  obtain ⟨k, hpre, hpost⟩ := Along.exists_of_append h
  cases hpost with
  | cons hspends _ =>
    cases hspends with
    | permitted hp =>
      cases hm
      cases hp
    | dispatched hd =>
      cases hm
      cases hd
    | waits _ _ hnot => exact absurd hm hnot
    | free => exact hpre

section Owners

def owned (key? : Mark → Option String) (m : Mark) : Option (Nat × String) :=
  m.owner?.bind fun n => (key? m).map (n, ·)

theorem count_owned (key? : Mark → Option String) (log : List Mark) (n : Nat) (key : String) :
    (log.filterMap (owned key?)).count (n, key) = ((ofOwner n log).filterMap key?).count key := by
  rw [List.count_filterMap, List.count_filterMap, ofOwner, List.countP_filter]
  apply List.countP_congr
  intro m _
  cases ho : m.owner? <;> cases hk : key? m <;> simp [owned, ho, hk, and_comm]

theorem map_snd_owned {key? : Mark → Option String} (h : ∀ m, m.owner? = none → key? m = none)
    (log : List Mark) : (log.filterMap (owned key?)).map (·.2) = log.filterMap key? := by
  rw [List.map_filterMap]
  congr 1
  funext m
  cases ho : m.owner? with
  | none => simp [owned, ho, h m ho]
  | some n => simp [owned, ho, Function.comp_def]

theorem count_permits_eq
    (h : ∀ n, (ofOwner n log).filterMap permit? = (ofOwner n log).filterMap dispatch?)
    (key : String) : (log.filterMap permit?).count key = (log.filterMap dispatch?).count key := by
  have hperm : (log.filterMap (owned permit?)).Perm (log.filterMap (owned dispatch?)) := by
    apply List.perm_iff_count.2
    rintro ⟨n, key⟩
    rw [count_owned, count_owned, h n]
  have hkeys := (hperm.map (·.2)).count_eq key
  rwa [map_snd_owned, map_snd_owned] at hkeys
  · intro m hm
    cases m <;> first | rfl | cases hm
  · intro m hm
    cases m <;> first | rfl | cases hm

end Owners

end Mark

/-! ### What is spent ahead of a dispatch -/

namespace Flight

def isForwarding : Flight → Bool
  | .running (.ask (.cluster (.invoke _ _)) _) => false
  | .running (.ask q _) => q.isDispatching
  | _ => false

def awaited (call : Option (Invocation × Option ServicePolicy)) (f : Flight) : Option String :=
  if f.isForwarding then call.map (·.1.request.limitKey) else none

/-- Between calls, or at a question that may take long to answer. -/
def IsSuspended : Flight → Prop
  | .absent | .held _ => True
  | .running (.done _) => False
  | .running (.ask q _) => q.waiting?.isSome

theorem IsSuspended.awaited_eq {f : Flight} (h : f.IsSuspended)
    (call : Option (Invocation × Option ServicePolicy)) : f.awaited call = none := by
  cases f with
  | absent | held => rfl
  | running d =>
    cases d with
    | done => rfl
    | ask q next =>
      cases q with
      | cluster call => cases call <;> first | rfl | cases h
      | context | tell => cases h
      | sleep => rfl

end Flight

namespace Mark

variable {request : OutboundRequest} {attached : Option ServicePolicy} {chosen : Bool}

def keyIf (request : OutboundRequest) (chosen : Bool) : Option String :=
  if chosen then some request.limitKey else none

theorem awaited_eq_none {d : Dialogue (Response × Invocation)}
    {post : Response × Invocation → Bool → Prop}
    (h : d.Passes (.ofCall request attached) post false)
    (call : Option (Invocation × Option ServicePolicy)) :
    (Flight.running d).awaited call = none := by
  cases d with
  | done => rfl
  | ask q next =>
    -- No endpoint is selected yet, so this is no part of a dispatch.
    have hq : q.isDispatching = false := h.1.1
    cases q with
    | context | sleep => rfl
    | tell signal => cases signal <;> first | rfl | cases hq
    | cluster call => cases call <;> first | rfl | cases hq

theorem spends_arrival {d : Dialogue (Response × Invocation)} {i : Invocation}
    (h : d.Passes (.ofCall i.request attached) (fun _ chosen => chosen = false) chosen) (n : Nat) :
    Along Spends (keyIf i.request chosen) ((Flight.running d).arrival.map (.dispatched n))
      ((Flight.running d).awaited (some (i, attached))) := by
  cases d with
  | done =>
    obtain rfl : chosen = false := h
    exact .nil
  | ask q next =>
    obtain ⟨⟨rfl, hcarries⟩, -⟩ := h
    cases q with
    | context | sleep => exact .nil
    | tell signal => cases signal <;> exact .nil
    | cluster call =>
      cases call with
      | invoke j e =>
        have hrequest : j.request = i.request := (hcarries j rfl).request
        exact .single (.dispatched (by rw [dispatch?, hrequest]))
      | _ => exact .nil

theorem spends_answered {q : Question} {next : q.Answer → Dialogue (Response × Invocation)}
    {i : Invocation}
    (h : (Dialogue.ask q next).Passes (.ofCall i.request attached) (fun _ chosen => chosen = false)
      chosen) (hq : ∀ j candidates, q ≠ .context (.select j candidates)) (a : q.Answer) (n : Nat) :
    Along Spends ((Flight.running (.ask q next)).awaited (some (i, attached)))
      [.entered n (.answered ⟨q, a⟩)]
      (keyIf i.request ((Monitor.ofCall i.request attached).after chosen ⟨q, a⟩)) := by
  obtain ⟨⟨rfl, -⟩, -⟩ := h
  cases q with
  | sleep => exact .single (.free rfl rfl)
  | context call =>
    cases call with
    | readiness | routingMode => exact .single (.free rfl rfl)
    | select j candidates => exact absurd rfl (hq j candidates)
  | tell signal =>
    cases signal with
    | forward => exact .single (.waits rfl rfl (by rintro ⟨⟨⟩⟩))
    | _ => exact .single (.free rfl rfl)
  | cluster call =>
    cases call with
    | startRequest => exact .single (.waits rfl rfl (by rintro ⟨⟨⟩⟩))
    | _ => exact .single (.free rfl rfl)

end Mark

namespace Governance

variable {β : Type} [LoadBalancer β] {now : Nat} {g g' : Governance β} {i : Invocation}
  {candidates : List Endpoint} {charges : List Charge}
  {answer : Except RouteError (Endpoint × Option BreakerId)} {policy : ServicePolicy}

theorem spends_asked (asks : List Ask) (n : Nat) :
    Along Mark.Spends none (asks.map fun a => .entered n (.charged (.asked a))) none := by
  apply Along.of_forall
  intro m hm
  obtain ⟨a, -, rfl⟩ := List.mem_map.1 hm
  exact .free rfl rfl

theorem Selects.spends (h : Selects now i g candidates charges answer g')
    (hforce : g.inForce i = some policy) (hlimit : policy.rateLimit.isSome) (n : Nat) :
    Along Mark.Spends none (charges.map fun c => .entered n (.charged c))
      (answer.toOption.map fun _ => i.request.limitKey) := by
  cases h with
  | inaccessible | mislocated => exact .nil
  | ungoverned _ hnone => cases hnone.symm.trans hforce
  | @circuitOpen _ _ asks =>
    rw [List.map_map]
    exact spends_asked asks n
  | unlimited hl _ hnone =>
    cases hl.inForce.symm.trans hforce
    simp [hnone] at hlimit
  | @permitted _ _ asks =>
    rw [List.map_append, List.map_map]
    exact (spends_asked asks n).append (.single (.permitted rfl))
  | @limited _ _ asks _ admission =>
    rw [List.map_append, List.map_map]
    refine (spends_asked asks n).append (.cons (.free rfl rfl) ?_)
    cases admission with
    | none => exact .nil
    | some id => exact .single (.free rfl rfl)

theorem Answers.spends {call : ContextCall} {a : call.Answer} {attached : Option ServicePolicy}
    {next : call.Answer → Dialogue (Response × Invocation)} {chosen : Bool}
    (h : g.Answers now call charges a g')
    (hp : (Dialogue.ask (.context call) next).Passes (.ofCall i.request attached)
      (fun _ chosen => chosen = false) chosen)
    (hgoverned : g.readiness.governed = true) (hattached : attached = some policy)
    (hlimit : policy.rateLimit.isSome) (n : Nat) :
    Along Mark.Spends ((Flight.running (.ask (.context call) next)).awaited (some (i, attached)))
      ((charges.map Entry.charged ++ [Entry.answered (.context call a)]).map (Mark.entered n))
      (Mark.keyIf i.request
        ((Monitor.ofCall i.request attached).after chosen (.context call a))) := by
  cases h with
  | readiness | routingMode => exact Mark.spends_answered hp (by simp) _ n
  | @select j candidates _ answer _ hs =>
    obtain ⟨⟨rfl, hcarries⟩, -⟩ := hp
    obtain ⟨hrequest, hpolicy⟩ := hcarries j rfl
    have hforce : g.inForce j = some policy := by
      rw [inForce, hgoverned, if_pos rfl, hpolicy, hattached]
    have hspends := hs.spends hforce hlimit n
    rw [List.map_append, List.map_map]
    refine hspends.append (.single ?_)
    cases answer with
    | error e => exact .free rfl rfl
    | ok found =>
      change Mark.Spends (some j.request.limitKey) _ (some i.request.limitKey)
      rw [hrequest]
      exact .waits rfl rfl (by rintro ⟨⟨⟩⟩)

end Governance

namespace Depot

open Mark (Spends)

variable {β : Type} [LoadBalancer β] {engine : Engine} {d d' : Depot β} {g g' : Governance β}
  {log ms : List Mark} {n : Nat} {f f' : Flight} {es : List Entry}

def Limited (call : Invocation × Option ServicePolicy) : Prop :=
  ∃ policy : ServicePolicy, call.2 = some policy ∧ policy.rateLimit.isSome

theorem spends_of_moves (h : Fleet.Moves g f es f' g') (hcalls : ¬ f.Calls f')
    (hgoverned : g.readiness.governed = true)
    {call : Option (Invocation × Option ServicePolicy)} (hf : f.Watched call)
    (hlimited : ∀ c, call = some c → Limited c) (n : Nat) :
    Along Spends (f.awaited call) (marks n es f') (f'.awaited call) := by
  cases h with
  | enter | finish => exact .nil
  | call => exact absurd (.begun ..) hcalls
  | @abandon q next _ hq =>
    have hsuspended : (Flight.running (.ask q next)).IsSuspended := by
      simp [Flight.IsSuspended, hq]
    rw [hsuspended.awaited_eq]
    exact .single (.free rfl rfl)
  | @drop i now =>
    apply Along.of_forall
    intro m hm
    simp only [marks, Flight.arrival, List.map_nil, List.append_nil, List.map_map] at hm
    obtain ⟨e, -, rfl⟩ := List.mem_map.1 hm
    exact .free rfl rfl
  | cluster | tell | wake =>
    obtain ⟨i, attached, rfl, chosen, hp⟩ := hf
    exact (Mark.spends_answered hp (by simp) _ n).append (Mark.spends_arrival (hp.2 _) n)
  | context now ha =>
    obtain ⟨i, attached, rfl, chosen, hp⟩ := hf
    obtain ⟨policy, hattached, hlimit⟩ := hlimited _ rfl
    exact (ha.spends hp hgoverned hattached hlimit n).append (Mark.spends_arrival (hp.2 _) n)

theorem Step.spends (h : Step d ms d') (he : d.engine.BuiltIn)
    (hgoverned : d.context.readiness.governed = true)
    (hf : (d.fleet.flights n).Watched (Mark.latest? n log))
    (hlimited : ∀ c, Mark.latest? n log = some c → Limited c) :
    Along Spends ((d.fleet.flights n).awaited (Mark.latest? n log)) (Mark.ofOwner n ms)
      ((d'.fleet.flights n).awaited (Mark.latest? n (log ++ ms))) := by
  -- Steps of other owners neither move this one nor add to his part of the log.
  cases h.affects n with
  | no hf' hms =>
    rw [hf', hms, Mark.latest?_append (by rw [hms]; rfl)]
    exact .nil
  | @call i hheld hf' hms =>
    rw [hheld, hf', hms, Mark.awaited_eq_none (he.passes_ofCall i),
      Mark.ofOwner_of_forall (by simp [Mark.owner?])]
    exact .single (.free rfl rfl)
  | @move es f g hf' hm hcalls hms =>
    rw [hf', hms, ofOwner_marks,
      Mark.latest?_append (by rw [ofOwner_marks, filterMap_call?_marks])]
    exact spends_of_moves hm hcalls hgoverned hf hlimited n

theorem Reaches.spends (h : Reaches (fresh engine g) log d) (he : engine.BuiltIn)
    (hgoverned : g.readiness.governed = true)
    (hlimited : ∀ n i attached, .called n i attached ∈ log → Limited (i, attached)) (n : Nat) :
    Along Spends none (Mark.ofOwner n log) ((d.fleet.flights n).awaited (Mark.latest? n log)) := by
  induction h with
  | start => exact .nil
  | @step log ms d d' h hstep ih =>
    have hearlier k i attached (hmem : .called k i attached ∈ log) : Limited (i, attached) :=
      hlimited k i attached (List.mem_append_left _ hmem)
    rw [Mark.ofOwner_append]
    refine (ih hearlier).append
      (hstep.spends (h.builtIn he) (h.governed.trans hgoverned) (h.watched he n) ?_)
    rintro ⟨i, attached⟩ hcall
    exact hearlier n i attached (Mark.called_mem_of_latest? hcall)

end Depot

/--
In every run under which policies are in force and every call has a rate limit, as often as all
invocations are suspended there are, for each key, as many dispatches as permits were granted; and
whatever leads up to the end of an attempt, unless a dispatch is in it, has spent no permit.
-/
theorem permits_spent_on_dispatches {β : Type} [LoadBalancer β] {engine : Engine}
    {g : Governance β} {log : List Mark} {d : Depot β} (hbuilt : engine.BuiltIn)
    (hready : g.readiness.policy = .policyReady) (h : Depot.Reaches (.fresh engine g) log d)
    (hlimited : ∀ n i attached, .called n i attached ∈ log →
      ∃ policy : ServicePolicy, attached = some policy ∧ policy.rateLimit.isSome) :
    ((∀ n, (d.fleet.flights n).IsSuspended) → ∀ key,
      (log.filterMap Mark.permit?).count key = (log.filterMap Mark.dispatch?).count key) ∧
    ∀ n pre mid m post, Mark.ofOwner n log = pre ++ mid ++ m :: post → m.Undispatched →
      (∀ x ∈ mid, x.dispatch? = none) → ∀ x ∈ mid, x.permit? = none := by
  have hspends := h.spends hbuilt (by simp [Readiness.governed, hready]) hlimited
  constructor
  · intro hsuspended
    apply Mark.count_permits_eq
    intro n
    have hn := Mark.permits_eq_of_spends (hspends n)
    rw [(hsuspended n).awaited_eq] at hn
    simpa using hn
  · intro n pre mid m post hsplit hm hmid
    -- No permit waits where the attempt ends: one that is spent in between had to be dispatched.
    have hlog := hspends n
    rw [hsplit] at hlog
    obtain ⟨k, -, hstretch⟩ := Along.exists_of_append (Mark.spent_of_undispatched hlog hm)
    have hkeys := Mark.permits_eq_of_spends hstretch
    rw [List.filterMap_eq_nil_iff.2 hmid] at hkeys
    exact List.filterMap_eq_nil_iff.1 (List.append_eq_nil_iff.1 hkeys).2

theorem permit_spent_or_refused :
    let g : Governance := {
      readiness := ⟨.ready, .policyReady⟩, routingMode := .reuse
      limiters := ⟨.empty, .fixedWindow, ⟨30000, 60000, 0, .empty⟩⟩
      breakers := ⟨.empty, .count, ⟨30000, 60000, 0, .empty⟩, #[]⟩
      balancer := .roundRobinStart }
    let engine : Engine := ⟨Invoker.builtin Schedule.exponential.runner, Invoker.failfast, {}⟩
    (∃ log d, Depot.Reaches (.fresh engine g) log d ∧ (∀ n, (d.fleet.flights n).IsSuspended) ∧
      (log.filterMap Mark.permit?).count "s:/" = 1 ∧
      (log.filterMap Mark.dispatch?).count "s:/" = 1) ∧
    ∃ log d, Depot.Reaches (.fresh engine g) log d ∧ ∃ pre m,
      Mark.ofOwner 0 log = pre ++ [m] ∧ m.Undispatched ∧
      .entered 0 (.charged (.limited "s:/" false)) ∈ pre ∧ ∀ x ∈ pre, x.permit? = none := by
  intro g engine
  let a : Endpoint := { id := "a", host := "h", port := 1 }
  let policy (permits : UInt64) : ServicePolicy :=
    { service := "s", rateLimit := some { permits } }
  let i (permits : UInt64) : Invocation := {
    request := { id := ⟨⟨List.replicate 16 0, rfl⟩⟩, service := "s", path := "/" }
    instances := [a], policy := some (policy permits) }
  have hengine : engine.BuiltIn := ⟨{}, engine, rfl, rfl⟩
  let g' := (g.pick (i 0).request [a]).2
  let limiters (permits : UInt64) := (g.limiters.tryAcquire 0 "s:/" { permits } 0).2
  have hpick : g.pick (i 0).request [a] = (some a, g') := Prod.ext (by decide) rfl
  have hpermitted : Governance.Selects 0 { i 1 with attempts := 1 } g [a] [.limited "s:/" true]
      (.ok (a, none)) { g' with limiters := limiters 1 } :=
    .permitted (i := { i 1 with attempts := 1 }) ⟨by decide, rfl, rfl⟩ (.picked rfl hpick) rfl
      (Prod.ext (by decide) rfl)
  have hlimited : Governance.Selects 0 { i 0 with attempts := 1 } g [a] [.limited "s:/" false]
      (.error (.rejected (LimiterBank.rejection "s:/"))) { g' with limiters := limiters 0 } :=
    .limited (i := { i 0 with attempts := 1 }) ⟨by decide, rfl, rfl⟩ (.picked rfl hpick) rfl
      (Prod.ext (by decide) rfl)
  have hstart : Depot.Reaches (.fresh engine g) [] (.fresh engine g) := .start
  have called (permits : UInt64) :=
    (hstart.move 0 rfl rfl (.enter (i := i permits) rfl) nofun).call 0 rfl rfl
  have limited {log : List Mark} (permits : UInt64)
      (hcalls : log.filterMap Mark.call? = [(i permits, some (policy permits))]) :
      ∀ n j attached, .called n j attached ∈ log →
        ∃ policy : ServicePolicy, attached = some policy ∧ policy.rateLimit.isSome := by
    intro n j attached hmem
    have hcall : (j, attached) ∈ log.filterMap Mark.call? := List.mem_filterMap.2 ⟨_, hmem, rfl⟩
    rw [hcalls] at hcall
    cases List.mem_singleton.1 hcall
    exact ⟨_, rfl, rfl⟩
  constructor
  · have h := (called 1).move 0 rfl rfl (.cluster ()) nofun
    have h := h.move 0 rfl rfl (.context 0 .readiness) nofun
    have h := h.move 0 rfl rfl (.context 0 .routingMode) nofun
    have h := h.move 0 rfl rfl (.context 0 (.select hpermitted)) nofun
    have h := h.move 0 rfl rfl (.cluster ()) nofun
    obtain ⟨log, d, h, hcalls, hsuspended, hpermits⟩ : ∃ log d,
        Depot.Reaches (.fresh engine g) log d ∧
        log.filterMap Mark.call? = [(i 1, some (policy 1))] ∧
        (∀ n, (d.fleet.flights n).IsSuspended) ∧ log.filterMap Mark.permit? = ["s:/"] := by
      refine ⟨_, _, h, rfl, fun n => ?_, rfl⟩
      by_cases hn : n = 0
      · subst hn
        rfl
      · simp only [Depot.put, Depot.become, Depot.fresh, Fleet.flights_put_of_ne hn]
        trivial
    have hcount := (permits_spent_on_dispatches hengine rfl h (limited _ hcalls)).1 hsuspended "s:/"
    rw [hpermits] at hcount
    exact ⟨log, d, h, hsuspended, by rw [hpermits]; rfl, hcount.symm⟩
  · have h := (called 0).move 0 rfl rfl (.cluster ()) nofun
    have h := h.move 0 rfl rfl (.context 0 .readiness) nofun
    have h := h.move 0 rfl rfl (.context 0 .routingMode) nofun
    have h := h.move 0 rfl rfl (.context 0 (.select hlimited)) nofun
    have h := h.move 0 rfl rfl
      (.cluster (ClusterCall.plainReject (LimiterBank.rejection "s:/"))) nofun
    obtain ⟨log, d, h, hcalls, pre, m, hsplit, hm, hpre, hnone⟩ : ∃ log d,
        Depot.Reaches (.fresh engine g) log d ∧
        log.filterMap Mark.call? = [(i 0, some (policy 0))] ∧ ∃ pre m,
        Mark.ofOwner 0 log = pre ++ [m] ∧ m.Undispatched ∧
        .entered 0 (.charged (.limited "s:/" false)) ∈ pre ∧ pre.filterMap Mark.dispatch? = [] := by
      refine ⟨_, _, h, rfl, ?_⟩
      rw [Mark.ofOwner_append]
      exact ⟨_, _, rfl, ⟨.rejected⟩, .tail _ (.tail _ (.tail _ (.tail _ (.head _)))), rfl⟩
    refine ⟨log, d, h, pre, m, hsplit, hm, hpre, ?_⟩
    exact (permits_spent_on_dispatches hengine rfl h (limited _ hcalls)).2 0 [] pre m [] hsplit hm
      (List.filterMap_eq_nil_iff.1 hnone)

end Turnpike
