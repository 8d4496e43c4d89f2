import Turnpike.Proofs.Engines
import Turnpike.Proofs.HookProtocol
import Turnpike.Proofs.RetryBudget
import Turnpike.Proofs.SimEndpoints
import Turnpike.Sim.Harness

namespace Turnpike

inductive Milestone
  | attempted
  | dispatched (e : Endpoint) (answer : Except Failure Response)

namespace Milestone

def succeeds : Milestone → Bool
  | .attempted => false
  | .dispatched _ answer => EndpointStats.countsSuccess answer

def reaches (ids : List String) : Milestone → Bool
  | .attempted => false
  | .dispatched e _ => e.id ∈ ids

def undispatched : List Milestone → Nat
  | [] => 0
  | .attempted :: .dispatched .. :: ms => undispatched ms
  | .attempted :: ms => undispatched ms + 1
  | .dispatched .. :: ms => undispatched ms

theorem undispatched_append (ms ms' : List Milestone) :
    undispatched (ms ++ .attempted :: ms') =
      undispatched ms + undispatched (.attempted :: ms') := by
  fun_induction undispatched ms with
  | case1 => simp
  | case2 _ _ ms ih => exact ih
  | case3 ms hms ih =>
    rcases ms with _ | ⟨_ | ⟨e, answer⟩, ms⟩
    · exact Nat.add_comm ..
    · have hnext : undispatched (.attempted :: .attempted :: ms ++ .attempted :: ms') =
          undispatched (.attempted :: ms ++ .attempted :: ms') + 1 := rfl
      omega
    · exact absurd rfl (hms e answer ms)
  | case4 _ _ ms ih => exact ih

/-- The milestones of so many attempts, of which the last one may have been a success. -/
structure Tally (ids : List String) (n : Nat) (success : Bool) (ms : List Milestone) : Prop where
  attempts : n = ms.countP (·.reaches ids) + undispatched ms
  successes : success.toNat = ms.countP (·.succeeds)

variable {ids : List String} {e : Endpoint} {answer : Except Failure Response}

theorem tally_attempted : Tally ids 1 false [.attempted] := ⟨rfl, rfl⟩

theorem tally_dispatched (h : e.id ∈ ids) :
    Tally ids 1 (EndpointStats.countsSuccess answer) [.attempted, .dispatched e answer] := by
  constructor
  · simp [undispatched, reaches, h]
  · cases hanswer : EndpointStats.countsSuccess answer <;> simp [succeeds, hanswer]

theorem Tally.append {n n' : Nat} {success : Bool} {ms ms' : List Milestone}
    (h : Tally ids n false ms) (h' : Tally ids n' success (.attempted :: ms')) :
    Tally ids (n + n') success (ms ++ .attempted :: ms') := by
  constructor
  · rw [List.countP_append, undispatched_append, h.attempts, h'.attempts]
    omega
  · rw [List.countP_append, ← h.successes, ← h'.successes]
    simp

end Milestone

namespace Event

def milestone? : Event → Option Milestone
  | ⟨.context (.routingMode _), _⟩ => some .attempted
  | ⟨.cluster (.invoke _ e), answer⟩ => some (.dispatched e answer)
  | _ => none

def milestones (es : List Event) : List Milestone := es.filterMap milestone?

@[simp] theorem milestones_append (es es' : List Event) :
    milestones (es ++ es') = milestones es ++ milestones es' :=
  List.filterMap_append ..

@[simp] theorem milestones_told (signals : List Signal) : milestones (told signals) = [] := by
  induction signals with
  | nil => rfl
  | cons s signals ih => exact ih

@[simp] theorem milestones_pause (i : Invocation) (ms : Nat) : milestones (pause i ms) = [] := by
  unfold pause
  split <;> rfl

@[simp] theorem milestones_failing (i : Invocation) (e : Option Endpoint) (f : Failure)
    (response : Response) : milestones (failing i e f response) = [] := by
  rw [failing, milestones_append, milestones_told]
  cases response <;> rfl

@[simp] theorem milestones_dispatching (i : Invocation) (e : Endpoint)
    (answer : Except Failure Response) :
    milestones (dispatching i e answer) = [.dispatched e answer] := by
  rw [dispatching, milestones_append, milestones_told]
  rfl

@[simp] theorem milestones_succeeding (i : Invocation) (e : Endpoint) (response : Response) :
    milestones (succeeding i e response) = [] := by
  rw [succeeding, milestones_append, milestones_told]
  rfl

def meets (p : Milestone → Bool) (e : Event) : Bool := e.milestone?.any p

theorem countP_milestones (p : Milestone → Bool) (es : List Event) :
    (milestones es).countP p = es.countP (·.meets p) := by
  rw [milestones, List.countP_filterMap]
  congr 1
  funext e
  unfold meets
  cases e.milestone? <;> rfl

def Hosted (ids : List String) : Event → Prop
  | ⟨.cluster (.route _), .ok found⟩ => ∀ e ∈ found, e.id ∈ ids
  | ⟨.cluster (.createResponse f _ _), response⟩ => response = .failure f
  | ⟨.cluster (.createUnready _ _), failure⟩ => failure ≠ none
  | ⟨.context (.select _ candidates), .ok (e, _)⟩ => e ∈ candidates
  | _ => True

end Event

section Hosted

open Event (milestones Hosted)

open Milestone (Tally tally_attempted tally_dispatched)

variable {ids : List String} {i j : Invocation} {es : List Event}

def Invocation.Within (ids : List String) (i : Invocation) : Prop := ∀ e ∈ i.instances, e.id ∈ ids

theorem Routed.milestones_eq {found : Except Failure (List Endpoint)} (h : Routed i es found j) :
    milestones es = [.attempted] := by
  cases h with
  | reused => rfl
  | asked => rfl

theorem Refused.milestones_eq {found : List Endpoint} {f : Failure} (h : Refused i found es f) :
    milestones es = [] := by
  cases h <;> rfl

theorem Opened.milestones_eq (h : Opened i es) : milestones es = [] := by
  cases h <;> rfl

theorem Barred.milestones_eq {response : Response} (h : Barred i es response) :
    milestones es = [] := by
  cases h
  rfl

theorem Routed.within {found : List Endpoint} (h : Routed i es (.ok found) j) (hi : i.Within ids)
    (hes : ∀ e ∈ es, Hosted ids e) : (∀ e ∈ found, e.id ∈ ids) ∧ j.Within ids := by
  cases h with
  | reused => exact ⟨hi, hi⟩
  | asked =>
    have hfound : ∀ e ∈ found, e.id ∈ ids := hes (.cluster (.route i) (.ok found)) (by simp)
    refine ⟨hfound, ?_⟩
    simp only [Invocation.recorded, Invocation.setInstances]
    split
    · exact hfound
    · exact hi

theorem eq_of_hosted_failing {e : Option Endpoint} {f : Failure} {response : Response}
    (h : ∀ ev ∈ failing i e f response, Hosted ids ev) : response = .failure f :=
  h (.cluster (.createResponse f i.request e) response) (by simp [failing])

theorem Dispatched.hosted {e : Endpoint} {o : AttemptOutcome} (h : Dispatched i e es o j)
    (hes : ∀ ev ∈ es, Hosted ids ev) : o.failure = o.response.failure? ∧
      ∃ answer, milestones es = [.dispatched e answer] ∧
        o.response.isSuccess = EndpointStats.countsSuccess answer := by
  cases h with
  | @succeeded reply => exact ⟨rfl, .ok (.success reply), by simp, rfl⟩
  | @failed answer f response hf =>
    obtain rfl := eq_of_hosted_failing fun ev hev => hes ev (List.mem_append_right _ hev)
    refine ⟨rfl, answer, by simp, ?_⟩
    rcases hf with rfl | rfl <;> rfl

theorem Attempted.hosted {o : AttemptOutcome} (h : Attempted i es o j) (hi : i.Within ids)
    (hes : ∀ ev ∈ es, Hosted ids ev) : j.Within ids ∧ o.failure = o.response.failure? ∧
      (∃ ms, milestones es = .attempted :: ms) ∧
        Tally ids 1 o.response.isSuccess (milestones es) := by
  have hi' : i.beginAttempt.2.Within ids := hi
  cases h with
  | unrouted hr =>
    obtain rfl := eq_of_hosted_failing fun ev hev => hes ev (List.mem_append_right _ hev)
    refine ⟨?_, rfl, ?_⟩
    · rw [frame_onFailure]
      cases hr
      exact hi
    · simpa [hr.milestones_eq, Response.isSuccess] using tally_attempted
  | refused hr hrefused =>
    obtain rfl := eq_of_hosted_failing fun ev hev => hes ev (List.mem_append_right _ hev)
    obtain ⟨-, hj⟩ := hr.within hi' fun ev hev => hes ev (by simp [hev])
    refine ⟨?_, rfl, ?_⟩
    · rwa [frame_onFailure]
    · simpa [hr.milestones_eq, hrefused.milestones_eq, Response.isSuccess] using tally_attempted
  | @dispatched es₁ es₂ found k _ e admission _ hr _ hd =>
    obtain ⟨hfound, hk⟩ := hr.within hi' fun ev hev => hes ev (by simp [hev])
    obtain ⟨hfailure, answer, hms, hsuccess⟩ := hd.hosted fun ev hev => hes ev (by simp [hev])
    have hmem : e ∈ k.untried found :=
      hes (.context (.select k (k.untried found)) (.ok (e, admission))) (by simp)
    have hid : e.id ∈ ids := hfound e (mem_untried_iff.1 hmem).1
    have hms : milestones (Event.told i.beginAttempt.1 ++ es₁ ++
        .context (.select k (k.untried found)) (.ok (e, admission)) :: es₂) =
          [.attempted, .dispatched e answer] := by
      rw [Event.milestones_append, Event.milestones_append, Event.milestones_told,
        hr.milestones_eq]
      exact congrArg (.attempted :: ·) hms
    refine ⟨?_, hfailure, ⟨_, hms⟩, ?_⟩
    · rw [hd.frame, frame_admittedBy]
      exact hk
    · rw [hms, hsuccess]
      exact tally_dispatched hid

theorem Attempts.hosted {again : Again} {k n : Nat} {response : Response}
    (h : Attempts again k i n es response j) (hi : i.Within ids)
    (hes : ∀ ev ∈ es, Hosted ids ev) : (∃ ms, milestones es = .attempted :: ms) ∧
      Tally ids n response.isSuccess (milestones es) := by
  induction h with
  | last ha => exact (ha.hosted hi hes).2.2
  | @again k n ms i j l es es' o response ha hagain _ ih =>
    obtain ⟨hj, hfailure, ⟨ms₁, hms₁⟩, ht⟩ := ha.hosted hi fun ev hev => hes ev (by simp [hev])
    obtain ⟨⟨ms₂, hms₂⟩, ht'⟩ := ih hj fun ev hev => hes ev (by simp [hev])
    obtain ⟨f, hf, -⟩ := Option.bind_eq_some_iff.1 hagain
    have hfailed : o.response.isSuccess = false := by
      rw [hf] at hfailure
      cases hr : o.response with
      | success => simp [hr, Response.failure?] at hfailure
      | failure => rfl
    rw [hfailed] at ht
    rw [hms₂] at ht'
    have hmilestones : milestones (es ++ Event.pause j ms ++ es') =
        milestones es ++ .attempted :: ms₂ := by
      simp [hms₂]
    rw [hmilestones, Nat.add_comm]
    exact ⟨⟨ms₁ ++ .attempted :: ms₂, by simp [hms₁]⟩, ht.append ht'⟩

theorem Invoked.hosted {again : Again} {n : Nat} {response : Response}
    (h : Invoked again i n es response j) (hi : i.Within ids)
    (hes : ∀ ev ∈ es, Hosted ids ev) : Tally ids n response.isSuccess (milestones es) ∧
      ∃ r, Event.context .readiness r ∈ es ∧ r.outbound = decide (0 < n) := by
  cases h with
  | refused hbarred =>
    have hms := hbarred.milestones_eq
    cases hbarred with
    | @unready r f _ hr =>
      obtain rfl : response = .failure f :=
        hes (.cluster (.createResponse f i.request none) response) (by simp)
      exact ⟨hms ▸ ⟨rfl, rfl⟩, r, by simp, hr⟩
  | @attempted n es es' _ _ hopened ha =>
    have hms := hopened.milestones_eq
    obtain ⟨-, ht⟩ := ha.hosted hi fun ev hev => hes ev (by simp [hev])
    rw [Event.milestones_append, hms, List.nil_append]
    refine ⟨ht, ?_⟩
    cases hopened with
    | @ready r hr => exact ⟨r, by simp, by simpa [ha.pos] using hr⟩
    | @letThrough r =>
      exact absurd rfl (hes (.cluster (.createUnready r i.request) none) (by simp))

theorem Engine.BuiltIn.exists_invoked {engine : Engine} (he : engine.BuiltIn) {response : Response}
    (h : (engine.execute i).Runs es (response, j)) : ∃ again n,
      Invoked again (i.setDefaultPolicy (engine.policies.get? i.service)) n es response j := by
  rcases he.invokerFor (i.policy <|> engine.policies.get? i.service) with hfor | ⟨schedule, hfor⟩
  · simp only [Engine.execute, hfor] at h
    exact ⟨_, Conduct.runs_failfast_iff.1 h⟩
  · simp only [Engine.execute, hfor] at h
    exact ⟨_, Conduct.runs_failover_iff.1 h⟩

theorem Engine.BuiltIn.simulated {engine : Engine} (he : engine.BuiltIn) {service : String}
    {config : SimConfig} {number : Nat} {o : CallOutcome}
    (h : (engine.simulated service config number).Runs es o)
    (hes : ∀ ev ∈ es, Hosted ids ev) :
    Tally ids o.attempts o.failure.isNone (milestones es) ∧
      ∃ r, Event.context .readiness r ∈ es ∧ r.outbound = decide (0 < o.attempts) := by
  unfold Engine.simulated at h
  obtain ⟨⟨response, j⟩, es, _, hrun, hdone, rfl⟩ := Dialogue.runs_bind_iff.1 h
  obtain ⟨rfl, rfl⟩ := Dialogue.runs_done_iff.1 hdone
  obtain ⟨again, n, hi⟩ := he.exists_invoked hrun
  have hsuccess : (response.failure?.map (·.kind)).isNone = response.isSuccess := by
    cases response <;> rfl
  have hattempts : j.attempts = n := hi.attempts_eq.trans (Nat.zero_add n)
  rw [List.append_nil] at hes ⊢
  rw [hattempts, hsuccess]
  exact hi.hosted nofun hes

end Hosted

end Turnpike
