import Turnpike.Proofs.Runs

/-!
The order of the hooks. The events of an invocation follow a grammar: a gate, then attempts, each
of which asks for candidates at most once and dispatches at most once.
-/

namespace Turnpike

open Event (cluster context told pause)

/-- A failed attempt from its failure hook on. The last hook sees what the response carries. -/
def failing (i : Invocation) (e : Option Endpoint) (f : Failure) (response : Response) :
    List Event :=
  told (i.onFailure e f).1 ++ cluster (.createResponse f i.request e) response ::
    response.failure?.toList.map fun f => cluster (.error f i.request e) ()

def dispatching (i : Invocation) (e : Endpoint) (answer : Except Failure Response) : List Event :=
  told (i.onForward e) ++
    [cluster (.startRequest i.request e) (), cluster (.invoke i e) answer]

def succeeding (i : Invocation) (e : Endpoint) (response : Response) : List Event :=
  told (i.onSuccess e response).1 ++ [cluster (.success response i.request e) ()]

def Invocation.recorded (i : Invocation) : Except Failure (List Endpoint) → Invocation
  | .ok found => (i.setInstances found).2
  | .error _ => i

def Invocation.admittedBy (i : Invocation) (admission : Option BreakerId) : Invocation :=
  admission.elim i fun breaker => i.addAttemptListener (.admission breaker)

inductive Routed (i : Invocation) :
    List Event → Except Failure (List Endpoint) → Invocation → Prop
  | reused : i.instances ≠ [] →
    Routed i [context (.routingMode i) .reuse] (.ok i.instances) i
  | asked {mode : RoutingMode} {answer : Except Failure (List Endpoint)} :
    mode = .reroute ∨ i.instances = [] →
    Routed i [context (.routingMode i) mode, cluster (.route i) answer] answer (i.recorded answer)

inductive Refused (i : Invocation) (found : List Endpoint) : List Event → Failure → Prop
  | nobody {f : Failure} : found = [] →
    Refused i found [cluster (.createNoProvider i.request) f] f
  | rejected {r : Rejection} {f : Failure} : found ≠ [] →
    Refused i found
      [context (.select i (i.untried found)) (.error (.rejected r)),
        cluster (.createReject r i.request) f] f
  | noProvider {service : String} {f : Failure} : found ≠ [] →
    Refused i found
      [context (.select i (i.untried found)) (.error (.noProvider service)),
        cluster (.createNoProvider i.request) f] f
  | failed {f : Failure} : found ≠ [] →
    Refused i found [context (.select i (i.untried found)) (.error (.failed f))] f

inductive Dispatched (i : Invocation) (e : Endpoint) :
    List Event → AttemptOutcome → Invocation → Prop
  | succeeded {r : Reply} :
    Dispatched i e
      (dispatching i e (.ok (.success r)) ++ succeeding i e (.success r))
      ⟨.success r, none⟩ (i.onSuccess e (.success r)).2
  | failed {answer : Except Failure Response} {f : Failure} {response : Response} :
    answer = .error f ∨ answer = .ok (.failure f) →
    Dispatched i e (dispatching i e answer ++ failing i (some e) f response)
      ⟨response, response.failure?⟩ (i.onFailure (some e) f).2

inductive Attempted (i : Invocation) : List Event → AttemptOutcome → Invocation → Prop
  | unrouted {es : List Event} {f : Failure} {j : Invocation} {response : Response} :
    Routed i.beginAttempt.2 es (.error f) j →
    Attempted i (told i.beginAttempt.1 ++ es ++ failing j none f response)
      ⟨response, response.failure?⟩ (j.onFailure none f).2
  | refused {es es' : List Event} {found : List Endpoint} {j : Invocation} {f : Failure}
      {response : Response} :
    Routed i.beginAttempt.2 es (.ok found) j → Refused j found es' f →
    Attempted i (told i.beginAttempt.1 ++ es ++ es' ++ failing j none f response)
      ⟨response, response.failure?⟩ (j.onFailure none f).2
  | dispatched {es es' : List Event} {found : List Endpoint} {j k : Invocation} {e : Endpoint}
      {admission : Option BreakerId} {o : AttemptOutcome} :
    Routed i.beginAttempt.2 es (.ok found) j → found ≠ [] →
    Dispatched (j.admittedBy admission) e es' o k →
    Attempted i
      (told i.beginAttempt.1 ++ es ++
        context (.select j (j.untried found)) (.ok (e, admission)) :: es') o k

abbrev Again := Nat → Failure → Option Nat

def Again.never : Again := fun _ _ => none

def Retrier.again (r : Retrier) (idempotent : Bool) : Again := fun attempt f =>
  if r.policy.isRetryable f idempotent then r.delayAfter? attempt else none

def Schedule.again (s : Schedule) (i : Invocation) : Again := fun attempt f =>
  (i.policy.bind (·.retry)).bind fun retry => (Retrier.mk retry s).again i.idempotent attempt f

inductive Attempts (again : Again) :
    Nat → Invocation → Nat → List Event → Response → Invocation → Prop
  | last {k : Nat} {i j : Invocation} {es : List Event} {o : AttemptOutcome} :
    Attempted i es o j → o.failure.bind (again k) = none →
    Attempts again k i 1 es o.response j
  | again {k n ms : Nat} {i j l : Invocation} {es es' : List Event} {o : AttemptOutcome}
      {response : Response} :
    Attempted i es o j → o.failure.bind (again k) = some ms →
    Attempts again (k + 1) j n es' response l →
    Attempts again k i (n + 1) (es ++ pause j ms ++ es') response l

inductive Opened (i : Invocation) : List Event → Prop
  | ready {r : Readiness} : r.outbound = true →
    Opened i [cluster (.start i.request) (), context .readiness r]
  | letThrough {r : Readiness} : r.outbound = false →
    Opened i
      [cluster (.start i.request) (), context .readiness r,
        cluster (.createUnready r i.request) none]

inductive Barred (i : Invocation) : List Event → Response → Prop
  | unready {r : Readiness} {f : Failure} {response : Response} : r.outbound = false →
    Barred i
      [cluster (.start i.request) (), context .readiness r,
        cluster (.createUnready r i.request) (some f),
        cluster (.createResponse f i.request none) response] response

inductive Invoked (again : Again) (i : Invocation) :
    Nat → List Event → Response → Invocation → Prop
  | refused {es : List Event} {response : Response} :
    Barred i es response → Invoked again i 0 es response i
  | attempted {n : Nat} {es es' : List Event} {response : Response} {j : Invocation} :
    Opened i es → Attempts again 1 i n es' response j →
    Invoked again i n (es ++ es') response j

namespace Attempts

theorem once_iff {k n : Nat} {i j : Invocation} {es : List Event} {response : Response} :
    Attempts .never k i n es response j ↔
      n = 1 ∧ ∃ o, Attempted i es o j ∧ response = o.response := by
  constructor
  · intro h
    cases h with
    | last ha _ => exact ⟨rfl, _, ha, rfl⟩
    | @again _ n ms _ i' _ es es' o _ ha hn => cases hf : o.failure <;> simp [hf, Again.never] at hn
  · rintro ⟨rfl, o, ha, rfl⟩
    exact .last ha (by cases o.failure <;> rfl)

end Attempts

section Frame

variable {i j : Invocation} {es : List Event} {response : Response} {again : Again} {n : Nat}

theorem Routed.frame {found : Except Failure (List Endpoint)} (h : Routed i es found j) :
    j = { i with instances := j.instances } := by
  cases h with
  | reused => rfl
  | asked =>
    cases found with
    | ok found => exact i.snd_setInstances found
    | error f => rfl

theorem frame_onFailure (i : Invocation) (e : Option Endpoint) (f : Failure) :
    (i.onFailure e f).2 = { i with
      failed := (i.onFailure e f).2.failed, attemptListeners := [] } := by
  rw [Invocation.onFailure, Invocation.markFailed_eq]

theorem Dispatched.frame {e : Endpoint} {o : AttemptOutcome} (h : Dispatched i e es o j) :
    j = { i with failed := j.failed, attemptListeners := [] } := by
  cases h with
  | succeeded => rfl
  | failed => exact frame_onFailure ..

theorem frame_admittedBy (i : Invocation) (admission : Option BreakerId) :
    i.admittedBy admission =
      { i with attemptListeners := (i.admittedBy admission).attemptListeners } := by
  cases admission <;> rfl

theorem Attempted.frame {o : AttemptOutcome} (h : Attempted i es o j) :
    j = { i with
      instances := j.instances, failed := j.failed
      attemptListeners := [], attempts := i.attempts + 1 } := by
  cases h with
  | unrouted hr =>
    rw [frame_onFailure, hr.frame]
    rfl
  | refused hr =>
    rw [frame_onFailure, hr.frame]
    rfl
  | dispatched hr _ hd =>
    rw [hd.frame, frame_admittedBy, hr.frame]
    rfl

theorem Attempts.attempts_eq {k : Nat} (h : Attempts again k i n es response j) :
    j.attempts = i.attempts + n := by
  induction h with
  | last ha => rw [ha.frame]
  | again ha _ _ ih =>
    rw [ih, ha.frame]
    simp only
    omega

theorem Attempts.pos {k : Nat} (h : Attempts again k i n es response j) : 0 < n := by
  cases h with
  | last | again => exact Nat.succ_pos _

theorem Invoked.attempts_eq (h : Invoked again i n es response j) :
    j.attempts = i.attempts + n := by
  cases h with
  | refused => rfl
  | attempted _ ha => exact ha.attempts_eq

theorem Invoked.le_one (h : Invoked .never i n es response j) : n ≤ 1 := by
  cases h with
  | refused => exact Nat.zero_le 1
  | attempted _ ha => exact Nat.le_of_eq (Attempts.once_iff.1 ha).1

end Frame

end Turnpike
