import Turnpike.Invocation.Basic
import Turnpike.Readiness

/-!
An invocation as a dialogue: it asks questions of its cluster, its context and its listeners, and
goes on with the answers. What it does is thereby separate from who answers, and a dialogue that
waits for an answer can be left for another one. Questions that suspend an invocation carry it, so
that its open admissions are known while it waits.
-/

namespace Turnpike

inductive RouteError
  | rejected (rejection : Rejection)
  | noProvider (service : String)
  | failed (failure : Failure)
  deriving DecidableEq

def RouteError.message : RouteError → String
  | .rejected r => s!"Rejected: {r.describe}"
  | .noProvider service => s!"No provider available for {service}"
  | .failed f => s!"Routing failed: {f.describe}"

inductive ClusterCall
  | start (request : OutboundRequest)
  | route (invocation : Invocation)
  | startRequest (request : OutboundRequest) (endpoint : Endpoint)
  | invoke (invocation : Invocation) (endpoint : Endpoint)
  | success (response : Response) (request : OutboundRequest) (endpoint : Endpoint)
  | error (failure : Failure) (request : OutboundRequest) (endpoint : Option Endpoint)
  | createResponse (failure : Failure) (request : OutboundRequest) (endpoint : Option Endpoint)
  | createReject (rejection : Rejection) (request : OutboundRequest)
  /-- The failure of a call that the readiness gate refuses, or `none` to let it through. -/
  | createUnready (readiness : Readiness) (request : OutboundRequest)
  | createNoProvider (request : OutboundRequest)

abbrev ClusterCall.Answer : ClusterCall → Type
  | .start _ | .startRequest .. | .success .. | .error .. => Unit
  | .route _ => Except Failure (List Endpoint)
  | .invoke .. => Except Failure Response
  | .createResponse .. => Response
  | .createReject .. | .createNoProvider _ => Failure
  | .createUnready .. => Option Failure

inductive ContextCall
  | readiness
  | routingMode (invocation : Invocation)
  | select (invocation : Invocation) (candidates : List Endpoint)

abbrev ContextCall.Answer : ContextCall → Type
  | .readiness => Readiness
  | .routingMode _ => RoutingMode
  | .select .. => Except RouteError (Endpoint × Option BreakerId)

inductive Question
  | cluster (call : ClusterCall)
  | context (call : ContextCall)
  | tell (signal : Signal)
  | sleep (invocation : Invocation) (ms : Nat)

abbrev Question.Answer : Question → Type
  | .cluster call => call.Answer
  | .context call => call.Answer
  | .tell _ | .sleep .. => Unit

/-- A result, or a question and what follows each answer to it. -/
inductive Dialogue (α : Type)
  | done (a : α)
  | ask (q : Question) (next : q.Answer → Dialogue α)

namespace Dialogue

variable {α β γ : Type} {m : Type → Type} [Monad m]

def bind : Dialogue α → (α → Dialogue β) → Dialogue β
  | .done a, f => f a
  | .ask q next, f => .ask q fun a => (next a).bind f

instance : Monad Dialogue where
  pure := .done
  bind := bind

def run (answer : (q : Question) → m q.Answer) : Dialogue α → m α
  | .done a => pure a
  | .ask q next => answer q >>= fun a => (next a).run answer

@[simp] theorem pure_eq (a : α) : (pure a : Dialogue α) = .done a := rfl

@[simp] theorem ask_bind (q : Question) (next : q.Answer → Dialogue α) (f : α → Dialogue β) :
    (Dialogue.ask q next >>= f) = .ask q fun a => next a >>= f := rfl

theorem bind_done (d : Dialogue α) : (d >>= Dialogue.done) = d := by
  induction d with
  | done a => rfl
  | ask q next ih => simp only [ask_bind, ih]

theorem bind_assoc (d : Dialogue α) (f : α → Dialogue β) (g : β → Dialogue γ) :
    (d >>= f >>= g) = d >>= fun a => f a >>= g := by
  induction d with
  | done a => rfl
  | ask q next ih => simp only [ask_bind, ih]

instance : LawfulMonad Dialogue := LawfulMonad.mk' Dialogue bind_done (fun _ _ => rfl) bind_assoc

end Dialogue

abbrev Conduct := StateT Invocation Dialogue

def ask (q : Question) : Conduct q.Answer := fun i => .ask q fun a => .done (a, i)

def askCluster (call : ClusterCall) : Conduct call.Answer := ask (.cluster call)

def askContext (call : ContextCall) : Conduct call.Answer := ask (.context call)

def tell (signals : List Signal) : Conduct Unit := signals.forM fun s => ask (.tell s)

namespace ClusterCall

def plainResponse (f : Failure) : Response := .failure f

def plainReject (r : Rejection) : Failure := r.toFailure

def plainUnready (r : Readiness) : Option Failure := some (.unready r.message)

def plainNoProvider (r : OutboundRequest) : Failure := .noProvider r.service

end ClusterCall

def Invocation.routingMode? (i : Invocation) : Option RoutingMode := i.policy.bind (·.routing.mode)

end Turnpike
