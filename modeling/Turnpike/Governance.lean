import Turnpike.Balancer
import Turnpike.Invocation.Dialogue

namespace Turnpike

/-- Keeps the candidates with the wanted label. If there are none, `fallback` keeps them all. -/
def narrow (wanted : Option String) (label : Endpoint → Option String) (fallback : Bool)
    (candidates : List Endpoint) : Option (List Endpoint) :=
  match wanted with
  | none => some candidates
  | some value =>
    let matching := candidates.filter (label · = some value)
    if !matching.isEmpty then some matching
    else if fallback then some candidates
    else none

def RoutingRules.locate (r : RoutingRules) (candidates : List Endpoint) :
    Option (List Endpoint) := do
  let inUnit ← narrow r.unit Endpoint.unit? r.fallback candidates
  let inCell ← narrow r.cell Endpoint.cell? r.fallback inUnit
  narrow r.lane Endpoint.lane? r.fallback inCell

structure Governance (β : Type := Balancer) where
  readiness : Readiness
  routingMode : RoutingMode
  limiters : LimiterBank
  breakers : BreakerBank
  balancer : β

namespace Governance

variable {β : Type}

def ofConfig (readiness : Readiness) (config : GovernanceConfig) (now : Nat) :
    Except RegistryError Governance := do
  let limiters ← LimiterBank.ofConfig config.rateLimiter now
  let breakers ← BreakerBank.ofConfig config.circuitBreaker now
  return {
    readiness, routingMode := config.routingMode, limiters, breakers
    balancer := .roundRobinStart }

def modeOf (g : Governance β) (i : Invocation) : RoutingMode := i.routingMode?.getD g.routingMode

def askBreaker (g : Governance β) (now : Nat) (request : OutboundRequest) (policy : BreakerPolicy)
    (version : Nat) (e : Endpoint) : (Bool × BreakerId) × Governance β :=
  let (id, breakers) := g.breakers.breaker now (request.breakerKey e) policy version
  let (granted, breakers) := breakers.tryAcquire now id
  ((granted, id), { g with breakers })

def without (e : Endpoint) (candidates : List Endpoint) : List Endpoint :=
  candidates.filter (·.id ≠ e.id)

theorem length_without_lt {e : Endpoint} {candidates : List Endpoint} (h : e ∈ candidates) :
    (without e candidates).length < candidates.length :=
  List.length_filter_lt_length_iff_exists.2 ⟨e, h, by simp⟩

def settle (g : Governance β) (now : Nat) (id : BreakerId) (report : Report) : Governance β :=
  { g with breakers := g.breakers.settle now id report }

section Selection

variable [LoadBalancer β]

def pick (g : Governance β) (request : OutboundRequest) (candidates : List Endpoint) :
    Option Endpoint × Governance β :=
  (LoadBalancer.pick g.balancer request candidates).map id fun balancer => { g with balancer }

theorem mem_of_pick {g : Governance β} {request : OutboundRequest} {es : List Endpoint}
    {e : Endpoint} (h : (g.pick request es).1 = some e) : e ∈ es :=
  LoadBalancer.mem_of_pick h

/--
Picks endpoints until the breaker of one grants admission. One that refuses is out, and so is
every candidate of its id.
-/
def admitted (g : Governance β) (now : Nat) (request : OutboundRequest) (policy : BreakerPolicy)
    (version : Nat) (candidates : List Endpoint) :
    Option (Endpoint × BreakerId) × Governance β :=
  match h : g.pick request candidates with
  | (none, g') => (none, g')
  | (some e, g') =>
    let ((granted, id), g'') := g'.askBreaker now request policy version e
    if granted then (some (e, id), g'')
    else
      have := length_without_lt (mem_of_pick (congrArg Prod.fst h))
      g''.admitted now request policy version (without e candidates)
termination_by candidates.length

def balanced (g : Governance β) (now : Nat) (request : OutboundRequest) (policy : ServicePolicy)
    (located : List Endpoint) : Except RouteError (Endpoint × Option BreakerId) × Governance β :=
  match policy.circuitBreaker with
  | some breaker =>
    match g.admitted now request breaker policy.version.toNat located with
    | (some (e, id), g) => (.ok (e, some id), g)
    | (none, g) => (.error (.rejected (BreakerBank.rejection policy.service)), g)
  | none =>
    match g.pick request located with
    | (some e, g) => (.ok (e, none), g)
    | (none, g) => (.error (.noProvider request.service), g)

/--
Selects under a policy. A permit is spent last, and only on a call that can be dispatched; a
call that finds none gives its admission back.
-/
def selectUnder (g : Governance β) (now : Nat) (request : OutboundRequest) (policy : ServicePolicy)
    (accessible : List Endpoint) :
    Except RouteError (Endpoint × Option BreakerId) × Governance β :=
  match policy.routing.locate accessible with
  | none => (.error (.noProvider request.service), g)
  | some located =>
    match g.balanced now request policy located with
    | (.error e, g) => (.error e, g)
    | (.ok (e, admission), g) =>
      match policy.rateLimit with
      | none => (.ok (e, admission), g)
      | some limit =>
        let key := request.limitKey
        let (permitted, limiters) :=
          g.limiters.tryAcquire now key limit policy.version.toNat
        let g := { g with limiters }
        if permitted then (.ok (e, admission), g)
        else (.error (.rejected (LimiterBank.rejection key)),
          admission.elim g fun id => g.settle now id .release)

def select (g : Governance β) (now : Nat) (i : Invocation) (candidates : List Endpoint) :
    Except RouteError (Endpoint × Option BreakerId) × Governance β :=
  let accessible := candidates.filter (·.isAccessible)
  if accessible.isEmpty then (.error (.noProvider i.service), g)
  else
    match i.policy, g.readiness.governed with
    | some policy, true => g.selectUnder now i.request policy accessible
    | _, _ =>
      match g.pick i.request accessible with
      | (some e, g) => (.ok (e, none), g)
      | (none, g) => (.error (.noProvider i.service), g)

def answer (g : Governance β) (now : Nat) : (call : ContextCall) → call.Answer × Governance β
  | .readiness => (g.readiness, g)
  | .routingMode i => (g.modeOf i, g)
  | .select i candidates => g.select now i candidates

end Selection

def hear (g : Governance β) (now : Nat) : Signal → Governance β
  | .report id report => g.settle now id report
  | _ => g

end Governance

end Turnpike
