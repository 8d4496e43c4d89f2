import Turnpike.Invocation.Dialogue
import Turnpike.Sim.Behavior
import Turnpike.Sim.Summary

namespace Turnpike

structure SimNode where
  endpoint : Endpoint
  behavior : EndpointBehavior
  generator : Random.ChaCha
  stats : EndpointStats := {}

namespace SimNode

def id (n : SimNode) : String := n.endpoint.id

def dispatch (n : SimNode) (e : Endpoint) : Except Failure Response × SimNode :=
  let (outcome, generator) := n.behavior.outcome n.generator e
  let succeeded := match outcome with
    | .ok response => response.isSuccess
    | .error _ => false
  (outcome, { n with generator, stats := n.stats.tally succeeded })

end SimNode

structure SimCluster where
  service : String
  seed : SimSeed
  nodes : List SimNode := []
  distinct : (nodes.map (·.id)).Nodup := by simp
  events : Array SimEvent := #[]
  recordEvents : Bool := true

namespace SimCluster

def endpoints (c : SimCluster) : List Endpoint := c.nodes.map (·.endpoint)

def node? (c : SimCluster) (id : String) : Option SimNode := c.nodes.find? (·.id = id)

def add (c : SimCluster) (e : Endpoint) (behavior : EndpointBehavior) :
    Except SimError SimCluster := do
  behavior.validate e.id
  if h : e.id ∈ c.nodes.map (·.id) then throw (.duplicateEndpoint e.id)
  else
    let node : SimNode := { endpoint := e, behavior, generator := (c.seed.derive e.id).generator }
    return { c with
      nodes := c.nodes ++ [node]
      distinct := by
        rw [List.map_append, List.nodup_append]
        refine ⟨c.distinct, by simp, fun a ha b hb hab => h ?_⟩
        have : a = e.id := hab.trans (List.mem_singleton.1 hb)
        exact this ▸ ha }

def uniformEndpoint (service : String) (n : Nat) : Endpoint where
  id := s!"{service}-{n}"
  host := s!"10.0.{n / 256}.{n % 256}"
  port := 8080

def uniform (service : String) (count : Nat) (behavior : EndpointBehavior) (seed : SimSeed) :
    Except SimError SimCluster :=
  (List.range count).foldlM (fun c n => c.add (uniformEndpoint service n) behavior)
    { service, seed }

def stats (c : SimCluster) : Dict String EndpointStats :=
  .ofList (c.nodes.map fun n => (n.id, n.stats))

def invocations (c : SimCluster) : Nat := c.nodes.foldr (·.stats.invocations + ·) 0

def record (c : SimCluster) (hook : SimHook) (request : OutboundRequest)
    (endpoint : Option Endpoint := none) (failure : Option FailureKind := none) : SimCluster :=
  if c.recordEvents then
    let event : SimEvent := ⟨hook, toString request.id, endpoint.map (·.id), failure⟩
    { c with events := c.events.push event }
  else c

def unknownEndpoint (e : Endpoint) : Failure := .dispatch .connect s!"unknown endpoint {e.describe}"

theorem map_id_replace (node : SimNode) (ns : List SimNode) :
    (ns.map fun n => if n.id = node.id then node else n).map (·.id) = ns.map (·.id) := by
  rw [List.map_map]
  refine List.map_congr_left fun n _ => ?_
  by_cases h : n.id = node.id <;> simp [h]

def replace (c : SimCluster) (node : SimNode) : SimCluster :=
  { c with
    nodes := c.nodes.map fun n => if n.id = node.id then node else n
    distinct := map_id_replace node c.nodes ▸ c.distinct }

def dispatch (c : SimCluster) (e : Endpoint) : Except Failure Response × SimCluster :=
  match c.node? e.id with
  | none => (.error (unknownEndpoint e), c)
  | some node => (node.dispatch e).map id c.replace

def delay (c : SimCluster) : ClusterCall → Nat
  | .invoke _ e => (c.node? e.id).elim 0 (·.behavior.latencyMs.toNat)
  | _ => 0

def answer (c : SimCluster) : (call : ClusterCall) → call.Answer × SimCluster
  | .start request => ((), c.record .start request)
  | .route i =>
    (.ok (if i.service = c.service then c.endpoints else []), c.record .route i.request)
  | .startRequest request e => ((), c.record .startRequest request e)
  | .invoke _ e => c.dispatch e
  | .success _ request e => ((), c.record .success request e)
  | .error f request e => ((), c.record .error request e f.kind)
  | .createResponse f _ _ => (ClusterCall.plainResponse f, c)
  | .createReject r _ => (ClusterCall.plainReject r, c)
  | .createUnready r _ => (ClusterCall.plainUnready r, c)
  | .createNoProvider request => (ClusterCall.plainNoProvider request, c)

end SimCluster

end Turnpike
