import Turnpike.Engine
import Turnpike.Invocation.Pool
import Turnpike.Sim.Cluster

namespace Turnpike

structure Simulation where
  engine : Engine
  governance : Governance
  cluster : SimCluster
  now : UInt64 := 0
  calls : Nat := 0

structure CallOutcome where
  attempts : Nat
  failure : Option FailureKind
  deriving DecidableEq

def Simulation.requestId (number : Nat) : RequestId :=
  ⟨⟨(List.range 16).map fun i => UInt8.ofNat (number >>> (8 * (15 - i))), by simp⟩⟩

def Engine.simulated (e : Engine) (service : String) (config : SimConfig) (number : Nat) :
    Dialogue CallOutcome := do
  let request : OutboundRequest :=
    { id := Simulation.requestId number, service, path := config.path
      idempotent := config.idempotent }
  let (response, i) ← e.execute { request }
  return ⟨i.attempts, response.failure?.map (·.kind)⟩

namespace Simulation

/-- Simulated time: a dispatch takes as long as its endpoint does, and a pause as long as it is. -/
def world (start : UInt64) : World (Governance × SimCluster) where
  delay
    | .cluster call, (_, c) => c.delay call
    | .sleep _ ms, _ => ms
    | .context _, _ | .tell _, _ => 0
  answer q passed := fun (g, c) =>
    let now := (start + .ofNat passed).toNat
    match q with
    | .cluster call => (c.answer call).map id (g, ·)
    | .context call => (g.answer now call).map id (·, c)
    | .tell signal => ((), g.hear now signal, c)
    | .sleep .. => ((), g, c)

def call (s : Simulation) (config : SimConfig) (number : Nat) : Dialogue CallOutcome :=
  s.engine.simulated s.cluster.service config number

def makeCalls (s : Simulation) (config : SimConfig) (turn : Turn := .earliest) :
    Array CallOutcome × Simulation :=
  let calls := s.calls + config.calls.toNat
  let p : Pool (Governance × SimCluster) CallOutcome :=
    Pool.run (world s.now) turn (max config.concurrency.toNat 1) calls (s.call config) s.calls
      { state := (s.governance, s.cluster) }
  (p.results, { s with
    governance := p.state.1, cluster := p.state.2, now := s.now + .ofNat p.now, calls })

end Simulation

namespace SimSummary

def count (s : SimSummary) (o : CallOutcome) : SimSummary :=
  match o.failure with
  | none => { s with attempts := s.attempts + o.attempts, successes := s.successes + 1 }
  | some kind =>
    let kind := kind.describe
    { s with
      attempts := s.attempts + o.attempts
      failures := s.failures.insert kind ((s.failures.get? kind).getD 0 + 1) }

def ofOutcomes (c : SimCluster) (calls : Nat) (outcomes : Array CallOutcome) : SimSummary :=
  outcomes.foldl count
    { service := c.service, seed := c.seed, calls, successes := 0, failures := .empty
      attempts := 0, endpoints := c.stats }

end SimSummary

def Simulation.run (s : Simulation) (config : SimConfig) (turn : Turn := .earliest) :
    SimSummary × Simulation :=
  let (outcomes, s) := s.makeCalls config turn
  (.ofOutcomes s.cluster config.calls.toNat outcomes, s)

end Turnpike
