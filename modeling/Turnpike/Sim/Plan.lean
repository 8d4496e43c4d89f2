import Turnpike.Sim.Cluster

namespace Turnpike

structure PlannedNode where
  endpoint : Endpoint
  behavior : EndpointBehavior

structure SimPlan where
  service : String
  seed : SimSeed
  uniform : Nat
  behavior : EndpointBehavior
  nodes : List PlannedNode
  recordEvents : Bool

def SimSeed.ofDoc : Json.Doc → Except Json.Problem SimSeed
  | .null => .ok standard
  | .str (some text) => .ok (ofString text)
  | d => ofLiteral <$> Json.decode d

namespace SimPlan

instance : Json.Decode PlannedNode where
  decode := Json.Fields.decode "PlannedNode" <|
    PlannedNode.mk <$> .required "endpoint" <*> .nullable "behavior" {}

instance : Json.Decode SimPlan where
  decode := Json.Fields.decode "SimPlan" <|
    SimPlan.mk <$> .nullable "service" "order"
      <*> .one "seed" SimSeed.ofDoc (some .standard) (some .standard) <*> .nullable "uniform" 0
      <*> .nullable "behavior" {} <*> .nullable "nodes" [] <*> .nullable "events" true

def cluster (p : SimPlan) : Except SimError SimCluster := do
  let c ← SimCluster.uniform p.service p.uniform p.behavior p.seed
  let c ← p.nodes.foldlM (fun c n => c.add n.endpoint n.behavior) c
  return { c with recordEvents := p.recordEvents }

end SimPlan

end Turnpike
