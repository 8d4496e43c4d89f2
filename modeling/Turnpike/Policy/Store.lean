import Turnpike.Policy.Service

namespace Turnpike

structure PolicySnapshot where
  version : Nat := 0
  services : Dict String ServicePolicy := .empty
  deriving DecidableEq

namespace PolicySnapshot

/-- Of two policies for one service the later one stays. -/
def ofPolicies (version : Nat) (policies : List ServicePolicy) : PolicySnapshot :=
  ⟨version, Dict.ofList (policies.map fun p => (p.service, p))⟩

def get? (s : PolicySnapshot) (service : String) : Option ServicePolicy := s.services.get? service

structure Document where
  version : UInt64
  policies : List ServicePolicy
  deriving DecidableEq

instance : Json.Decode Document where
  decode := Json.Fields.decode "PolicyDocument" <|
    Document.mk <$> .required "version" <*> .orElse "services" []

/-- Reads a document. Each of its policies has to be valid, also one that a later one replaces. -/
def ofText (text : String) : Except (Json.LoadError PolicyError) PolicySnapshot :=
  Json.loadText Document (fun d => (d.policies.forM ServicePolicy.validate).map fun _ =>
    ofPolicies d.version.toNat d.policies) text

end PolicySnapshot

structure PolicyStore where
  snapshot : PolicySnapshot := {}
  deriving DecidableEq

namespace PolicyStore

def version (s : PolicyStore) : Nat := s.snapshot.version

def get? (s : PolicyStore) (service : String) : Option ServicePolicy := s.snapshot.get? service

def publish (s : PolicyStore) (next : PolicySnapshot) : Except PolicyError PolicyStore :=
  if next.version ≤ s.version then .error (.stale s.version next.version) else .ok ⟨next⟩

def update (s : PolicyStore) (policy : ServicePolicy) : Except PolicyError PolicyStore := do
  policy.validate
  return ⟨s.version + 1, s.snapshot.services.insert policy.service policy⟩

def remove (s : PolicyStore) (service : String) : PolicyStore :=
  ⟨s.version + 1, s.snapshot.services.erase service⟩

end PolicyStore

inductive StoreCall
  | publish (next : PolicySnapshot)
  | update (policy : ServicePolicy)
  | remove (service : String)
  | get (service : String)
  | version
  | take
  | held (place : Nat)

/-- A write that may be refused tells the version to which it led; a removal whether it was one. -/
abbrev StoreCall.Answer : StoreCall → Type
  | .publish _ | .update _ => Except PolicyError Nat
  | .remove _ => Bool
  | .get _ => Option ServicePolicy
  | .version => Nat
  | .take => PolicySnapshot
  | .held _ => Option PolicySnapshot

structure StoreSession where
  store : PolicyStore := {}
  held : List PolicySnapshot := []

namespace StoreSession

def written (s : StoreSession) (version : Nat) :
    Except PolicyError PolicyStore → Except PolicyError Nat × StoreSession
  | .ok store => (.ok version, { s with store })
  | .error e => (.error e, s)

def answer (s : StoreSession) : (call : StoreCall) → call.Answer × StoreSession
  | .publish next => s.written next.version (s.store.publish next)
  | .update policy => s.written (s.store.version + 1) (s.store.update policy)
  | .remove service =>
    ((s.store.get? service).isSome, { s with store := s.store.remove service })
  | .get service => (s.store.get? service, s)
  | .version => (s.store.version, s)
  | .take => (s.store.snapshot, { s with held := s.held ++ [s.store.snapshot] })
  | .held place => (s.held[place]?, s)

end StoreSession

end Turnpike
