import Turnpike.Json.Decode

namespace Turnpike

inductive AppStatus
  | starting
  | started
  | ready
  | stopped
  deriving DecidableEq

inductive PolicyState
  | initial
  | policyReady
  deriving DecidableEq

inductive InjectionMode
  | static
  | dynamic
  deriving DecidableEq

namespace AppStatus

def rank : AppStatus → Nat
  | .starting => 0
  | .started => 1
  | .ready => 2
  | .stopped => 3

def name : AppStatus → String
  | .starting => "STARTING"
  | .started => "STARTED"
  | .ready => "READY"
  | .stopped => "STOPPED"

def all : List AppStatus := [.starting, .started, .ready, .stopped]

def outbound : AppStatus → Bool
  | .started | .ready => true
  | .starting | .stopped => false

def inbound : AppStatus → Bool
  | .ready => true
  | _ => false

def message : AppStatus → String
  | .starting => "application is starting"
  | .started => "application is started"
  | .ready => "application is ready"
  | .stopped => "application is stopped"

instance : ToJson AppStatus := ⟨fun s => .str s.name⟩
instance : Json.Decode AppStatus := ⟨Json.Variant.decode (all.map fun s => (s.name, .plain s))⟩

end AppStatus

namespace PolicyState

def name : PolicyState → String
  | .initial => "INITIAL"
  | .policyReady => "POLICY_READY"

instance : ToJson PolicyState := ⟨fun s => .str s.name⟩
instance : Json.Decode PolicyState :=
  ⟨Json.Variant.decode ([initial, policyReady].map fun s => (s.name, .plain s))⟩

end PolicyState

namespace InjectionMode

def name : InjectionMode → String
  | .static => "static"
  | .dynamic => "dynamic"

instance : ToJson InjectionMode := ⟨fun m => .str m.name⟩
instance : Json.Decode InjectionMode :=
  ⟨Json.Variant.decode ([static, dynamic].map fun m => (m.name, .plain m))⟩

end InjectionMode

structure Readiness where
  status : AppStatus
  policy : PolicyState
  deriving DecidableEq

structure InvalidTransition where
  current : AppStatus
  wanted : AppStatus
  deriving DecidableEq

def InvalidTransition.message (e : InvalidTransition) : String :=
  s!"status cannot move from {e.current.name} to {e.wanted.name}"

namespace Readiness

/-- A static engine waits for its host to start; a dynamic one finds it running. -/
def initial : InjectionMode → Readiness
  | .static => ⟨.starting, .initial⟩
  | .dynamic => ⟨.ready, .initial⟩

def outbound (r : Readiness) : Bool := r.status.outbound

def inbound (r : Readiness) : Bool := r.status.inbound

def governed (r : Readiness) : Bool := r.policy = .policyReady

def message (r : Readiness) : String := r.status.message

def transition (r : Readiness) (next : AppStatus) : Except InvalidTransition Readiness :=
  if next.rank < r.status.rank then .error ⟨r.status, next⟩ else .ok { r with status := next }

def policiesLoaded (r : Readiness) : Readiness := { r with policy := .policyReady }

end Readiness

end Turnpike
