import Turnpike.Application

namespace Turnpike

inductive EndpointState
  | healthy
  | warmup
  | suspended
  | closing
  deriving DecidableEq

namespace EndpointState

def name : EndpointState → String
  | .healthy => "healthy"
  | .warmup => "warmup"
  | .suspended => "suspended"
  | .closing => "closing"

def all : List EndpointState := [.healthy, .warmup, .suspended, .closing]

def accessible : EndpointState → Bool
  | .healthy | .warmup => true
  | .suspended | .closing => false

instance : ToJson EndpointState := ⟨fun s => .str s.name⟩
instance : Json.Decode EndpointState := ⟨Json.Variant.decode (all.map fun s => (s.name, .plain s))⟩

end EndpointState

structure Endpoint where
  id : String
  host : String
  port : UInt16
  weight : UInt32 := 100
  state : EndpointState := .healthy
  labels : Dict String String := .empty
  deriving DecidableEq

namespace Endpoint

def label? (e : Endpoint) (key : String) : Option String := e.labels.get? key

def address (e : Endpoint) : String := s!"{e.host}:{e.port}"

def describe (e : Endpoint) : String := s!"{e.id}@{e.address}"

def isAccessible (e : Endpoint) : Bool := e.state.accessible

def zone? (e : Endpoint) : Option String := e.label? Label.zone
def unit? (e : Endpoint) : Option String := e.label? Label.unit
def cell? (e : Endpoint) : Option String := e.label? Label.cell
def lane? (e : Endpoint) : Option String := e.label? Label.lane
def version? (e : Endpoint) : Option String := e.label? Label.version

instance : ToJson Endpoint where
  toJson e := .obj [
    ("id", toJson e.id), ("host", toJson e.host), ("port", toJson e.port),
    ("weight", toJson e.weight), ("state", toJson e.state), ("labels", toJson e.labels)]

instance : Json.Decode Endpoint where
  decode := Json.Fields.decode "Endpoint" <|
    Endpoint.mk <$> .required "id" <*> .required "host" <*> .required "port"
      <*> .orElse "weight" 100 <*> .orElse "state" .healthy <*> .orElse "labels" .empty

end Endpoint

end Turnpike
