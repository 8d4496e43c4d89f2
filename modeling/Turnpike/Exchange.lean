import Turnpike.Endpoint
import Turnpike.Failure

namespace Turnpike

structure OutboundRequest where
  id : RequestId
  service : String
  path : String
  attributes : Dict String String := .empty
  payload : List UInt8 := []
  idempotent : Bool := true
  deriving DecidableEq

structure Reply where
  endpoint : String
  payload : List UInt8
  code : Option String := none
  deriving DecidableEq

inductive Response
  | success (reply : Reply)
  | failure (failure : Failure)
  deriving DecidableEq

namespace OutboundRequest

def attribute? (r : OutboundRequest) (key : String) : Option String := r.attributes.get? key

def limitKey (r : OutboundRequest) : String := s!"{r.service}:{r.path}"

def breakerKey (r : OutboundRequest) (e : Endpoint) : String := s!"{r.service}@{e.id}"

instance : ToJson OutboundRequest where
  toJson r := .obj [
    ("id", toJson r.id), ("service", toJson r.service), ("path", toJson r.path),
    ("attributes", toJson r.attributes), ("payload", toJson r.payload),
    ("idempotent", toJson r.idempotent)]

instance : Json.Decode OutboundRequest where
  decode := Json.Fields.decode "OutboundRequest" <|
    OutboundRequest.mk <$> .required "id" <*> .required "service" <*> .required "path"
      <*> .required "attributes" <*> .required "payload" <*> .required "idempotent"

end OutboundRequest

namespace Reply

instance : ToJson Reply where
  toJson r := .obj [
    ("endpoint", toJson r.endpoint), ("payload", toJson r.payload), ("code", toJson r.code)]

instance : Json.Decode Reply where
  decode := Json.Fields.decode "Reply" <|
    Reply.mk <$> .required "endpoint" <*> .required "payload" <*> .optional "code"

end Reply

namespace Response

def isSuccess : Response → Bool
  | .success _ => true
  | .failure _ => false

def failure? : Response → Option Failure
  | .success _ => none
  | .failure f => some f

def reply? : Response → Option Reply
  | .success r => some r
  | .failure _ => none

instance : ToJson Response where
  toJson
    | .success r => .tagged "success" (toJson r)
    | .failure f => .tagged "failure" (toJson f)

instance : Json.Decode Response := ⟨Json.Variant.decode [
  ("success", .carrying fun d => .success <$> Json.decode d),
  ("failure", .carrying fun d => .failure <$> Json.decode d)]⟩

end Response

end Turnpike
