import Turnpike.Governance

namespace Turnpike

inductive ResponseStyle
  | plain
  | wrap
  | retype
  | mask
  deriving DecidableEq

inductive RejectStyle
  | plain
  | custom
  deriving DecidableEq

inductive UnreadyStyle
  | plain
  | decline
  deriving DecidableEq

inductive ProviderStyle
  | plain
  | custom
  deriving DecidableEq

namespace ResponseStyle

def response (f : Failure) : ResponseStyle → Response
  | .plain => ClusterCall.plainResponse f
  | .wrap => .failure ⟨f.kind, "wrapped: " ++ f.message, some "W"⟩
  | .retype => .failure (.application "599" f.message)
  | .mask => .success ⟨"mask", [], some "masked"⟩

instance : Json.Decode ResponseStyle := ⟨Json.Variant.decode [
  ("default", .plain .plain), ("wrap", .plain .wrap), ("retype", .plain .retype),
  ("mask", .plain .mask)]⟩

end ResponseStyle

namespace RejectStyle

def failure (r : Rejection) : RejectStyle → Failure
  | .plain => ClusterCall.plainReject r
  | .custom => .application "429" ("refused: " ++ r.describe)

instance : Json.Decode RejectStyle :=
  ⟨Json.Variant.decode [("default", .plain .plain), ("custom", .plain .custom)]⟩

end RejectStyle

namespace UnreadyStyle

def failure? (r : Readiness) : UnreadyStyle → Option Failure
  | .plain => ClusterCall.plainUnready r
  | .decline => none

instance : Json.Decode UnreadyStyle :=
  ⟨Json.Variant.decode [("default", .plain .plain), ("decline", .plain .decline)]⟩

end UnreadyStyle

namespace ProviderStyle

def failure (request : OutboundRequest) : ProviderStyle → Failure
  | .plain => ClusterCall.plainNoProvider request
  | .custom => .application "404" ("nobody serves " ++ request.service)

instance : Json.Decode ProviderStyle :=
  ⟨Json.Variant.decode [("default", .plain .plain), ("custom", .plain .custom)]⟩

end ProviderStyle

structure Cue where
  latency : UInt64 := 0
  failure : Option Failure := none
  response : Option Response := none

namespace Cue

def outcome (c : Cue) (e : Endpoint) : Except Failure Response :=
  match c.failure, c.response with
  | some f, _ => .error f
  | none, some r => .ok r
  | none, none => .ok (.success ⟨e.id, "ok".toUTF8.toList, none⟩)

instance : Json.Decode Cue where
  decode := Json.Fields.decode "Cue" <|
    Cue.mk <$> .nullable "latency" 0 <*> .optional "err" <*> .optional "response"

end Cue

structure Resolution where
  result : Except Failure (List Endpoint)

instance : Json.Decode Resolution where
  decode
    | .arr items stop => (⟨.ok ·⟩) <$> Json.decode (.arr items stop)
    | d => (⟨.error ·⟩) <$> Json.decode d

structure Script where
  routes : List Resolution := []
  cues : List Cue := []

instance : Json.Decode Script where
  decode := Json.Fields.decode "Script" <|
    Script.mk <$> .nullable "routes" [] <*> .nullable "script" []

structure ScriptedCluster where
  endpoints : List Endpoint
  createResponse : ResponseStyle := .plain
  createReject : RejectStyle := .plain
  createUnready : UnreadyStyle := .plain
  createNoProvider : ProviderStyle := .plain
  script : Script := {}

namespace ScriptedCluster

instance : Json.Decode ScriptedCluster where
  decode := Json.Fields.decode "ScriptedCluster" <|
    (ScriptedCluster.mk · · · · · {}) <$> .nullable "endpoints" []
      <*> .nullable "createResponse" .plain <*> .nullable "createReject" .plain
      <*> .nullable "createUnready" .plain <*> .nullable "createNoProvider" .plain

def delay (c : ScriptedCluster) : ClusterCall → UInt64
  | .invoke .. => (c.script.cues.head?.getD {}).latency
  | _ => 0

def answer (c : ScriptedCluster) : (call : ClusterCall) → call.Answer × ScriptedCluster
  | .start _ | .startRequest .. | .success .. | .error .. => ((), c)
  | .route _ =>
    ((c.script.routes.head?.getD ⟨.ok c.endpoints⟩).result,
      { c with script := { c.script with routes := c.script.routes.tail } })
  | .invoke _ e =>
    ((c.script.cues.head?.getD {}).outcome e,
      { c with script := { c.script with cues := c.script.cues.tail } })
  | .createResponse f _ _ => (c.createResponse.response f, c)
  | .createReject r _ => (c.createReject.failure r, c)
  | .createUnready r _ => (c.createUnready.failure? r, c)
  | .createNoProvider request => (c.createNoProvider.failure request, c)

end ScriptedCluster

structure ScriptedChoice where
  reject : Option Rejection := none
  failed : Option Failure := none
  place : Nat := 0

namespace ScriptedChoice

instance : Json.Decode ScriptedChoice where
  decode := Json.Fields.decode "ScriptedChoice" <|
    ScriptedChoice.mk <$> .optional "reject" <*> .optional "failed" <*> .nullable "pick" 0

def select (c : ScriptedChoice) (i : Invocation) (candidates : List Endpoint) :
    Except RouteError (Endpoint × Option BreakerId) :=
  match c.reject, c.failed, candidates[c.place]? with
  | some r, _, _ => .error (.rejected r)
  | none, some f, _ => .error (.failed f)
  | none, none, some e => .ok (e, none)
  | none, none, none => .error (.noProvider i.service)

end ScriptedChoice

structure ScriptedContext where
  readiness : Readiness
  choices : List ScriptedChoice := []

namespace ScriptedContext

instance : Json.Decode ScriptedContext where
  decode := Json.Fields.decode "ScriptedContext" <|
    (fun status policy choices => ⟨⟨status, policy⟩, choices⟩) <$> .required "status"
      <*> .required "policy" <*> .nullable "routes" []

def modeOf (i : Invocation) : RoutingMode := i.routingMode?.getD .reuse

def answer (c : ScriptedContext) : (call : ContextCall) → call.Answer × ScriptedContext
  | .readiness => (c.readiness, c)
  | .routingMode i => (modeOf i, c)
  | .select i candidates =>
    ((c.choices.head?.getD {}).select i candidates, { c with choices := c.choices.tail })

end ScriptedContext

end Turnpike
