import Turnpike.Invocation.Dialogue

namespace Turnpike

def endpointMark (e : Option Endpoint) : String := e.elim "-" (·.id)

def ClusterCall.line : ClusterCall → String
  | .start _ => "cluster.onStart"
  | .route _ => "cluster.route"
  | .startRequest _ e => s!"cluster.onStartRequest:{e.id}"
  | .invoke _ e => s!"cluster.invoke:{e.describe}"
  | .success _ _ e => s!"cluster.onSuccess:{e.id}"
  | .error f _ e => s!"cluster.onError:{endpointMark e}:{f.describe}"
  | .createResponse .. => "cluster.createResponse"
  | .createReject .. => "cluster.createRejectFailure"
  | .createUnready .. => "cluster.createUnreadyFailure"
  | .createNoProvider _ => "cluster.createNoProviderFailure"

def Signal.line? : Signal → Option String
  | .forward name e => some s!"{name}.onForward:{e.id}"
  | .success name e r => some s!"{name}.onSuccess:{e.id}:{r.isSuccess}"
  | .failure name e f => some s!"{name}.onFailure:{endpointMark e}:{f.describe}"
  | .report .. => none

def ContextCall.line? : ContextCall → Option String
  | .select _ candidates => some ("context.route:" ++ ",".intercalate (candidates.map (·.id)))
  | .readiness | .routingMode _ => none

end Turnpike
