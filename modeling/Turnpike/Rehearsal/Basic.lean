import Turnpike.Rehearsal.Script
import Turnpike.Rehearsal.Transcript
import Turnpike.Timed

namespace Turnpike

inductive RehearsalContext
  | governed (context : Governance)
  | scripted (context : ScriptedContext)

namespace RehearsalContext

def answer (now : Nat) (call : ContextCall) :
    RehearsalContext → call.Answer × RehearsalContext
  | .governed g => (g.answer now call).map id .governed
  | .scripted c => (c.answer call).map id .scripted

def hear (now : Nat) (signal : Signal) : RehearsalContext → RehearsalContext
  | .governed g => .governed (g.hear now signal)
  | .scripted c => .scripted c

end RehearsalContext

structure Rehearsal where
  cluster : ScriptedCluster
  context : RehearsalContext
  transcript : Array String := #[]

namespace Rehearsal

def line? (r : Rehearsal) : Question → Option String
  | .cluster call => some call.line
  | .context call => match r.context with
    | .governed _ => none
    | .scripted _ => call.line?
  | .tell signal => signal.line?
  | .sleep .. => none

def delay (r : Rehearsal) : Question → UInt64
  | .cluster call => r.cluster.delay call
  | .sleep _ ms => .ofNat ms
  | .context _ | .tell _ => 0

def answerAt (now : Nat) (r : Rehearsal) : (q : Question) → q.Answer × Rehearsal
  | .cluster call => (r.cluster.answer call).map id fun cluster => { r with cluster }
  | .context call => (r.context.answer now call).map id fun context => { r with context }
  | .tell signal => ((), { r with context := r.context.hear now signal })
  | .sleep .. => ((), r)

def answer (q : Question) : StateM (Timed Rehearsal) q.Answer := do
  modify fun t =>
    let transcript := match t.value.line? q with
      | some line => t.value.transcript.push line
      | none => t.value.transcript
    { t with value := { t.value with transcript } }.sleep (t.value.delay q)
  modifyGet fun t => (answerAt t.now.toNat t.value q).map id fun value => { t with value }

def hold {α : Type} (d : Dialogue α) (now : UInt64) (r : Rehearsal) :
    α × List String × UInt64 × Rehearsal :=
  let (a, t) := (d.run answer).run { now, value := { r with transcript := #[] } }
  (a, t.value.transcript.toList, t.now, t.value)

end Rehearsal

end Turnpike
