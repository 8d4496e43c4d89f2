import Turnpike.Proofs.Charges
import Turnpike.Proofs.Engines
import Turnpike.Proofs.Runs

namespace Turnpike

def Question.waiting? : Question → Option Invocation
  | .cluster (.route i) | .cluster (.invoke i _) | .sleep i _ => some i
  | _ => none

def Listener.admission? : Listener → Option BreakerId
  | .observer _ => none
  | .admission breaker => some breaker

def Invocation.admissions (i : Invocation) : List BreakerId :=
  i.attemptListeners.filterMap Listener.admission?

/-- An invocation as its owner sees it: not there, at hand, or inside a call. -/
inductive Flight
  | absent
  | held (i : Invocation)
  | running (d : Dialogue (Response × Invocation))

structure Fleet (β : Type) where
  context : Governance β
  flights : Nat → Flight

inductive Entry
  | charged (charge : Charge)
  | answered (event : Event)
  | abandoned

def Entry.ofOwner (n : Nat) (log : List (Nat × Entry)) : List Entry :=
  (log.filter (·.1 = n)).map (·.2)

@[simp] theorem Entry.ofOwner_append (n : Nat) (log log' : List (Nat × Entry)) :
    ofOwner n (log ++ log') = ofOwner n log ++ ofOwner n log' := by
  simp [ofOwner]

@[simp] theorem Entry.ofOwner_map_self (n : Nat) (es : List Entry) :
    ofOwner n (es.map fun e => (n, e)) = es := by
  induction es with
  | nil => rfl
  | cons e es ih => simpa [ofOwner] using ih

theorem Entry.mem_of_mem_ofOwner {n : Nat} {log : List (Nat × Entry)} {e : Entry}
    (h : e ∈ ofOwner n log) : (n, e) ∈ log := by
  simpa [ofOwner] using h

theorem Entry.ofOwner_map_of_ne {m n : Nat} (h : m ≠ n) (es : List Entry) :
    ofOwner n (es.map fun e => (m, e)) = [] := by
  simp [ofOwner, h]

namespace Fleet

variable {β : Type}

def put (s : Fleet β) (n : Nat) (f : Flight) : Fleet β :=
  { s with flights := fun m => if m = n then f else s.flights m }

@[simp] theorem flights_put_self (s : Fleet β) (n : Nat) (f : Flight) :
    (s.put n f).flights n = f := by
  simp [put]

theorem flights_put_of_ne {m n : Nat} (h : m ≠ n) (s : Fleet β) (f : Flight) :
    (s.put n f).flights m = s.flights m := by
  simp [put, h]

variable [LoadBalancer β]

inductive Moves (g : Governance β) : Flight → List Entry → Flight → Governance β → Prop
  | enter {i : Invocation} : i.admissions = [] →
    Moves g .absent [] (.held i) g
  | call {i : Invocation} {engine : Engine} : engine.BuiltIn →
    Moves g (.held i) [] (.running (engine.execute i)) g
  | cluster {call : ClusterCall} {next : call.Answer → Dialogue (Response × Invocation)}
      (a : call.Answer) :
    Moves g (.running (.ask (.cluster call) next)) [.answered (.cluster call a)]
      (.running (next a)) g
  | context {call : ContextCall} {next : call.Answer → Dialogue (Response × Invocation)}
      {charges : List Charge} {a : call.Answer} {g' : Governance β} (now : Nat) :
    g.Answers now call charges a g' →
    Moves g (.running (.ask (.context call) next))
      (charges.map .charged ++ [.answered (.context call a)]) (.running (next a)) g'
  | tell {signal : Signal} {next : Unit → Dialogue (Response × Invocation)} (now : Nat) :
    Moves g (.running (.ask (.tell signal) next)) [.answered ⟨.tell signal, ()⟩]
      (.running (next ())) (g.hear now signal)
  | wake {i : Invocation} {ms : Nat} {next : Unit → Dialogue (Response × Invocation)} :
    Moves g (.running (.ask (.sleep i ms) next)) [.answered ⟨.sleep i ms, ()⟩]
      (.running (next ())) g
  | finish {response : Response} {i : Invocation} :
    Moves g (.running (.done (response, i))) [] (.held i) g
  | abandon {q : Question} {next : q.Answer → Dialogue (Response × Invocation)} {i : Invocation} :
    q.waiting? = some i →
    Moves g (.running (.ask q next)) [.abandoned] (.held i) g
  | drop {i : Invocation} (now : Nat) :
    Moves g (.held i) ((Event.told i.drop.1).map .answered) .absent
      (i.drop.1.foldl (·.hear now) g)

inductive Step : Fleet β → List (Nat × Entry) → Fleet β → Prop
  | move {s : Fleet β} (n : Nat) {es : List Entry} {f : Flight} {g : Governance β} :
    Moves s.context (s.flights n) es f g →
    Step s (es.map fun e => (n, e)) ({ s with context := g }.put n f)
  | readiness {s : Fleet β} (r : Readiness) :
    Step s [] { s with context := { s.context with readiness := r } }
  | sweepLimiters {s : Fleet β} (now : Nat) :
    Step s [] { s with context :=
      { s.context with limiters := (s.context.limiters.sweep now).2 } }
  | sweepBreakers {s : Fleet β} (now : Nat) :
    Step s [] { s with context :=
      { s.context with breakers := (s.context.breakers.sweep now).2 } }

inductive Reaches (g : Governance β) : List (Nat × Entry) → Fleet β → Prop
  | start : Reaches g [] ⟨g, fun _ => .absent⟩
  | step {log es : List (Nat × Entry)} {s s' : Fleet β} :
    Reaches g log s → Step s es s' → Reaches g (log ++ es) s'

theorem Reaches.move {g g' : Governance β} {log : List (Nat × Entry)} {s : Fleet β}
    {f f' : Flight} {es : List Entry} (h : Reaches g log s) (n : Nat) (hf : s.flights n = f)
    (hm : Moves s.context f es f' g') :
    Reaches g (log ++ es.map fun e => (n, e)) ({ s with context := g' }.put n f') :=
  .step h (.move n (hf ▸ hm))

end Fleet

end Turnpike
