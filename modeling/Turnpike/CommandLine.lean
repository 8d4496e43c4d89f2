import Turnpike.Decimal.Reading
import Turnpike.Sim.Harness

namespace Turnpike

structure OptionSpec where
  name : String
  short : Option Char := none
  isFlag : Bool := false

inductive Argument
  | flag (name : String)
  | valued (name value : String)
  | expecting (name : String)
  | stop

namespace CommandLine

def longArgument (specs : List OptionSpec) (cs : List Char) : Option Argument := do
  let (name, rest) := cs.span (· ≠ '=')
  let spec ← specs.find? (·.name.toList = name)
  match rest, spec.isFlag with
  | [], true => return .flag spec.name
  | [], false => return .expecting spec.name
  | _ :: _, true => none
  | _ :: value, false => return .valued spec.name (String.ofList value)

def shortArgument (specs : List OptionSpec) (letter : Char) (rest : List Char) :
    Option Argument := do
  let spec ← specs.find? (·.short = some letter)
  match rest with
  | [] => return .expecting spec.name
  | '=' :: value | value => return .valued spec.name (String.ofList value)

def argument (specs : List OptionSpec) (arg : String) : Option Argument :=
  match arg.toList with
  | ['-', '-'] => some .stop
  | '-' :: '-' :: cs => longArgument specs cs
  | '-' :: letter :: rest => shortArgument specs letter rest
  | _ => none

def looksLikeOption (arg : String) : Bool := arg.startsWith "-" && arg ≠ "-"

def options (specs : List OptionSpec) :
    Option String → List String → Option (List (String × String))
  | none, [] => some []
  | some _, [] => none
  | some name, arg :: args =>
    if looksLikeOption arg then none else ((name, arg) :: ·) <$> options specs none args
  | none, arg :: args =>
    match argument specs arg with
    | none => none
    | some .stop => if args.isEmpty then some [] else none
    | some (.flag name) => ((name, "") :: ·) <$> options specs none args
    | some (.valued name value) => ((name, value) :: ·) <$> options specs none args
    | some (.expecting name) => options specs (some name) args

def uniqueOptions (specs : List OptionSpec) (args : List String) :
    Option (List (String × String)) := do
  let given ← options specs none args
  if (given.map (·.1)).Nodup then some given else none

end CommandLine

structure SimulateOptions where
  policy : String
  config : Option String
  service : String
  calls : UInt64
  endpoints : Nat
  failRate : Float
  latencyMs : UInt64
  seed : UInt64
  concurrency : UInt64

inductive Command
  | simulate (options : SimulateOptions)
  | checkConfig (file : String)
  | labels (file : String) (sync : Bool)

namespace CommandLine

def value {α : Type} (given : List (String × String)) (name : String) (default : Option α)
    (read : String → Option α) : Option α :=
  match given.lookup name with
  | some text => read text
  | none => default

def path (text : String) : Option String := if text.isEmpty then none else some text

def word (text : String) : Option UInt64 := do
  let n ← Decimal.unsigned? text.toList
  if n < UInt64.size then some (.ofNat n) else none

def count (text : String) : Option Nat := do
  let n ← Decimal.integer? text.toList
  if 0 ≤ n ∧ n < UInt16.size then some n.toNat else none

def simulateSpecs : List OptionSpec := [
  { name := "policy", short := 'p' }, { name := "config", short := 'c' }, { name := "service" },
  { name := "calls" }, { name := "endpoints" }, { name := "fail-rate" }, { name := "latency-ms" },
  { name := "seed" }, { name := "concurrency" }]

def simulateOptions (args : List String) : Option SimulateOptions := do
  let given ← uniqueOptions simulateSpecs args
  return {
    policy := ← value given "policy" none path
    config := ← value given "config" (some none) fun text => (path text).map some
    service := ← value given "service" "order" some
    calls := ← value given "calls" (some 100) word
    endpoints := ← value given "endpoints" (some 3) count
    failRate := ← value given "fail-rate" (some 0.1) fun text => Decimal.real? text.toList
    latencyMs := ← value given "latency-ms" (some 0) word
    seed := ← value given "seed" (some 42) word
    concurrency := ← value given "concurrency" (some 1) word }

def fileSpec : OptionSpec := { name := "file", short := 'f' }

def command : List String → Option Command
  | "simulate" :: args => .simulate <$> simulateOptions args
  | "check-config" :: args => do
    let given ← uniqueOptions [fileSpec] args
    return .checkConfig (← value given "file" none path)
  | "labels" :: args => do
    let given ← uniqueOptions [fileSpec, { name := "sync", isFlag := true }] args
    return .labels (← value given "file" none path) (given.lookup "sync").isSome
  | _ => none

end CommandLine

namespace Command

variable (read : String → Option String)

def config (path : String) : Option GovernanceConfig := do
  (GovernanceConfig.ofText (← read path)).toOption

def simulation (o : SimulateOptions) : Option String := do
  let config ← o.config.elim (some {}) (config read)
  let snapshot ← (PolicySnapshot.ofText (← read o.policy)).toOption
  let policies ← (PolicyStore.publish {} snapshot).toOption
  let readiness := (Readiness.initial .dynamic).policiesLoaded
  let governance ← (Governance.ofConfig readiness config 0).toOption
  let engine ← (Engine.ofConfig config).toOption
  let behavior : EndpointBehavior := { failureRate := o.failRate, latencyMs := o.latencyMs }
  let cluster ← (SimCluster.uniform o.service o.endpoints behavior (.ofLiteral o.seed)).toOption
  let simulation : Simulation :=
    { engine := { engine with policies }, governance
      cluster := { cluster with recordEvents := false } }
  return (simulation.run { calls := o.calls, concurrency := o.concurrency }).1.render

def setMember (name : String) (v : Json) : List (String × Json) → List (String × Json)
  | [] => [(name, v)]
  | (n, w) :: ms => if n = name then (n, v) :: ms else (n, w) :: setMember name v ms

/-- An object of labels; of two with one key the first has the place and the last the value. -/
def labelObject (labels : List (String × String)) : Json :=
  .obj (labels.foldl (fun ms (k, v) => setMember k (.str v) ms) [])

def labelReport (file : String) (sync : Bool) : Option String := do
  let a ← (Json.decodeText Application (← read file)).toOption
  return Json.pretty (labelObject (if sync then a.syncLabels else a.registryLabels))

def run : Command → Option (List String)
  | .simulate o => ([·]) <$> simulation read o
  | .checkConfig file => do
    let c ← config read file
    return [s!"{file} is valid", Json.pretty (toJson c)]
  | .labels file sync => ([·]) <$> labelReport read file sync

def files : Command → List String
  | .simulate o => o.policy :: o.config.toList
  | .checkConfig file | .labels file _ => [file]

end Command

structure Exit where
  code : UInt8
  output : String
  deriving DecidableEq

/-- Arguments that cannot be used end in code 2, and a command that fails in code 1. -/
def CommandLine.run (args : List String) (read : String → Option String) : Exit :=
  match command args with
  | none => ⟨2, ""⟩
  | some c => match c.run read with
    | none => ⟨1, ""⟩
    | some lines => ⟨0, String.join (lines.map (· ++ "\n"))⟩

end Turnpike
