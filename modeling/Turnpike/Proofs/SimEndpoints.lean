import Mathlib.Data.List.Nodup
import Mathlib.Logic.Function.Iterate
import Turnpike.Sim.Cluster

namespace Turnpike

def EndpointStats.Balanced (s : EndpointStats) : Prop := s.invocations = s.successes + s.failures

theorem EndpointStats.Balanced.tally {s : EndpointStats} (h : s.Balanced) (succeeded : Bool) :
    (s.tally succeeded).Balanced := by
  unfold Balanced at *
  cases succeeded <;> simp [EndpointStats.tally] <;> omega

/-! ### One endpoint -/

def EndpointStats.countsSuccess : Except Failure Response → Bool
  | .ok response => response.isSuccess
  | .error _ => false

namespace SimNode

def fresh (seed : SimSeed) (e : Endpoint) (behavior : EndpointBehavior) : SimNode :=
  { endpoint := e, behavior, generator := (seed.derive e.id).generator }

def next (n : SimNode) : SimNode := (n.dispatch n.endpoint).2

def outcome (n : SimNode) (k : Nat) (e : Endpoint) : Except Failure Response :=
  ((next^[k] n).dispatch e).1

/-- How a dispatch is addressed shows in the text of its failure and nowhere else. -/
theorem snd_dispatch (n : SimNode) (e : Endpoint) : (n.dispatch e).2 = n.next := by
  unfold next dispatch EndpointBehavior.outcome
  generalize (if 0.0 < n.behavior.failureRate then _ else (false, n.generator)) = draw
  obtain ⟨failed, generator⟩ := draw
  cases failed with
  | false => rfl
  | true => cases n.behavior.failureKind <;> rfl

theorem stats_next (n : SimNode) (e : Endpoint) :
    n.next.stats = n.stats.tally (EndpointStats.countsSuccess (n.dispatch e).1) := by
  rw [← n.snd_dispatch e]
  rfl

@[simp] theorem endpoint_next (n : SimNode) : n.next.endpoint = n.endpoint := rfl

@[simp] theorem behavior_next (n : SimNode) : n.next.behavior = n.behavior := rfl

@[simp] theorem id_next (n : SimNode) : n.next.id = n.id := rfl

@[simp] theorem invocations_next (n : SimNode) :
    n.next.stats.invocations = n.stats.invocations + 1 := rfl

end SimNode

/-! ### One call -/

namespace ClusterCall

def addressed? (id : String) : ClusterCall → Option Endpoint
  | .invoke _ e => if e.id = id then some e else none
  | _ => none

theorem id_of_addressed? {id : String} {call : ClusterCall} {e : Endpoint}
    (h : call.addressed? id = some e) : e.id = id := by
  cases call with
  | invoke =>
    simp only [addressed?, Option.ite_none_right_eq_some, Option.some.injEq] at h
    exact h.2 ▸ h.1
  | _ => cases h

end ClusterCall

namespace SimCluster

open SimNode (fresh next)

variable {c c' : SimCluster} {n : SimNode} {id : String} {e : Endpoint}
  {behavior : EndpointBehavior}

theorem node?_eq_some_iff : c.node? id = some n ↔ n ∈ c.nodes ∧ n.id = id := by
  constructor
  · intro h
    exact ⟨List.mem_of_find?_eq_some h, by simpa using List.find?_some h⟩
  · rintro ⟨hmem, rfl⟩
    obtain ⟨m, hm⟩ := Option.isSome_iff_exists.1 <|
      List.find?_isSome (p := (·.id = n.id)).2 ⟨n, hmem, by simp⟩
    have hid : m.id = n.id := by simpa using List.find?_some hm
    rwa [List.inj_on_of_nodup_map c.distinct (List.mem_of_find?_eq_some hm) hmem hid] at hm

theorem node?_replace (node : SimNode) (id : String) : (c.replace node).node? id =
    (c.node? id).map fun n => if n.id = node.id then node else n := by
  unfold node? replace
  rw [List.find?_map]
  congr 2
  funext n
  by_cases h : n.id = node.id <;> simp [h]

@[simp] theorem nodes_record (hook : SimHook) (request : OutboundRequest) (e : Option Endpoint)
    (failure : Option FailureKind) : (c.record hook request e failure).nodes = c.nodes := by
  unfold record
  split <;> rfl

@[simp] theorem seed_record (hook : SimHook) (request : OutboundRequest) (e : Option Endpoint)
    (failure : Option FailureKind) : (c.record hook request e failure).seed = c.seed := by
  unfold record
  split <;> rfl

theorem snd_dispatch (e : Endpoint) : (c.dispatch e).2 =
    (c.node? e.id).elim c fun n => c.replace n.next := by
  unfold dispatch
  cases c.node? e.id with
  | none => rfl
  | some n => exact congrArg c.replace (n.snd_dispatch e)

theorem node?_answer (call : ClusterCall) (id : String) : (c.answer call).2.node? id =
    match call.addressed? id with
    | none => c.node? id
    | some _ => (c.node? id).map next := by
  cases call with
  | invoke i e =>
    change (c.dispatch e).2.node? id = _
    rw [snd_dispatch, ClusterCall.addressed?]
    by_cases h : e.id = id
    · subst h
      cases hn : c.node? e.id with
      | none => simpa using hn
      | some n => simp [node?_replace, hn]
    · rw [if_neg h]
      cases hn : c.node? e.id with
      | none => rfl
      | some n =>
        obtain ⟨-, hid⟩ := node?_eq_some_iff.1 hn
        rw [Option.elim_some, node?_replace, SimNode.id_next, hid]
        cases hm : c.node? id with
        | none => rfl
        | some m =>
          obtain ⟨-, rfl⟩ := node?_eq_some_iff.1 hm
          simp [Ne.symm h]
  | start | route | startRequest | success | error =>
    simp [answer, node?, ClusterCall.addressed?]
  | createResponse | createReject | createUnready | createNoProvider => rfl

theorem of_mem_answer {call : ClusterCall} (h : n ∈ (c.answer call).2.nodes) :
    n ∈ c.nodes ∨ ∃ m ∈ c.nodes, n = m.next := by
  have hn := node?_eq_some_iff.2 ⟨h, rfl⟩
  rw [node?_answer] at hn
  split at hn
  · exact .inl (node?_eq_some_iff.1 hn).1
  · obtain ⟨m, hm, rfl⟩ := Option.map_eq_some_iff.1 hn
    exact .inr ⟨m, (node?_eq_some_iff.1 hm).1, rfl⟩

@[simp] theorem seed_answer (call : ClusterCall) : (c.answer call).2.seed = c.seed := by
  cases call with
  | invoke i e =>
    change (c.dispatch e).2.seed = _
    rw [snd_dispatch]
    cases c.node? e.id <;> rfl
  | start | route | startRequest | success | error => exact seed_record ..
  | createResponse | createReject | createUnready | createNoProvider => rfl

/-! ### Clusters in use -/

theorem of_add (h : c.add e behavior = .ok c') :
    c'.seed = c.seed ∧ c'.nodes = c.nodes ++ [fresh c.seed e behavior] := by
  unfold add at h
  cases hvalid : behavior.validate e.id with
  | error =>
    rw [hvalid] at h
    cases h
  | ok =>
    rw [hvalid] at h
    simp only [bind, Except.bind] at h
    split at h
    · cases h
    · cases h
      exact ⟨rfl, rfl⟩

theorem exists_add (hvalid : behavior.validate e.id = .ok ())
    (hnew : e.id ∉ c.nodes.map (·.id)) : ∃ c', c.add e behavior = .ok c' := by
  unfold add
  rw [hvalid]
  exact ⟨_, dif_neg hnew⟩

inductive Reached : SimCluster → Prop
  | empty (service : String) (seed : SimSeed) : Reached { service, seed }
  | joined {c c' : SimCluster} {e : Endpoint} {behavior : EndpointBehavior} :
    Reached c → c.add e behavior = .ok c' → Reached c'
  | silenced {c : SimCluster} : Reached c → Reached { c with recordEvents := false }
  | used {c : SimCluster} (call : ClusterCall) : Reached c → Reached (c.answer call).2

namespace Reached

theorem eq_iterate (h : c.Reached) : ∀ n ∈ c.nodes,
    n = next^[n.stats.invocations] (fresh c.seed n.endpoint n.behavior) := by
  induction h with
  | empty => simp
  | joined _ hadd ih =>
    obtain ⟨hseed, hnodes⟩ := of_add hadd
    intro n hn
    rw [hseed]
    rcases List.mem_append.1 (hnodes ▸ hn) with hn | hn
    · exact ih n hn
    · obtain rfl := List.mem_singleton.1 hn
      rfl
  | silenced _ ih => exact ih
  | used call _ ih =>
    intro n hn
    rw [seed_answer]
    rcases of_mem_answer hn with hn | ⟨m, hm, rfl⟩
    · exact ih n hn
    · rw [SimNode.invocations_next, Function.iterate_succ_apply', SimNode.endpoint_next,
        SimNode.behavior_next, ← ih m hm]

theorem eq_of_invocations_eq {d : SimCluster} {m n : SimNode} (hc : c.Reached) (hd : d.Reached)
    (hseed : c.seed = d.seed) (hm : m ∈ c.nodes) (hn : n ∈ d.nodes) (he : m.endpoint = n.endpoint)
    (hb : m.behavior = n.behavior) (hk : m.stats.invocations = n.stats.invocations) : m = n := by
  rw [hc.eq_iterate m hm, hd.eq_iterate n hn, hseed, he, hb, hk]

theorem balanced (h : c.Reached) : ∀ n ∈ c.nodes, n.stats.Balanced := by
  induction h with
  | empty => simp
  | joined _ hadd ih =>
    intro n hn
    rcases List.mem_append.1 ((of_add hadd).2 ▸ hn) with hn | hn
    · exact ih n hn
    · obtain rfl := List.mem_singleton.1 hn
      rfl
  | silenced _ ih => exact ih
  | used call _ ih =>
    intro n hn
    rcases of_mem_answer hn with hn | ⟨m, hm, rfl⟩
    · exact ih n hn
    · rw [m.stats_next m.endpoint]
      exact (ih m hm).tally _

end Reached

/-! ### Many calls -/

def after (c : SimCluster) (calls : List ClusterCall) : SimCluster :=
  calls.foldl (fun c call => (c.answer call).2) c

@[simp] theorem after_cons (call : ClusterCall) (calls : List ClusterCall) :
    c.after (call :: calls) = (c.answer call).2.after calls := rfl

def dispatches (id : String) (c : SimCluster) :
    List ClusterCall → List (Endpoint × Except Failure Response)
  | [] => []
  | call :: calls =>
    let rest := dispatches id (c.answer call).2 calls
    match call.addressed? id with
    | some e => (e, (c.dispatch e).1) :: rest
    | none => rest

theorem fst_dispatch (h : c.node? e.id = some n) : (c.dispatch e).1 = (n.dispatch e).1 := by
  unfold dispatch
  rw [h]
  rfl

theorem dispatches_eq (h : c.node? id = some n) (calls : List ClusterCall) :
    c.dispatches id calls =
      (calls.filterMap (·.addressed? id)).mapIdx fun k e => (e, n.outcome k e) := by
  induction calls generalizing c n with
  | nil => rfl
  | cons call calls ih =>
    have hnext := c.node?_answer call id
    cases ha : call.addressed? id with
    | none =>
      rw [ha] at hnext
      simp only [dispatches, ha, List.filterMap_cons, ih (hnext.trans h)]
    | some e =>
      obtain rfl := ClusterCall.id_of_addressed? ha
      rw [ha, h] at hnext
      simp only [dispatches, ha, List.filterMap_cons, List.mapIdx_cons, fst_dispatch h, ih hnext]
      rfl

theorem node?_after (h : c.node? id = some n) (calls : List ClusterCall) :
    (c.after calls).node? id = some (next^[(c.dispatches id calls).length] n) := by
  induction calls generalizing c n with
  | nil => exact h
  | cons call calls ih =>
    have hnext := c.node?_answer call id
    cases ha : call.addressed? id with
    | none =>
      rw [ha] at hnext
      simpa only [dispatches, ha, after_cons] using ih (hnext.trans h)
    | some e =>
      rw [ha, h] at hnext
      simpa only [dispatches, ha, after_cons, List.length_cons, Function.iterate_succ_apply]
        using ih hnext

theorem entries_stats_perm (c : SimCluster) :
    c.stats.entries.Perm (c.nodes.map fun n => (n.id, n.stats)) :=
  Dict.entries_ofList_perm (by simpa [Function.comp_def] using c.distinct)

theorem get?_stats (c : SimCluster) (id : String) :
    c.stats.get? id = (c.node? id).map (·.stats) := by
  apply Option.ext
  intro stats
  simp only [Dict.get?_eq_some_iff, c.entries_stats_perm.mem_iff, List.mem_map,
    Option.map_eq_some_iff, node?_eq_some_iff, Prod.mk.injEq, and_assoc]

theorem get?_stats_after (h : c.node? id = some n) (calls : List ClusterCall) :
    (c.after calls).stats.get? id = some (next^[(c.dispatches id calls).length] n).stats := by
  rw [get?_stats, node?_after h]
  rfl

end SimCluster

theorem EndpointBehavior.validate_half (endpoint : String) :
    ({ failureRate := 0.5 } : EndpointBehavior).validate endpoint = .ok () := by
  have hrate : (0.0 : Float) ≤ 0.5 ∧ (0.5 : Float) ≤ 1.0 := by decide
  simp only [validate, hrate]
  rfl

/--
Two clusters with the same seed, and an endpoint that joined both of them alike and has been
dispatched to as often in both. Whatever both clusters do then, the dispatches to it that have the
same number come to the same if they are addressed alike, and after as many of them its counters
are the same.
-/
theorem endpoint_unaffected_by_others {c d : SimCluster} (hc : c.Reached) (hd : d.Reached)
    (hseed : c.seed = d.seed) {m n : SimNode} (hm : m ∈ c.nodes) (hn : n ∈ d.nodes)
    (he : m.endpoint = n.endpoint) (hb : m.behavior = n.behavior)
    (hk : m.stats.invocations = n.stats.invocations) (calls calls' : List ClusterCall) :
    (∀ (k : Nat) e o o', (c.dispatches m.id calls)[k]? = some (e, o) →
      (d.dispatches n.id calls')[k]? = some (e, o') → o = o') ∧
    ((c.dispatches m.id calls).length = (d.dispatches n.id calls').length →
      ∃ stats, (c.after calls).stats.get? m.id = some stats ∧
        (d.after calls').stats.get? n.id = some stats) := by
  obtain rfl : m = n := hc.eq_of_invocations_eq hd hseed hm hn he hb hk
  have hm := SimCluster.node?_eq_some_iff.2 ⟨hm, rfl⟩
  have hn := SimCluster.node?_eq_some_iff.2 ⟨hn, rfl⟩
  constructor
  · intro k e o o' ho ho'
    rw [SimCluster.dispatches_eq hm, List.getElem?_mapIdx] at ho
    rw [SimCluster.dispatches_eq hn, List.getElem?_mapIdx] at ho'
    obtain ⟨_, -, h⟩ := Option.map_eq_some_iff.1 ho
    obtain ⟨_, -, h'⟩ := Option.map_eq_some_iff.1 ho'
    cases h
    cases h'
    rfl
  · intro hlength
    exact ⟨_, SimCluster.get?_stats_after hm calls,
      hlength ▸ SimCluster.get?_stats_after hn calls'⟩

theorem endpoint_unaffected_by_another :
    let a : Endpoint := { id := "a", host := "h", port := 1 }
    let b : Endpoint := { id := "b", host := "h", port := 2 }
    let flaky : EndpointBehavior := { failureRate := 0.5 }
    let i : Invocation := {
      request := { id := ⟨⟨List.replicate 16 0, rfl⟩⟩, service := "s", path := "/" } }
    let calls : List ClusterCall := [.invoke i a, .invoke i a]
    let calls' : List ClusterCall := [.invoke i b, .invoke i a, .invoke i b, .invoke i a]
    ∃ c d : SimCluster, c.Reached ∧ d.Reached ∧
      c.nodes = [.fresh .standard a flaky] ∧
      d.nodes = [.fresh .standard b flaky, .fresh .standard a flaky] ∧
      (∀ (k : Nat) e o o', (c.dispatches "a" calls)[k]? = some (e, o) →
        (d.dispatches "a" calls')[k]? = some (e, o') → o = o') ∧
      ∃ stats, (c.after calls).stats.get? "a" = some stats ∧
        (d.after calls').stats.get? "a" = some stats := by
  intro a b flaky i calls calls'
  have hstart := SimCluster.Reached.empty "s" .standard
  obtain ⟨c, hc⟩ := SimCluster.exists_add (EndpointBehavior.validate_half a.id)
    (c := { service := "s", seed := .standard }) (by decide)
  obtain ⟨hcseed, hcnodes⟩ := SimCluster.of_add hc
  obtain ⟨c', hc'⟩ := SimCluster.exists_add (EndpointBehavior.validate_half b.id)
    (c := { service := "s", seed := .standard }) (by decide)
  obtain ⟨hseed', hnodes'⟩ := SimCluster.of_add hc'
  obtain ⟨d, hd⟩ := SimCluster.exists_add (EndpointBehavior.validate_half a.id) (c := c')
    (by rw [hnodes']; decide)
  obtain ⟨hdseed, hdnodes⟩ := SimCluster.of_add hd
  rw [hseed'] at hdseed hdnodes
  rw [hnodes'] at hdnodes
  let m : SimNode := .fresh .standard a flaky
  have hcm : m ∈ c.nodes := by simp [hcnodes, m, flaky]
  have hdm : m ∈ d.nodes := by simp [hdnodes, m, flaky]
  have hind := endpoint_unaffected_by_others (hstart.joined hc) ((hstart.joined hc').joined hd)
    (hcseed.trans hdseed.symm) hcm hdm rfl rfl rfl calls calls'
  have hlength : (c.dispatches m.id calls).length = (d.dispatches m.id calls').length := by
    rw [SimCluster.dispatches_eq (SimCluster.node?_eq_some_iff.2 ⟨hcm, rfl⟩),
      SimCluster.dispatches_eq (SimCluster.node?_eq_some_iff.2 ⟨hdm, rfl⟩), List.length_mapIdx,
      List.length_mapIdx]
    rfl
  exact ⟨c, d, hstart.joined hc, (hstart.joined hc').joined hd, hcnodes, hdnodes, hind.1,
    hind.2 hlength⟩

end Turnpike
