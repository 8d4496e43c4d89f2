import Mathlib
import Turnpike.Proofs.Charges
import Turnpike.Proofs.Interleavings
import Turnpike.Proofs.Milestones

namespace Turnpike

/-! ### The counters of a cluster -/

namespace SimCluster

variable {c : SimCluster}

def ids (c : SimCluster) : List String := c.nodes.map (·.id)

def total (count : EndpointStats → Nat) (c : SimCluster) : Nat :=
  (c.nodes.map fun n => count n.stats).sum

theorem sum_stats (count : EndpointStats → Nat) (c : SimCluster) :
    (c.stats.values.map count).sum = c.total count := by
  have h := (c.entries_stats_perm.map (count ·.2)).sum_nat
  simpa [Dict.values, total, Function.comp_def] using h

theorem balanced_of_mem_stats (h : c.Reached) : ∀ stats ∈ c.stats.values, stats.Balanced := by
  intro stats hmem
  obtain ⟨⟨id, _⟩, hentry, rfl⟩ := List.mem_map.1 hmem
  obtain ⟨n, hn, heq⟩ := List.mem_map.1 (c.entries_stats_perm.mem_iff.1 hentry)
  cases heq
  exact h.balanced n hn

theorem sum_map_replace (count : EndpointStats → Nat) {n n' : SimNode} {ns : List SimNode}
    (hdistinct : (ns.map (·.id)).Nodup) (h : n ∈ ns) (hid : n'.id = n.id) :
    ((ns.map fun m => if m.id = n'.id then n' else m).map fun m => count m.stats).sum +
        count n.stats =
      (ns.map fun m => count m.stats).sum + count n'.stats := by
  rw [hid]
  induction ns with
  | nil => simp at h
  | cons m ns ih =>
    obtain ⟨hm, hns⟩ := List.nodup_cons.1 hdistinct
    rcases List.mem_cons.1 h with rfl | h
    · have hothers : (ns.map fun m => if m.id = n.id then n' else m) = ns :=
        (List.map_congr_left fun m hmem => if_neg fun hid =>
          hm (List.mem_map.2 ⟨m, hmem, hid⟩)).trans (List.map_id' ns)
      simp only [List.map_cons, if_pos, hothers, List.sum_cons]
      omega
    · have hne : m.id ≠ n.id := fun hid => hm (List.mem_map.2 ⟨n, h, hid.symm⟩)
      have := ih hns h
      simp only [List.map_cons, if_neg hne, List.sum_cons]
      omega

theorem total_replace (count : EndpointStats → Nat) {n n' : SimNode} (h : n ∈ c.nodes)
    (hid : n'.id = n.id) :
    (c.replace n').total count + count n.stats = c.total count + count n'.stats :=
  sum_map_replace count c.distinct h hid

theorem total_dispatch (e : Endpoint) :
    (c.dispatch e).2.total (·.invocations) =
        c.total (·.invocations) + (decide (e.id ∈ c.ids)).toNat ∧
      (c.dispatch e).2.total (·.successes) =
        c.total (·.successes) + (EndpointStats.countsSuccess (c.dispatch e).1).toNat := by
  cases hn : c.node? e.id with
  | none =>
    have hid : e.id ∉ c.ids := fun hmem => by
      obtain ⟨n, hn', hid⟩ := List.mem_map.1 hmem
      simp [node?_eq_some_iff.2 ⟨hn', hid⟩] at hn
    simp [dispatch, hn, hid, EndpointStats.countsSuccess]
  | some n =>
    obtain ⟨hmem, hid⟩ := node?_eq_some_iff.1 hn
    have hid : e.id ∈ c.ids := List.mem_map.2 ⟨n, hmem, hid⟩
    rw [snd_dispatch, hn, fst_dispatch hn, Option.elim_some]
    have hinvocations := total_replace (·.invocations) hmem n.id_next
    have hsuccesses := total_replace (·.successes) hmem n.id_next
    rw [n.stats_next e] at hsuccesses
    simp only [SimNode.invocations_next, EndpointStats.tally] at hinvocations hsuccesses
    simp only [hid, decide_true, Bool.toNat_true]
    omega

@[simp] theorem ids_answer (call : ClusterCall) : (c.answer call).2.ids = c.ids := by
  cases call with
  | invoke i e =>
    change (c.dispatch e).2.ids = _
    rw [snd_dispatch]
    cases c.node? e.id with
    | none => rfl
    | some n => exact map_id_replace n.next c.nodes
  | start | route | startRequest | success | error => simp [answer, ids]
  | createResponse | createReject | createUnready | createNoProvider => rfl

end SimCluster

/-! ### Those who answer -/

namespace SimCluster

variable {c : SimCluster}

theorem hosted_answer (call : ClusterCall) :
    Event.Hosted c.ids (.cluster call (c.answer call).1) := by
  cases call with
  | route i =>
    intro e he
    by_cases hservice : i.service = c.service
    · rw [if_pos hservice] at he
      obtain ⟨n, hn, rfl⟩ := List.mem_map.1 he
      exact List.mem_map_of_mem hn
    · rw [if_neg hservice] at he
      cases he
  | createResponse => rfl
  | createUnready => exact nofun
  | start | startRequest | invoke | success | error | createReject | createNoProvider => trivial

theorem total_answer (call : ClusterCall) :
    let e := Event.cluster call (c.answer call).1
    (c.answer call).2.total (·.invocations) =
        c.total (·.invocations) + (e.meets (·.reaches c.ids)).toNat ∧
      (c.answer call).2.total (·.successes) =
        c.total (·.successes) + (e.meets (·.succeeds)).toNat := by
  cases call with
  | invoke i e => exact total_dispatch e
  | start | route | startRequest | success | error =>
    simp [answer, total, Event.meets, Event.milestone?, Event.cluster]
  | createResponse | createReject | createUnready | createNoProvider => exact ⟨rfl, rfl⟩

end SimCluster

structure World.Hosts {σ : Type} (w : World σ) (cluster : σ → SimCluster) : Prop where
  answers : ∀ call now s, (w.answer (.cluster call) now s).1 = ((cluster s).answer call).1
  changes : ∀ q now s, cluster (w.answer q now s).2 = match q with
    | .cluster call => ((cluster s).answer call).2
    | _ => cluster s
  selects : ∀ i candidates now s e admission,
    (w.answer (.context (.select i candidates)) now s).1 = .ok (e, admission) → e ∈ candidates

structure SimCluster.Records (before : SimCluster) (es : Multiset Event) (c : SimCluster) :
    Prop where
  reached : c.Reached
  ids : c.ids = before.ids
  hosted : ∀ e ∈ es, e.Hosted before.ids
  invocations : c.total (·.invocations) =
    before.total (·.invocations) + es.countP (·.meets (·.reaches before.ids))
  successes : c.total (·.successes) =
    before.total (·.successes) + es.countP (·.meets (·.succeeds))

namespace SimCluster.Records

variable {before c : SimCluster} {es : Multiset Event} {e : Event}

theorem start (h : before.Reached) : before.Records 0 before :=
  ⟨h, rfl, by simp, by simp, by simp⟩

theorem answer (h : before.Records es c) (call : ClusterCall) :
    before.Records (.cluster call (c.answer call).1 ::ₘ es) (c.answer call).2 := by
  obtain ⟨hinvocations, hsuccesses⟩ := c.total_answer call
  refine ⟨.used call h.reached, (ids_answer call).trans h.ids, ?_, ?_, ?_⟩
  · exact Multiset.forall_mem_cons.2 ⟨h.ids ▸ hosted_answer call, h.hosted⟩
  · rw [hinvocations, h.invocations, h.ids, Multiset.countP_cons]
    cases Event.meets _ _ <;> simp [Nat.add_assoc]
  · rw [hsuccesses, h.successes, Multiset.countP_cons]
    cases Event.meets _ _ <;> simp [Nat.add_assoc]

theorem other (h : before.Records es c) (hosted : e.Hosted before.ids)
    (hms : e.milestone? = none ∨ e.milestone? = some .attempted) :
    before.Records (e ::ₘ es) c := by
  have hmeets : ∀ p : Milestone → Bool, p .attempted = false → e.meets p = false := by
    intro p hp
    rcases hms with hms | hms <;> simp [Event.meets, hms, hp]
  refine ⟨h.reached, h.ids, Multiset.forall_mem_cons.2 ⟨hosted, h.hosted⟩, ?_, ?_⟩
  · rw [Multiset.countP_cons, hmeets _ rfl]
    exact h.invocations
  · rw [Multiset.countP_cons, hmeets _ rfl]
    exact h.successes

end SimCluster.Records

theorem World.Hosts.records {σ : Type} {w : World σ} {cluster : σ → SimCluster}
    (hw : w.Hosts cluster) {before : SimCluster} {s : σ} {es : Multiset Event}
    (h : before.Records es (cluster s)) (q : Question) (now : Nat) :
    before.Records (⟨q, (w.answer q now s).1⟩ ::ₘ es) (cluster (w.answer q now s).2) := by
  rw [hw.changes]
  cases q with
  | cluster call =>
    rw [hw.answers]
    exact h.answer call
  | context call =>
    cases call with
    | readiness => exact h.other trivial (.inl rfl)
    | routingMode => exact h.other trivial (.inr rfl)
    | select i candidates =>
      refine h.other ?_ (.inl rfl)
      have hselects := hw.selects i candidates now s
      revert hselects
      cases (w.answer (.context (.select i candidates)) now s).1 with
      | error => exact fun _ => trivial
      | ok chosen => exact fun hselects => hselects _ _ rfl
  | tell | sleep => exact h.other trivial (.inl rfl)

/-! ### Summaries -/

namespace SimSummary

theorem ended_count (s : SimSummary) (o : CallOutcome) :
    (s.count o).successes + (s.count o).failed = s.successes + s.failed + 1 := by
  unfold count failed
  cases o.failure with
  | none => exact Nat.add_right_comm ..
  | some kind =>
    have h := s.failures.sum_values_insert kind.describe
      ((s.failures.get? kind.describe).getD 0 + 1)
    dsimp only
    omega

theorem count_eq (s : SimSummary) (o : CallOutcome) : s.count o = { s with
    successes := s.successes + o.failure.isNone.toNat
    attempts := s.attempts + o.attempts
    failures := (s.count o).failures } := by
  unfold count
  cases o.failure <;> rfl

theorem foldl_count (s : SimSummary) (outcomes : List CallOutcome) :
    let r := outcomes.foldl count s
    r.successes = s.successes + outcomes.countP (·.failure.isNone) ∧
      r.successes + r.failed = s.successes + s.failed + outcomes.length ∧
      r.attempts = s.attempts + (outcomes.map (·.attempts)).sum ∧
      r.calls = s.calls ∧ r.endpoints = s.endpoints := by
  induction outcomes generalizing s with
  | nil => simp
  | cons o outcomes ih =>
    obtain ⟨hsuccesses, hended, hattempts, hcalls, hendpoints⟩ := ih (s.count o)
    refine ⟨?_, ?_, ?_, ?_, ?_⟩
    · rw [List.foldl_cons, hsuccesses, count_eq, List.countP_cons, Nat.add_right_comm]
      cases o.failure <;> rfl
    · rw [List.foldl_cons, hended, ended_count, List.length_cons]
      omega
    · rw [List.foldl_cons, hattempts, count_eq, List.map_cons, List.sum_cons, Nat.add_assoc]
    · rw [List.foldl_cons, hcalls, count_eq]
    · rw [List.foldl_cons, hendpoints, count_eq]

structure Conserves (summary : SimSummary) (before : SimCluster)
    (calls : List (List Event × CallOutcome)) : Prop where
  ended : summary.successes + summary.failed = summary.calls
  balanced : ∀ stats ∈ summary.endpoints.values, stats.Balanced
  successes : (summary.endpoints.values.map (·.successes)).sum =
    (before.stats.values.map (·.successes)).sum + summary.successes
  attempts : (summary.endpoints.values.map (·.invocations)).sum +
      (calls.map fun x => Milestone.undispatched (Event.milestones x.1)).sum =
    (before.stats.values.map (·.invocations)).sum + summary.attempts
  outbound : (∀ x ∈ calls, ∀ r, Event.context .readiness r ∈ x.1 → r.outbound = true) →
    summary.calls ≤ summary.attempts
  barred : (∀ x ∈ calls, ∀ r, Event.context .readiness r ∈ x.1 → r.outbound = false) →
    summary.attempts = 0

end SimSummary

namespace Batch

open Event (milestones Hosted)

open Milestone (Tally undispatched)

theorem sum_tallies {ids : List String} {calls : List (List Event × CallOutcome)}
    (h : ∀ x ∈ calls, Tally ids x.2.attempts x.2.failure.isNone (milestones x.1)) :
    ((calls.map (·.2)).map (·.attempts)).sum =
        (calls.flatMap (·.1)).countP (·.meets (·.reaches ids)) +
          (calls.map fun x => undispatched (milestones x.1)).sum ∧
      (calls.map (·.2)).countP (·.failure.isNone) =
        (calls.flatMap (·.1)).countP (·.meets (·.succeeds)) := by
  induction calls with
  | nil => simp
  | cons x calls ih =>
    obtain ⟨hx, hcalls⟩ := List.forall_mem_cons.1 h
    obtain ⟨hattempts, hsuccesses⟩ := ih hcalls
    obtain ⟨hattempts', hsuccesses'⟩ := hx
    rw [Event.countP_milestones] at hattempts' hsuccesses'
    simp only [List.map_cons, List.sum_cons, List.flatMap_cons, List.countP_append,
      List.countP_cons]
    constructor
    · omega
    · rw [hsuccesses, ← hsuccesses']
      cases x.2.failure <;> simp [Nat.add_comm]

variable {σ : Type} {w : World σ} {cluster : σ → SimCluster} {engine : Engine} {service : String}
  {config : SimConfig} {first : Nat} {s : σ} {b : Batch σ CallOutcome}

theorem Reaches.records (hw : w.Hosts cluster) (hs : (cluster s).Reached)
    (hb : Reaches w (engine.simulated service config) ⟨s, first, 0, []⟩ b) :
    (cluster s).Records b.events (cluster b.state) :=
  hb.keeps (I := fun s' es => (cluster s).Records es (cluster s')) (.start hs)
    fun q now _ _ h => hw.records h q now

theorem events_of_waiting_eq_zero (h : b.waiting = 0) : b.events = ↑(b.ended.flatMap (·.1)) := by
  simp [events, h]

theorem Reaches.tally (hw : w.Hosts cluster) (he : engine.BuiltIn) (hs : (cluster s).Reached)
    (hb : Reaches w (engine.simulated service config) ⟨s, first, 0, []⟩ b) :
    ∀ x ∈ b.ended, Tally (cluster s).ids x.2.attempts x.2.failure.isNone (milestones x.1) ∧
      ∃ r, Event.context .readiness r ∈ x.1 ∧ r.outbound = decide (0 < x.2.attempts) := by
  intro x hx
  obtain ⟨n, hruns⟩ := hb.faithful.ended x hx
  refine he.simulated hruns fun e he => (hb.records hw hs).hosted e ?_
  exact Multiset.mem_add.2 (.inr (Multiset.mem_coe.2 (List.mem_flatMap.2 ⟨x, hx, he⟩)))

def summary (b : Batch σ CallOutcome) (cluster : σ → SimCluster) (config : SimConfig) :
    SimSummary :=
  .ofOutcomes (cluster b.state) config.calls.toNat (b.ended.map (·.2)).toArray

theorem summary_eq (b : Batch σ CallOutcome) (cluster : σ → SimCluster) (config : SimConfig) :
    let summary := b.summary cluster config
    summary.successes = (b.ended.map (·.2)).countP (·.failure.isNone) ∧
      summary.successes + summary.failed = b.ended.length ∧
      summary.attempts = ((b.ended.map (·.2)).map (·.attempts)).sum ∧
      summary.calls = config.calls.toNat ∧ summary.endpoints = (cluster b.state).stats := by
  unfold summary SimSummary.ofOutcomes
  rw [List.foldl_toArray]
  obtain ⟨hsuccesses, hended, hattempts, hrest⟩ := SimSummary.foldl_count
    { service := (cluster b.state).service, seed := (cluster b.state).seed
      calls := config.calls.toNat, successes := 0, failures := .empty, attempts := 0
      endpoints := (cluster b.state).stats } (b.ended.map (·.2))
  rw [List.length_map] at hended
  exact ⟨hsuccesses.trans (Nat.zero_add _), hended.trans (Nat.zero_add _),
    hattempts.trans (Nat.zero_add _), hrest⟩

theorem Makes.conserves (hw : w.Hosts cluster) (he : engine.BuiltIn) (hs : (cluster s).Reached)
    (hb : b.Makes w (engine.simulated service config) s first config.calls.toNat) :
    (b.summary cluster config).Conserves (cluster s) b.ended := by
  have hr := hb.reaches.records hw hs
  rw [events_of_waiting_eq_zero hb.waiting] at hr
  have htally := hb.reaches.tally hw he hs
  obtain ⟨hattempts, hsuccesses⟩ := sum_tallies fun x hx => (htally x hx).1
  have hgate (out : Bool)
      (hready : ∀ x ∈ b.ended, ∀ r, Event.context .readiness r ∈ x.1 → r.outbound = out) :
      ∀ n ∈ (b.ended.map (·.2)).map (·.attempts), decide (0 < n) = out := by
    simp only [List.map_map, List.mem_map]
    rintro _ ⟨x, hx, rfl⟩
    obtain ⟨-, r, hmem, hr⟩ := htally x hx
    exact hr.symm.trans (hready x hx r hmem)
  obtain ⟨hs₁, hs₂, hs₃, hs₄, hs₅⟩ := b.summary_eq cluster config
  constructor
  · rw [hs₂, hs₄, hb.length_ended]
  · rw [hs₅]
    exact SimCluster.balanced_of_mem_stats hr.reached
  · rw [hs₁, hs₅, SimCluster.sum_stats, SimCluster.sum_stats, hr.successes, hsuccesses]
    simp
  · rw [hs₃, hs₅, SimCluster.sum_stats, SimCluster.sum_stats, hr.invocations, hattempts]
    simp [Nat.add_assoc]
  · intro houtbound
    rw [hs₃, hs₄, ← hb.length_ended]
    refine le_trans (by simp) (List.length_le_sum_of_one_le _ fun n hn => ?_)
    exact of_decide_eq_true (hgate true houtbound n hn)
  · intro hbarred
    rw [hs₃]
    refine List.sum_eq_zero fun n hn => ?_
    exact Nat.eq_zero_of_not_pos (of_decide_eq_false (hgate false hbarred n hn))

end Batch

/-! ### Runs of the harness -/

theorem Governance.readiness_answer (g : Governance) (now : Nat) (call : ContextCall) :
    (g.answer now call).2.readiness = g.readiness := by
  obtain ⟨_, h⟩ : ∃ charges, Answers now g call charges (g.answer now call).1
      (g.answer now call).2 := answers_iff.2 rfl
  rw [h.frame]

namespace Simulation

theorem world_hosts (start : UInt64) : (world start).Hosts Prod.snd where
  answers _ _ _ := rfl
  changes q _ _ := by cases q <;> rfl
  selects i candidates passed s e admission h := by
    obtain ⟨charges, hs⟩ := Governance.selects_iff.2
      (rfl : s.1.select (start + .ofNat passed).toNat i candidates = (_, _))
    exact Governance.Selects.mem (h ▸ hs)

theorem readiness_of_reaches {start : UInt64} {α : Type} {dialogue : Nat → Dialogue α}
    {g : Governance} {c : SimCluster} {first : Nat} {b : Batch (Governance × SimCluster) α}
    (h : Batch.Reaches (world start) dialogue ⟨(g, c), first, 0, []⟩ b) :
    ∀ x ∈ b.ended, ∀ r, Event.context .readiness r ∈ x.1 → r = g.readiness := by
  have hkept := h.keeps (I := fun s es => s.1.readiness = g.readiness ∧
    ∀ r, Event.context .readiness r ∈ es → r = g.readiness) ⟨rfl, by simp⟩ ?_
  · intro x hx r hr
    refine hkept.2 r (Multiset.mem_add.2 (.inr (Multiset.mem_coe.2 ?_)))
    exact List.mem_flatMap.2 ⟨x, hx, hr⟩
  · rintro q passed ⟨g', c'⟩ es ⟨hg, hes⟩
    constructor
    · rw [← hg]
      cases q with
      | context call => exact Governance.readiness_answer ..
      | tell signal => cases signal <;> rfl
      | cluster | sleep => rfl
    · intro r hr
      rcases Multiset.mem_cons.1 hr with heq | hr
      · cases q with
        | context call =>
          cases heq
          exact hg
        | cluster | tell | sleep => cases heq
      · exact hes r hr

theorem exists_makes (s : Simulation) (config : SimConfig) (turn : Turn) :
    ∃ b : Batch (Governance × SimCluster) CallOutcome,
      b.Makes (world s.now) (s.call config) (s.governance, s.cluster) s.calls
        config.calls.toNat ∧ (s.run config turn).1 = b.summary Prod.snd config := by
  have hwidth : 0 < max config.concurrency.toNat 1 :=
    Nat.lt_of_lt_of_le Nat.one_pos (Nat.le_max_right ..)
  obtain ⟨b, hb, hshows⟩ := Pool.exists_makes_run (world s.now) (s.call config) turn hwidth s.calls
    config.calls.toNat (s.governance, s.cluster)
  refine ⟨b, hb, ?_⟩
  unfold Batch.summary
  rw [← hshows.results, ← hshows.state]
  rfl

end Simulation

/--
However the calls of a batch interleave, and whatever context governs them, their outcomes agree
with the counters of the endpoints. A simulation makes such a batch whoever has the turns, and its
calls are attempted if the application lets calls out, and are not if it does not.
-/
theorem simulation_conserves_calls :
    (∀ {σ : Type} (w : World σ) (cluster : σ → SimCluster) (engine : Engine) (config : SimConfig)
      (first : Nat) (s : σ) (b : Batch σ CallOutcome),
      w.Hosts cluster → engine.BuiltIn → (cluster s).Reached →
      b.Makes w (engine.simulated (cluster s).service config) s first config.calls.toNat →
      (b.summary cluster config).calls = config.calls.toNat ∧
        (b.summary cluster config).Conserves (cluster s) b.ended) ∧
    ∀ (s : Simulation) (config : SimConfig) (turn : Turn),
      s.engine.BuiltIn → s.cluster.Reached →
      let summary := (s.run config turn).1
      (∃ b : Batch (Governance × SimCluster) CallOutcome,
        b.Makes (Simulation.world s.now) (s.call config) (s.governance, s.cluster) s.calls
          config.calls.toNat ∧ summary = b.summary Prod.snd config ∧
        summary.Conserves s.cluster b.ended) ∧
      (s.governance.readiness.outbound = true → summary.calls ≤ summary.attempts) ∧
      (s.governance.readiness.outbound = false → summary.attempts = 0) := by
  constructor
  · intro σ w cluster engine config first s b hw he hs hb
    obtain ⟨-, -, -, hcalls, -⟩ := b.summary_eq cluster config
    exact ⟨hcalls, hb.conserves hw he hs⟩
  · intro s config turn he hs summary
    obtain ⟨b, hb, hsummary⟩ := s.exists_makes config turn
    have hconserves : summary.Conserves s.cluster b.ended := by
      rw [show summary = _ from hsummary]
      exact hb.conserves (Simulation.world_hosts s.now) he hs
    have hready := Simulation.readiness_of_reaches hb.reaches
    refine ⟨⟨b, hb, hsummary, hconserves⟩, fun hopen => ?_, fun hclosed => ?_⟩
    · exact hconserves.outbound fun x hx r hr => by rwa [hready x hx r hr]
    · exact hconserves.barred fun x hx r hr => by rwa [hready x hx r hr]

theorem simulation_conserves_three_calls :
    let config : SimConfig := { calls := 3, concurrency := 2 }
    let a : Endpoint := { id := "a", host := "h", port := 1 }
    ∃ (s : Simulation) (b : Batch (Governance × SimCluster) CallOutcome),
      s.cluster.nodes = [.fresh .standard a { failureRate := 0.5 }] ∧
      b.Makes (Simulation.world s.now) (s.call config) (s.governance, s.cluster) s.calls 3 ∧
      (b.summary Prod.snd config).successes + (b.summary Prod.snd config).failed = 3 ∧
      ∀ turn, let summary := (s.run config turn).1
        (summary.endpoints.values.map (·.successes)).sum = summary.successes ∧
          summary.calls ≤ summary.attempts := by
  intro config a
  obtain ⟨engine, hengine, hpolicies⟩ :
      ∃ engine, Engine.ofConfig {} = .ok engine ∧ engine.policies = {} := ⟨_, rfl, rfl⟩
  have he : engine.BuiltIn := ⟨{}, engine, hengine, rfl⟩
  obtain ⟨c, hc⟩ := SimCluster.exists_add (EndpointBehavior.validate_half a.id)
    (c := { service := "s", seed := .standard }) (by decide)
  have hs : c.Reached := (SimCluster.Reached.empty "s" .standard).joined hc
  obtain ⟨-, hnodes⟩ := SimCluster.of_add hc
  let s : Simulation := {
    engine, cluster := c
    governance := {
      readiness := ⟨.ready, .initial⟩, routingMode := .reuse
      limiters := ⟨.empty, .tokenBucket, ⟨30000, 60000, 0, .empty⟩⟩
      breakers := ⟨.empty, .count, ⟨30000, 60000, 0, .empty⟩, #[]⟩
      balancer := .roundRobinStart } }
  have hstart : (c.stats.values.map (·.successes)).sum = 0 := by
    rw [SimCluster.sum_stats, SimCluster.total, hnodes]
    rfl
  obtain ⟨b, hb, -⟩ := s.exists_makes config .earliest
  obtain ⟨hcalls, hconserves⟩ := simulation_conserves_calls.1 (Simulation.world s.now) Prod.snd
    engine config s.calls (s.governance, c) b (Simulation.world_hosts s.now) he hs hb
  refine ⟨s, b, hnodes, hb, hconserves.ended.trans hcalls, fun turn => ?_⟩
  obtain ⟨⟨b', -, -, hconserves'⟩, hopen, -⟩ := simulation_conserves_calls.2 s config turn he hs
  refine ⟨?_, hopen rfl⟩
  rw [hconserves'.successes, show (s.cluster.stats.values.map (·.successes)).sum = 0 from hstart,
    Nat.zero_add]

end Turnpike
