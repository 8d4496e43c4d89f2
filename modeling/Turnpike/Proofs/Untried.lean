import Mathlib.Data.Finset.Card
import Turnpike.Proofs.RetryBudget

namespace Turnpike

/-! ### Dispatches of a call -/

structure Dispatch where
  candidates : List Endpoint
  endpoint : Endpoint
  answer : Except Failure Response

namespace Dispatch

def failure? (d : Dispatch) : Option Failure :=
  match d.answer with
  | .error f => some f
  | .ok response => response.failure?

def failures (ds : List Dispatch) : List String :=
  ds.filterMap fun d => d.failure?.map fun _ => d.endpoint.id

structure Sound (failed : List String) (d : Dispatch) : Prop where
  mem : d.endpoint ∈ d.candidates
  untried : d.endpoint.id ∉ failed ∨ ∀ c ∈ d.candidates, c.id ∈ failed

def failedAfter (failed : List String) (d : Dispatch) : List String :=
  if d.failure? = none ∨ d.endpoint.id ∈ failed then failed else failed ++ [d.endpoint.id]

/--
The dispatches of a call, with the failed endpoints that are known before and after them. Only the
last one may succeed.
-/
inductive Course : List String → List Dispatch → List String → Prop
  | nil {failed : List String} : Course failed [] failed
  | last {failed : List String} {d : Dispatch} : d.Sound failed →
    Course failed [d] (d.failedAfter failed)
  | next {failed failed' : List String} {d : Dispatch} {ds : List Dispatch} : d.Sound failed →
    d.failure? ≠ none → Course (d.failedAfter failed) ds failed' → Course failed (d :: ds) failed'

variable {d : Dispatch} {ds : List Dispatch} {failed failed' : List String}

@[simp] theorem failures_append (ds ds' : List Dispatch) :
    failures (ds ++ ds') = failures ds ++ failures ds' :=
  List.filterMap_append ..

theorem failures_cons (d : Dispatch) (ds : List Dispatch) :
    failures (d :: ds) = failures [d] ++ failures ds :=
  failures_append [d] ds

theorem failures_singleton_of_none (h : d.failure? = none) : failures [d] = [] := by
  simp [failures, h]

theorem failures_singleton_of_ne_none (h : d.failure? ≠ none) :
    failures [d] = [d.endpoint.id] := by
  obtain ⟨f, hf⟩ := Option.ne_none_iff_exists'.1 h
  simp [failures, hf]

theorem failedAfter_of_none (h : d.failure? = none) : d.failedAfter failed = failed := by
  rw [failedAfter, if_pos (.inl h)]

theorem failedAfter_of_ne_none (h : d.failure? ≠ none) : d.failedAfter failed =
    if d.endpoint.id ∈ failed then failed else failed ++ [d.endpoint.id] := by
  simp only [failedAfter, h, false_or]

theorem failedAfter_eq (d : Dispatch) (failed : List String) : d.failedAfter failed =
    failed ++ ((failures [d]).removeAll failed).eraseDups := by
  by_cases h : d.failure? = none
  · simp [failedAfter_of_none h, failures_singleton_of_none h]
  · rw [failedAfter_of_ne_none h, failures_singleton_of_ne_none h]
    split <;> rename_i hid
    · simp [List.removeAll, hid]
    · simp [List.removeAll, hid, List.eraseDups_cons]

theorem mem_failedAfter_iff {id : String} :
    id ∈ d.failedAfter failed ↔ id ∈ failed ++ failures [d] := by
  rw [failedAfter_eq, List.mem_append, List.mem_eraseDups, List.mem_append]
  simp only [List.removeAll, List.mem_filter]
  by_cases h : id ∈ failed <;> simp [h]

theorem nodup_failedAfter (d : Dispatch) (h : failed.Nodup) : (d.failedAfter failed).Nodup := by
  unfold failedAfter
  split <;> rename_i hd
  · exact h
  · exact List.concat_eq_append ▸ h.concat fun hid => hd (.inr hid)

theorem removeAll_append_eraseDups (l as bs : List String) :
    l.removeAll (as ++ bs.eraseDups) = (l.removeAll as).removeAll bs := by
  simp only [List.removeAll, List.filter_filter]
  congr 1
  funext id
  simp [Bool.and_comm]

theorem Sound.congr (h : d.Sound failed) (hf : ∀ id, id ∈ failed ↔ id ∈ failed') :
    d.Sound failed' :=
  ⟨h.mem, h.untried.imp (fun hid h => hid ((hf _).2 h)) fun hall c hc => (hf _).1 (hall c hc)⟩

def fresh (candidates : List Endpoint) (failed : List String) : Finset String :=
  (candidates.map (·.id)).toFinset \ failed.toFinset

theorem Sound.mem_fresh {candidates : List Endpoint} (h : d.Sound failed)
    (hd : d.candidates = candidates) (hcard : (fresh candidates failed).card ≠ 0) :
    d.endpoint.id ∈ fresh candidates failed := by
  obtain ⟨id, hid⟩ := Finset.card_ne_zero.1 hcard
  simp only [fresh, Finset.mem_sdiff, List.mem_toFinset, List.mem_map] at hid ⊢
  obtain ⟨⟨c, hc, rfl⟩, hnot⟩ := hid
  subst hd
  exact ⟨⟨d.endpoint, h.mem, rfl⟩, h.untried.resolve_right fun hall => hnot (hall c hc)⟩

theorem Sound.not_mem_failed {candidates : List Endpoint} (h : d.Sound failed)
    (hd : d.candidates = candidates) (hcard : (fresh candidates failed).card ≠ 0) :
    d.endpoint.id ∉ failed := by
  simpa using (Finset.mem_sdiff.1 (h.mem_fresh hd hcard)).2

theorem card_fresh_append {candidates : List Endpoint} {id : String}
    (h : id ∈ fresh candidates failed) :
    (fresh candidates (failed ++ [id])).card + 1 = (fresh candidates failed).card := by
  have herase : fresh candidates (failed ++ [id]) = (fresh candidates failed).erase id := by
    ext x
    simp only [fresh, Finset.mem_sdiff, Finset.mem_erase, List.mem_toFinset, List.mem_append,
      List.mem_singleton]
    tauto
  rw [herase, Finset.card_erase_add_one h]

namespace Course

theorem failed_eq (h : Course failed ds failed') :
    failed' = failed ++ ((failures ds).removeAll failed).eraseDups := by
  induction h with
  | nil => simp [failures]
  | last => exact failedAfter_eq ..
  | @next failed failed' d ds _ _ _ ih =>
    have hsplit : (failures (d :: ds)).removeAll failed =
        (failures [d]).removeAll failed ++ (failures ds).removeAll failed := by
      rw [failures_cons]
      exact List.filter_append ..
    rw [ih, failedAfter_eq, hsplit, List.eraseDups_append, removeAll_append_eraseDups,
      List.append_assoc]

theorem nodup (h : Course failed ds failed') (hf : failed.Nodup) : failed'.Nodup := by
  induction h with
  | nil => exact hf
  | last => exact nodup_failedAfter _ hf
  | next _ _ _ ih => exact ih (nodup_failedAfter _ hf)

theorem sound (h : Course failed ds failed') {before after : List Dispatch}
    (hds : ds = before ++ d :: after) : d.Sound (failed ++ failures before) := by
  induction h generalizing before with
  | nil => simp at hds
  | @last failed d' hd =>
    obtain ⟨rfl, rfl, rfl⟩ : before = [] ∧ d' = d ∧ after = [] := by
      rcases before with _ | ⟨_, before⟩ <;> simp_all
    simpa [failures] using hd
  | @next failed failed' d' ds hd _ _ ih =>
    rcases before with _ | ⟨_, before⟩
    · cases hds
      simpa [failures] using hd
    · cases hds
      rw [failures_cons, ← List.append_assoc]
      refine (ih rfl).congr fun id => ?_
      rw [List.mem_append, mem_failedAfter_iff, ← List.mem_append]

theorem nodup_take {candidates : List Endpoint} (h : Course failed ds failed')
    (hcandidates : ∀ d ∈ ds, d.candidates = candidates) :
    let ids := (ds.take (fresh candidates failed).card).map (·.endpoint.id)
    ids.Nodup ∧ ∀ id ∈ ids, id ∉ failed := by
  induction h with
  | nil => simp
  | @last failed d hd =>
    by_cases hcard : (fresh candidates failed).card = 0
    · simp [hcard]
    · have hnot := hd.not_mem_failed (hcandidates d (List.mem_singleton_self d)) hcard
      obtain ⟨n, hn⟩ := Nat.exists_eq_succ_of_ne_zero hcard
      simpa [hn] using hnot
  | @next failed failed' d ds hd hfails _ ih =>
    obtain ⟨ihnodup, ihfresh⟩ := ih fun d hd => hcandidates d (List.mem_cons_of_mem _ hd)
    by_cases hcard : (fresh candidates failed).card = 0
    · simp [hcard]
    · have hnot := hd.not_mem_failed (hcandidates d (List.mem_cons_self ..)) hcard
      have hid := hd.mem_fresh (hcandidates d (List.mem_cons_self ..)) hcard
      have hafter : d.failedAfter failed = failed ++ [d.endpoint.id] := by
        rw [failedAfter_of_ne_none hfails, if_neg hnot]
      rw [hafter] at ihnodup ihfresh
      simp only [← card_fresh_append hid, List.take_succ_cons, List.map_cons, List.nodup_cons,
        List.forall_mem_cons]
      refine ⟨⟨fun hmem => ?_, ihnodup⟩, hnot, fun id hmem => ?_⟩
      · exact ihfresh _ hmem (List.mem_append_right _ (List.mem_singleton_self _))
      · exact fun h => ihfresh _ hmem (List.mem_append_left _ h)

end Course

end Dispatch

/-! ### Dispatches in the events of a call -/

namespace Event

def Picks : Event → Prop
  | ⟨.context (.select _ candidates), .ok (e, _)⟩ => e ∈ candidates
  | _ => True

def trials (candidates : List Endpoint) : List Event → List Dispatch
  | [] => []
  | ⟨.context (.routingMode i), _⟩ :: es => trials i.instances es
  | ⟨.cluster (.route _), .ok found⟩ :: es => trials found es
  | ⟨.cluster (.invoke _ e), answer⟩ :: es => ⟨candidates, e, answer⟩ :: trials candidates es
  | _ :: es => trials candidates es

variable {candidates : List Endpoint}

@[simp] theorem trials_told (signals : List Signal) (es : List Event) :
    trials candidates (told signals ++ es) = trials candidates es := by
  induction signals with
  | nil => rfl
  | cons s signals ih => exact ih

@[simp] theorem trials_pause (i : Invocation) (ms : Nat) (es : List Event) :
    trials candidates (pause i ms ++ es) = trials candidates es := by
  unfold pause
  split <;> rfl

@[simp] theorem trials_failing (i : Invocation) (e : Option Endpoint) (f : Failure)
    (response : Response) (es : List Event) :
    trials candidates (failing i e f response ++ es) = trials candidates es := by
  rw [failing, List.append_assoc, trials_told]
  cases response <;> rfl

@[simp] theorem trials_dispatching (i : Invocation) (e : Endpoint)
    (answer : Except Failure Response) (es : List Event) :
    trials candidates (dispatching i e answer ++ es) =
      ⟨candidates, e, answer⟩ :: trials candidates es := by
  rw [dispatching, List.append_assoc, trials_told]
  rfl

@[simp] theorem trials_succeeding (i : Invocation) (e : Endpoint) (response : Response)
    (es : List Event) :
    trials candidates (succeeding i e response ++ es) = trials candidates es := by
  rw [succeeding, List.append_assoc, trials_told]
  rfl

end Event

section Attempts

open Event (trials Picks)

variable {i j : Invocation} {es : List Event} {o : AttemptOutcome} {response : Response}

theorem Routed.trials_append {found : Except Failure (List Endpoint)} (h : Routed i es found j)
    (candidates : List Endpoint) (es' : List Event) :
    trials candidates (es ++ es') = trials (found.toOption.getD i.instances) es' := by
  cases h with
  | reused => rfl
  | asked => cases found <;> rfl

theorem Routed.failed_eq {found : Except Failure (List Endpoint)} (h : Routed i es found j) :
    j.failed = i.failed := by
  rw [h.frame]

theorem Refused.trials_append {found : List Endpoint} {f : Failure} (h : Refused i found es f)
    (candidates : List Endpoint) (es' : List Event) :
    trials candidates (es ++ es') = trials candidates es' := by
  cases h <;> rfl

theorem Opened.trials_append (h : Opened i es) (candidates : List Endpoint) (es' : List Event) :
    trials candidates (es ++ es') = trials candidates es' := by
  cases h <;> rfl

theorem Barred.trials_eq_nil (h : Barred i es response) (candidates : List Endpoint) :
    trials candidates es = [] := by
  cases h
  rfl

theorem Routed.instances_eq {found : Except Failure (List Endpoint)} (h : Routed i es found j)
    (hne : i.instances ≠ []) : j.instances = i.instances := by
  cases h with
  | reused => rfl
  | asked => cases found <;> simp [Invocation.recorded, Invocation.setInstances, hne]

theorem Attempted.instances_eq (h : Attempted i es o j) (hne : i.instances ≠ []) :
    j.instances = i.instances := by
  cases h with
  | unrouted hr =>
    rw [frame_onFailure]
    exact hr.instances_eq hne
  | refused hr =>
    rw [frame_onFailure]
    exact hr.instances_eq hne
  | dispatched hr _ hd =>
    rw [hd.frame, frame_admittedBy]
    exact hr.instances_eq hne

theorem Attempts.instances_eq {again : Again} {k n : Nat}
    (h : Attempts again k i n es response j) (hne : i.instances ≠ []) :
    j.instances = i.instances := by
  induction h with
  | last ha => exact ha.instances_eq hne
  | again ha _ _ ih =>
    have hj := ha.instances_eq hne
    rw [ih (hj ▸ hne), hj]

def Event.Reuses : Event → Prop
  | ⟨.context (.routingMode _), mode⟩ => mode = .reuse
  | _ => True

theorem Routed.instances_of_reuses {found : List Endpoint} (h : Routed i es (.ok found) j)
    (hne : found ≠ []) (hes : ∀ e ∈ es, e.Reuses) : found = j.instances := by
  cases h with
  | reused => rfl
  | asked hmode =>
    have hreuse : _ = RoutingMode.reuse := hes _ (List.mem_cons_self ..)
    have hi : i.instances = [] := hmode.resolve_left (by simp [hreuse])
    simp [Invocation.recorded, Invocation.setInstances, hi]

theorem Dispatched.trials_append {e : Endpoint} (h : Dispatched i e es o j)
    (candidates : List Endpoint) : ∃ d : Dispatch, d.candidates = candidates ∧ d.endpoint = e ∧
      j.failed = d.failedAfter i.failed ∧ (o.failure ≠ none → d.failure? ≠ none) ∧
      ∀ es', trials candidates (es ++ es') = d :: trials candidates es' := by
  cases h with
  | @succeeded reply =>
    have hok : (Dispatch.mk candidates e (.ok (.success reply))).failure? = none := rfl
    refine ⟨⟨candidates, e, .ok (.success reply)⟩, rfl, rfl, ?_, fun h => absurd rfl h,
      fun es' => ?_⟩
    · rw [Dispatch.failedAfter_of_none hok]
      rfl
    · rw [List.append_assoc, Event.trials_dispatching, Event.trials_succeeding]
  | @failed answer f response hanswer =>
    have hfails : (Dispatch.mk candidates e answer).failure? ≠ none := by
      rcases hanswer with rfl | rfl <;> exact Option.some_ne_none f
    refine ⟨⟨candidates, e, answer⟩, rfl, rfl, ?_, fun _ => hfails, fun es' => ?_⟩
    · rw [Dispatch.failedAfter_of_ne_none hfails]
      exact i.failed_markFailed_some e
    · rw [List.append_assoc, Event.trials_dispatching, Event.trials_failing]

theorem Attempted.trials_append (h : Attempted i es o j) (hes : ∀ e ∈ es, e.Picks) :
    (j.failed = i.failed ∧
      ∃ last, ∀ candidates es', trials candidates (es ++ es') = trials last es') ∨
    ∃ d : Dispatch, d.Sound i.failed ∧ j.failed = d.failedAfter i.failed ∧
      (o.failure ≠ none → d.failure? ≠ none) ∧ d.candidates ≠ [] ∧
      ((∀ e ∈ es, e.Reuses) → d.candidates = j.instances) ∧
      ∃ last, ∀ candidates es', trials candidates (es ++ es') = d :: trials last es' := by
  cases h with
  | unrouted hr =>
    refine .inl ⟨?_, i.instances, fun candidates es' => ?_⟩
    · exact hr.failed_eq
    · simp only [List.append_assoc, Event.trials_told, hr.trials_append, Event.trials_failing]
      rfl
  | @refused _ _ found _ _ _ hr hrefused =>
    refine .inl ⟨?_, found, fun candidates es' => ?_⟩
    · exact hr.failed_eq
    · simp only [List.append_assoc, Event.trials_told, hr.trials_append, hrefused.trials_append,
        Event.trials_failing]
      rfl
  | @dispatched es₁ es₂ found k _ e admission _ hr hne hd =>
    obtain ⟨d, rfl, rfl, hfailed, hfails, htrials⟩ := hd.trials_append found
    have hk : (k.admittedBy admission).failed = i.failed := by
      rw [frame_admittedBy]
      exact hr.failed_eq
    have hpicked : d.endpoint ∈ k.untried d.candidates :=
      hes (.context (.select k (k.untried d.candidates)) (.ok (d.endpoint, admission))) (by simp)
    rw [mem_untried_iff, hr.failed_eq] at hpicked
    rw [hk] at hfailed
    refine .inr ⟨d, ⟨hpicked.1, hpicked.2⟩, hfailed, hfails, hne, fun hreuses => ?_, d.candidates,
      fun candidates es' => ?_⟩
    · rw [hd.frame, frame_admittedBy]
      exact hr.instances_of_reuses hne fun e he => hreuses e (by simp [he])
    · simp only [List.append_assoc, Event.trials_told, hr.trials_append]
      exact htrials es'

theorem Attempts.course {again : Again} {k n : Nat} (h : Attempts again k i n es response j)
    (hes : ∀ e ∈ es, e.Picks) (candidates : List Endpoint) :
    Dispatch.Course i.failed (trials candidates es) j.failed ∧
      ((∀ e ∈ es, e.Reuses) → ∀ d ∈ trials candidates es, d.candidates = j.instances) := by
  induction h generalizing candidates with
  | @last k i j es o ha hlast =>
    rcases ha.trials_append hes with ⟨hfailed, c, htrials⟩ |
      ⟨d, hd, hfailed, -, -, hreuse, c, htrials⟩
    · have hnil : trials candidates es = [] := by simpa [trials] using htrials candidates []
      rw [hnil, hfailed]
      exact ⟨.nil, nofun⟩
    · have hone : trials candidates es = [d] := by simpa [trials] using htrials candidates []
      rw [hone, hfailed]
      refine ⟨.last hd, fun h d' hd' => ?_⟩
      rw [List.mem_singleton.1 hd']
      exact hreuse h
  | @again k n ms i j l es es' o response ha hagain hrest ih =>
    have hrest' := ih fun e he => hes e (by simp [he])
    rcases ha.trials_append fun e he => hes e (by simp [he]) with ⟨hfailed, c, htrials⟩ |
      ⟨d, hd, hfailed, hfails, hne, hreuse, c, htrials⟩
    · rw [List.append_assoc, htrials, Event.trials_pause, ← hfailed]
      exact ⟨(hrest' c).1, fun h => (hrest' c).2 fun e he => h e (by simp [he])⟩
    · rw [List.append_assoc, htrials, Event.trials_pause]
      have hfailure : o.failure ≠ none := fun hnone => by simp [hnone] at hagain
      obtain ⟨hcourse, hkept⟩ := hrest' c
      rw [hfailed] at hcourse
      refine ⟨.next hd (hfails hfailure) hcourse, fun h => ?_⟩
      have hdj := hreuse fun e he => h e (by simp [he])
      rw [List.forall_mem_cons]
      refine ⟨?_, hkept fun e he => h e (by simp [he])⟩
      rw [hrest.instances_eq (hdj ▸ hne), hdj]

theorem Invoked.course {again : Again} {n : Nat} (h : Invoked again i n es response j)
    (hes : ∀ e ∈ es, e.Picks) :
    Dispatch.Course i.failed (trials [] es) j.failed ∧
      ((∀ e ∈ es, e.Reuses) → ∀ d ∈ trials [] es, d.candidates = j.instances) := by
  cases h with
  | refused hbarred =>
    rw [hbarred.trials_eq_nil]
    exact ⟨.nil, nofun⟩
  | attempted hopened ha =>
    rw [hopened.trials_append]
    obtain ⟨hcourse, hkept⟩ := ha.course (fun e he => hes e (by simp [he])) []
    exact ⟨hcourse, fun h => hkept fun e he => h e (by simp [he])⟩

theorem Invoked.instances_eq {again : Again} {n : Nat} (h : Invoked again i n es response j)
    (hne : i.instances ≠ []) : j.instances = i.instances := by
  cases h with
  | refused => rfl
  | attempted _ ha => exact ha.instances_eq hne

end Attempts

/--
Every attempt that dispatches goes to a candidate that has not failed in the call, unless all of
its candidates have. So as many dispatches as there are candidates with ids of their own go to
different endpoints, when the candidates stay the same; and each failed endpoint is noted once.
-/
theorem failover_goes_to_untried {schedule : Schedule} {policy : Option ServicePolicy}
    {i j : Invocation} {es : List Event} {response : Response}
    (h : Conduct.Runs ((Invoker.failover schedule.runner).execute policy) i es response j)
    (hes : ∀ e ∈ es, e.Picks) :
    let ds := Event.trials [] es
    (∀ before d after, ds = before ++ d :: after → d.endpoint ∈ d.candidates ∧
      (d.endpoint.id ∉ i.failed ++ Dispatch.failures before ∨
        ∀ c ∈ d.candidates, c.id ∈ i.failed ++ Dispatch.failures before)) ∧
    (i.failed = [] → j.failed = (Dispatch.failures ds).eraseDups ∧ j.failed.Nodup) ∧
    (i.instances ≠ [] → j.instances = i.instances) ∧
    (i.failed = [] → (∀ e ∈ es, e.Reuses) →
      (∀ d ∈ ds, d.candidates = j.instances) ∧
      let k := (j.instances.map (·.id)).toFinset.card
      ((ds.take (min ds.length k)).map (·.endpoint.id)).Nodup) := by
  intro ds
  obtain ⟨n, hinvoked⟩ := Conduct.runs_failover_iff.1 h
  obtain ⟨hcourse, hkept⟩ := hinvoked.course hes
  refine ⟨fun before d after hds => ?_, fun hi => ?_, fun hne => hinvoked.instances_eq hne,
    fun hi hreuses => ⟨hkept hreuses, ?_⟩⟩
  · have hd := hcourse.sound hds
    exact ⟨hd.mem, hd.untried⟩
  · have hi : (i.setDefaultPolicy policy).failed = [] := hi
    rw [hi] at hcourse
    refine ⟨?_, hcourse.nodup List.nodup_nil⟩
    rw [hcourse.failed_eq]
    simp [List.removeAll, ds]
  · have hi : (i.setDefaultPolicy policy).failed = [] := hi
    rw [hi] at hcourse
    have hnodup := (hcourse.nodup_take (hkept hreuses)).1
    intro k
    rw [Nat.min_comm, ← List.take_eq_take_min]
    simpa [Dispatch.fresh] using hnodup

theorem failover_moves_on :
    let a : Endpoint := { id := "a", host := "h", port := 1 }
    let b : Endpoint := { id := "b", host := "h", port := 2 }
    let f : Failure := .dispatch .connect "refused"
    let reply : Reply := { endpoint := "b", payload := [] }
    let i : Invocation := {
      request := { id := ⟨⟨List.replicate 16 0, rfl⟩⟩, service := "s", path := "/" }
      policy := some { service := "s", retry := some { maxAttempts := 3, intervalMs := 0 } } }
    ∃ es j, Conduct.Runs ((Invoker.failover Schedule.fixed.runner).execute none) i es
        (.success reply) j ∧
      (∀ e ∈ es, e.Picks) ∧ (∀ e ∈ es, e.Reuses) ∧
      Event.trials [] es = [⟨[a, b], a, .error f⟩, ⟨[a, b], b, .ok (.success reply)⟩] ∧
      j.failed = ["a"] := by
  open Event (cluster context) in
  intro a b f reply i
  let i₁ : Invocation := { i with attempts := 1, instances := [a, b] }
  let i₂ : Invocation := { i₁ with attempts := 2, failed := ["a"] }
  have hrouted : Routed i.beginAttempt.2 [context (.routingMode i.beginAttempt.2) .reuse,
      cluster (.route i.beginAttempt.2) (.ok [a, b])] (.ok [a, b]) i₁ :=
    .asked (.inr rfl)
  have hfailed : Dispatched (i₁.admittedBy none) a
      (dispatching i₁ a (.error f) ++ failing i₁ (some a) f (.failure f))
      ⟨.failure f, some f⟩ (i₁.onFailure (some a) f).2 :=
    .failed (.inl rfl)
  have hreused : Routed i₂ [context (.routingMode i₂) .reuse] (.ok [a, b]) i₂ :=
    .reused (List.cons_ne_nil a [b])
  have hsucceeded : Dispatched (i₂.admittedBy none) b
      (dispatching i₂ b (.ok (.success reply)) ++ succeeding i₂ b (.success reply))
      ⟨.success reply, none⟩ (i₂.onSuccess b (.success reply)).2 :=
    .succeeded
  have hfirst := Attempted.dispatched hrouted (List.cons_ne_nil a [b]) hfailed
  have hsecond : Attempted (i₁.onFailure (some a) f).2 _ _ _ :=
    .dispatched hreused (List.cons_ne_nil a [b]) hsucceeded
  have hattempts : Attempts (Schedule.fixed.again i) 1 i 2 _ _ _ :=
    .again hfirst (show _ = some 0 from rfl) (.last hsecond rfl)
  have hopened : Opened i [cluster (.start i.request) (), context .readiness ⟨.ready, .initial⟩] :=
    .ready rfl
  let es : List Event := [
    cluster (.start i.request) (), context .readiness ⟨.ready, .initial⟩,
    context (.routingMode i.beginAttempt.2) .reuse,
    cluster (.route i.beginAttempt.2) (.ok [a, b]), context (.select i₁ [a, b]) (.ok (a, none)),
    cluster (.startRequest i.request a) (), cluster (.invoke i₁ a) (.error f),
    cluster (.createResponse f i.request (some a)) (.failure f),
    cluster (.error f i.request (some a)) (),
    context (.routingMode i₂) .reuse, context (.select i₂ [b]) (.ok (b, none)),
    cluster (.startRequest i.request b) (), cluster (.invoke i₂ b) (.ok (.success reply)),
    cluster (.success (.success reply) i.request b) ()]
  have hruns : Conduct.Runs ((Invoker.failover Schedule.fixed.runner).execute none) i es
      (.success reply) _ :=
    Conduct.runs_failover_iff.2 ⟨2, .attempted hopened hattempts⟩
  have hpicks : ∀ e ∈ es, Event.Picks e := by
    simp [es, Event.Picks, cluster, context]
  have hreuses : ∀ e ∈ es, Event.Reuses e := by
    simp [es, Event.Reuses, cluster, context]
  exact ⟨_, _, hruns, hpicks, hreuses, rfl, ((failover_goes_to_untried hruns hpicks).2.1 rfl).1⟩

end Turnpike
