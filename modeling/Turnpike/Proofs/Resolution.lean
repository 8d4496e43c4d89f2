import Turnpike.Proofs.Monitors
import Turnpike.Proofs.Untried

namespace Turnpike

open Event (cluster context told pause)

/-! ### Rounds -/

/-- An attempt in the events of a call, from the question for its mode up to the next one. -/
structure Round where
  call : Invocation
  mode : RoutingMode
  events : List Event

namespace Event

def mode? : Event → Option (Invocation × RoutingMode)
  | ⟨.context (.routingMode i), mode⟩ => some (i, mode)
  | _ => none

def found? : Event → Option (Except Failure (List Endpoint))
  | ⟨.cluster (.route _), answer⟩ => some answer
  | _ => none

def invoked? : Event → Option (Invocation × Endpoint)
  | ⟨.cluster (.invoke i e), _⟩ => some (i, e)
  | _ => none

def kept? (e : Event) : Option (List Endpoint) := e.question.invocation?.map (·.instances)

def rounds : List Event → List Round
  | [] => []
  | e :: es => match e.mode? with
    | some (i, mode) => ⟨i, mode, es.takeWhile (·.mode?.isNone)⟩ :: rounds es
    | none => rounds es

end Event

namespace Round

def found (r : Round) : List (Except Failure (List Endpoint)) := r.events.filterMap Event.found?

def dispatches (r : Round) : List (Invocation × Endpoint) := r.events.filterMap Event.invoked?

/--
The cluster is asked unless there are candidates to reuse, and the attempt goes to one of those kept
or, if it is routed anew, of those found.
-/
structure Resolves (r : Round) : Prop where
  length_found : r.found.length = if r.mode = .reuse ∧ r.call.instances ≠ [] then 0 else 1
  reused : r.mode = .reuse → ∀ d ∈ r.dispatches, d.2 ∈ d.1.instances
  rerouted : r.mode = .reroute → ∀ d ∈ r.dispatches, ∃ found, r.found = [.ok found] ∧ d.2 ∈ found

end Round

namespace Event

variable {e : Event} {es es' : List Event}

def Silent (e : Event) : Prop := e.question.invocation? = none

theorem Silent.mode?_eq (h : e.Silent) : e.mode? = none := by
  unfold mode?
  split
  · cases h
  · rfl

theorem Silent.found?_eq (h : e.Silent) : e.found? = none := by
  unfold found?
  split
  · cases h
  · rfl

theorem Silent.invoked?_eq (h : e.Silent) : e.invoked? = none := by
  unfold invoked?
  split
  · cases h
  · rfl

theorem Silent.kept?_eq (h : e.Silent) : e.kept? = none := by
  rw [kept?, h]
  rfl

theorem silent_of_mem_told {signals : List Signal} (h : e ∈ told signals) : e.Silent := by
  obtain ⟨s, -, rfl⟩ := List.mem_map.1 h
  rfl

theorem silent_of_mem_failing {i : Invocation} {endpoint : Option Endpoint} {f : Failure}
    {response : Response} (h : e ∈ failing i endpoint f response) : e.Silent := by
  rw [failing, List.mem_append, List.mem_cons, List.mem_map] at h
  rcases h with h | rfl | ⟨_, -, rfl⟩
  · exact silent_of_mem_told h
  · rfl
  · rfl

theorem silent_of_mem_succeeding {i : Invocation} {endpoint : Endpoint} {response : Response}
    (h : e ∈ succeeding i endpoint response) : e.Silent := by
  rw [succeeding, List.mem_append, List.mem_singleton] at h
  rcases h with h | rfl
  · exact silent_of_mem_told h
  · rfl

inductive Pursues (kept : List Endpoint) (found : Except Failure (List Endpoint)) : Event → Prop
  | silent {e : Event} : e.Silent → Pursues kept found e
  | selected {i : Invocation} {candidates : List Endpoint}
      {answer : (ContextCall.select i candidates).Answer} : i.instances = kept →
    Pursues kept found (context (.select i candidates) answer)
  | dispatched {i : Invocation} {e : Endpoint} {candidates : List Endpoint}
      {answer : Except Failure Response} : i.instances = kept →
    found = .ok candidates → e ∈ candidates → Pursues kept found (cluster (.invoke i e) answer)
  | paused {i : Invocation} {ms : Nat} : i.instances = kept → Pursues kept found ⟨.sleep i ms, ()⟩

namespace Pursues

variable {kept : List Endpoint} {found : Except Failure (List Endpoint)}

theorem mode?_eq (h : e.Pursues kept found) : e.mode? = none := by
  cases h with
  | silent h => exact h.mode?_eq
  | selected | dispatched | paused => rfl

theorem found?_eq (h : e.Pursues kept found) : e.found? = none := by
  cases h with
  | silent h => exact h.found?_eq
  | selected | dispatched | paused => rfl

theorem kept?_eq (h : e.Pursues kept found) : e.kept? = none ∨ e.kept? = some kept := by
  cases h with
  | silent h => exact .inl h.kept?_eq
  | selected h | dispatched h | paused h => exact .inr (congrArg some h)

theorem of_invoked {d : Invocation × Endpoint} (h : e.Pursues kept found)
    (hd : e.invoked? = some d) :
    d.1.instances = kept ∧ ∃ candidates, found = .ok candidates ∧ d.2 ∈ candidates := by
  cases h with
  | silent h => cases h.invoked?_eq.symm.trans hd
  | selected | paused => cases hd
  | dispatched hkept hfound hmem =>
    cases hd
    exact ⟨hkept, _, hfound, hmem⟩

end Pursues

theorem eq_of_mode? {i : Invocation} {mode : RoutingMode} (h : e.mode? = some (i, mode)) :
    e = context (.routingMode i) mode := by
  unfold mode? at h
  split at h
  · cases h
    rfl
  · cases h

theorem kept?_of_invoked? {d : Invocation × Endpoint} (h : e.invoked? = some d) :
    e.kept? = some d.1.instances := by
  unfold invoked? at h
  split at h
  · cases h
    rfl
  · cases h

theorem rounds_cons_of_none (h : e.mode? = none) (es : List Event) :
    rounds (e :: es) = rounds es := by
  simp [rounds, h]

theorem rounds_cons_of_some {i : Invocation} {mode : RoutingMode} (h : e.mode? = some (i, mode))
    (es : List Event) :
    rounds (e :: es) = ⟨i, mode, es.takeWhile (·.mode?.isNone)⟩ :: rounds es := by
  simp [rounds, h]

theorem rounds_append (h : ∀ e ∈ es, e.mode? = none) : rounds (es ++ es') = rounds es' := by
  induction es with
  | nil => rfl
  | cons e es ih =>
    obtain ⟨he, h⟩ := List.forall_mem_cons.1 h
    rw [List.cons_append, rounds_cons_of_none he, ih h]

theorem takeWhile_append (h : ∀ e ∈ es, e.mode? = none) :
    (es ++ es').takeWhile (·.mode?.isNone) = es ++ es'.takeWhile (·.mode?.isNone) :=
  List.takeWhile_append_of_pos fun e he => by rw [h e he, Option.isNone_none]

theorem rounds_round {i : Invocation} {mode : RoutingMode} (h : ∀ e ∈ es, e.mode? = none) :
    rounds (context (.routingMode i) mode :: (es ++ es')) =
      ⟨i, mode, es ++ es'.takeWhile (·.mode?.isNone)⟩ :: rounds es' := by
  rw [rounds_cons_of_some rfl, takeWhile_append h, rounds_append h]

end Event

section

variable {i j : Invocation} {es : List Event} {o : AttemptOutcome} {response : Response}

open Event (Pursues)

theorem Refused.pursues {found : List Endpoint} {f : Failure} (h : Refused i found es f) :
    ∀ e ∈ es, e.Pursues i.instances (.ok found) := by
  cases h with
  | nobody => simpa using .silent rfl
  | rejected | noProvider => simpa using ⟨.selected rfl, .silent rfl⟩
  | failed => simpa using .selected rfl

theorem Dispatched.pursues {e : Endpoint} {found : List Endpoint} (h : Dispatched i e es o j)
    (he : e ∈ found) : ∀ x ∈ es, x.Pursues i.instances (.ok found) := by
  have hdispatching (answer : Except Failure Response) :
      ∀ x ∈ dispatching i e answer, x.Pursues i.instances (.ok found) := by
    intro x hx
    rw [dispatching, List.mem_append, List.mem_pair] at hx
    rcases hx with hx | rfl | rfl
    · exact .silent (Event.silent_of_mem_told hx)
    · exact .silent rfl
    · exact .dispatched rfl rfl he
  cases h with
  | succeeded =>
    exact List.forall_mem_append.2
      ⟨hdispatching _, fun x hx => .silent (Event.silent_of_mem_succeeding hx)⟩
  | failed =>
    exact List.forall_mem_append.2
      ⟨hdispatching _, fun x hx => .silent (Event.silent_of_mem_failing hx)⟩

theorem Attempted.pursues (h : Attempted i es o j) (hes : ∀ e ∈ es, e.Picks) :
    ∃ es₁ es₂ found k, es = told i.beginAttempt.1 ++ es₁ ++ es₂ ∧
      Routed i.beginAttempt.2 es₁ found k ∧ j.instances = k.instances ∧
      ∀ e ∈ es₂, e.Pursues k.instances found := by
  cases h with
  | unrouted hr =>
    refine ⟨_, _, _, _, rfl, hr, ?_, fun e he => .silent (Event.silent_of_mem_failing he)⟩
    rw [frame_onFailure]
  | refused hr hrefused =>
    refine ⟨_, _, _, _, List.append_assoc .., hr, ?_, List.forall_mem_append.2
      ⟨hrefused.pursues, fun e he => .silent (Event.silent_of_mem_failing he)⟩⟩
    rw [frame_onFailure]
  | @dispatched es₁ es₂ found k _ e admission _ hr _ hd =>
    have hpicked : e ∈ k.untried found :=
      hes (context (.select k (k.untried found)) (.ok (e, admission))) (by simp)
    have hkept : (k.admittedBy admission).instances = k.instances := by
      rw [frame_admittedBy]
    refine ⟨_, _, _, _, rfl, hr, ?_, List.forall_mem_cons.2 ⟨.selected rfl, ?_⟩⟩
    · rw [hd.frame, hkept]
    · rw [← hkept]
      exact hd.pursues (mem_untried_iff.1 hpicked).1

theorem Routed.resolves {es' : List Event} {found : Except Failure (List Endpoint)}
    (h : Routed i es found j) (hes' : ∀ e ∈ es', e.Pursues j.instances found) :
    ∃ mode events, es = context (.routingMode i) mode :: events ∧
      (∀ e ∈ events, e.mode? = none) ∧ (Round.mk i mode (events ++ es')).Resolves := by
  have hfound : es'.filterMap Event.found? = [] :=
    List.filterMap_eq_nil_iff.2 fun e he => (hes' e he).found?_eq
  have hdispatches : ∀ d ∈ es'.filterMap Event.invoked?, d.1.instances = j.instances ∧
      ∃ candidates, found = .ok candidates ∧ d.2 ∈ candidates := by
    intro d hd
    obtain ⟨e, he, hd⟩ := List.mem_filterMap.1 hd
    exact (hes' e he).of_invoked hd
  cases h with
  | reused hne =>
    refine ⟨.reuse, [], rfl, List.forall_mem_nil _, ?_, ?_, fun hmode => by cases hmode⟩
    · simp [Round.found, hfound, hne]
    · intro _ d hd
      obtain ⟨hkept, _, ⟨⟩, hmem⟩ := hdispatches d hd
      exact hkept.symm ▸ hmem
  | @asked mode _ hmode =>
    have hasked : (Round.mk i mode ([cluster (.route i) found] ++ es')).found = [found] := by
      simp [Round.found, Event.found?, cluster, hfound]
    have hinvoked : (Round.mk i mode ([cluster (.route i) found] ++ es')).dispatches =
        es'.filterMap Event.invoked? := rfl
    refine ⟨mode, _, rfl, List.forall_mem_singleton.2 rfl, ?_, fun hreuse d hd => ?_,
      fun _ d hd => ?_⟩
    · rw [hasked, if_neg (by rintro ⟨rfl, hne⟩; simp_all)]
      rfl
    · obtain ⟨hkept, candidates, rfl, hmem⟩ := hdispatches d (hinvoked ▸ hd)
      have hnone : i.instances = [] := hmode.resolve_left (by simp [show mode = _ from hreuse])
      rw [hkept]
      simpa [Invocation.recorded, Invocation.setInstances, hnone] using hmem
    · obtain ⟨-, candidates, rfl, hmem⟩ := hdispatches d (hinvoked ▸ hd)
      exact ⟨candidates, hasked, hmem⟩

structure Shows (n : Nat) (es : List Event) : Prop where
  silent : ∀ e ∈ es.takeWhile (·.mode?.isNone), e.Silent
  length_rounds : (Event.rounds es).length = n
  resolves : ∀ r ∈ Event.rounds es, r.Resolves

theorem Attempted.shows {n : Nat} {es' es'' : List Event} (h : Attempted i es o j)
    (hes : ∀ e ∈ es, e.Picks) (hes' : ∀ e ∈ es', ∀ found, e.Pursues j.instances found)
    (h'' : Shows n es'') : Shows (n + 1) (es ++ es' ++ es'') := by
  obtain ⟨es₁, es₂, found, k, rfl, hr, hkept, hpursues⟩ := h.pursues hes
  rw [hkept] at hes'
  have hall : ∀ e ∈ es₂ ++ es' ++ es''.takeWhile (·.mode?.isNone), e.Pursues k.instances found := by
    simp only [List.forall_mem_append]
    exact ⟨⟨hpursues, fun e he => hes' e he found⟩, fun e he => .silent (h''.silent e he)⟩
  obtain ⟨mode, events, rfl, hevents, hresolves⟩ := hr.resolves hall
  have htold : ∀ e ∈ told i.beginAttempt.1, e.mode? = none := fun e he =>
    (Event.silent_of_mem_told he).mode?_eq
  have hquiet : ∀ e ∈ events ++ (es₂ ++ es'), e.mode? = none := by
    simp only [List.forall_mem_append]
    exact ⟨hevents, fun e he => (hpursues e he).mode?_eq, fun e he => (hes' e he found).mode?_eq⟩
  have hsplit : told i.beginAttempt.1 ++ (context (.routingMode i.beginAttempt.2) mode :: events) ++
      es₂ ++ es' ++ es'' = told i.beginAttempt.1 ++
        context (.routingMode i.beginAttempt.2) mode :: (events ++ (es₂ ++ es') ++ es'') := by
    simp
  rw [hsplit]
  constructor
  · rw [Event.takeWhile_append htold]
    intro e he
    exact Event.silent_of_mem_told (by simpa [Event.mode?, context] using he)
  · rw [Event.rounds_append htold, Event.rounds_round hquiet, List.length_cons, h''.length_rounds]
  · rw [Event.rounds_append htold, Event.rounds_round hquiet, List.forall_mem_cons]
    refine ⟨?_, h''.resolves⟩
    simpa using hresolves

theorem shows_nil : Shows 0 [] := ⟨List.forall_mem_nil _, rfl, List.forall_mem_nil _⟩

theorem pursues_pause (i : Invocation) (ms : Nat) :
    ∀ e ∈ pause i ms, ∀ found, e.Pursues i.instances found := by
  unfold pause
  split
  · exact List.forall_mem_nil _
  · exact List.forall_mem_singleton.2 fun _ => .paused rfl

theorem Attempts.shows {again : Again} {k n : Nat} (h : Attempts again k i n es response j)
    (hes : ∀ e ∈ es, e.Picks) : Shows n es := by
  induction h with
  | last ha => simpa using ha.shows hes (List.forall_mem_nil _) shows_nil
  | @again k n ms _ j _ es es' _ _ ha _ _ ih =>
    simp only [List.forall_mem_append] at hes
    exact ha.shows hes.1.1 (pursues_pause j ms) (ih hes.2)

theorem Opened.silent (h : Opened i es) : ∀ e ∈ es, e.Silent := by
  cases h with
  | ready | letThrough => simp [Event.Silent, Question.invocation?, cluster, context]

theorem Barred.silent (h : Barred i es response) : ∀ e ∈ es, e.Silent := by
  cases h with
  | unready => simp [Event.Silent, Question.invocation?, cluster, context]

theorem Shows.append_silent {n : Nat} {es' : List Event} (h : Shows n es)
    (hes' : ∀ e ∈ es', e.Silent) : Shows n (es' ++ es) := by
  have hquiet : ∀ e ∈ es', e.mode? = none := fun e he => (hes' e he).mode?_eq
  constructor
  · rw [Event.takeWhile_append hquiet]
    exact List.forall_mem_append.2 ⟨hes', h.silent⟩
  · rw [Event.rounds_append hquiet, h.length_rounds]
  · rw [Event.rounds_append hquiet]
    exact h.resolves

theorem Invoked.shows {again : Again} {n : Nat} (h : Invoked again i n es response j)
    (hes : ∀ e ∈ es, e.Picks) : Shows n es := by
  cases h with
  | refused hbarred => simpa using shows_nil.append_silent hbarred.silent
  | attempted hopened ha =>
    exact (ha.shows (List.forall_mem_append.1 hes).2).append_silent hopened.silent

/-! ### The candidates that a call keeps -/

def Event.keptAfter (kept : List Endpoint) (e : Event) : List Endpoint :=
  match e.found? with
  | some (.ok found) => if kept = [] then found else kept
  | _ => kept

/-- A call that asks has with it what it keeps; only what it is given can change that, once. -/
inductive Keeps : List Endpoint → List Event → List Endpoint → Prop
  | nil {kept : List Endpoint} : Keeps kept [] kept
  | cons {kept later : List Endpoint} {e : Event} {es : List Event} :
    (∀ l, e.kept? = some l → l = kept) → Keeps (e.keptAfter kept) es later →
    Keeps kept (e :: es) later

variable {kept kept' later : List Endpoint} {es' : List Event}

theorem Keeps.append (h : Keeps kept es kept') (h' : Keeps kept' es' later) :
    Keeps kept (es ++ es') later := by
  induction h with
  | nil => exact h'
  | cons he _ ih => exact .cons he (ih h')

theorem keeps_of_pursues (found : Except Failure (List Endpoint))
    (h : ∀ e ∈ es, e.Pursues kept found) : Keeps kept es kept := by
  induction es with
  | nil => exact .nil
  | cons e es ih =>
    obtain ⟨he, h⟩ := List.forall_mem_cons.1 h
    have hafter : e.keptAfter kept = kept := by
      rw [Event.keptAfter, he.found?_eq]
    refine .cons (fun l hl => ?_) (hafter.symm ▸ ih h)
    rcases he.kept?_eq with hnone | hsome
    · cases hnone.symm.trans hl
    · exact Option.some.inj (hl.symm.trans hsome)

theorem keeps_of_silent (h : ∀ e ∈ es, e.Silent) : Keeps kept es kept :=
  keeps_of_pursues (.ok []) fun e he => .silent (h e he)

theorem Routed.keeps {found : Except Failure (List Endpoint)} (h : Routed i es found j) :
    Keeps i.instances es j.instances := by
  cases h with
  | reused => exact .cons (fun _ hl => (Option.some.inj hl).symm) .nil
  | asked =>
    have hafter : (cluster (.route i) found).keptAfter i.instances =
        (i.recorded found).instances := by
      cases found with
      | error => rfl
      | ok found =>
        simp only [Event.keptAfter, Event.found?, cluster, Invocation.recorded,
          Invocation.setInstances, List.isEmpty_iff]
        split <;> rfl
    rw [← hafter]
    exact .cons (fun _ hl => (Option.some.inj hl).symm)
      (.cons (fun _ hl => (Option.some.inj hl).symm) .nil)

theorem Attempted.keeps (h : Attempted i es o j) (hes : ∀ e ∈ es, e.Picks) :
    Keeps i.instances es j.instances := by
  obtain ⟨es₁, es₂, found, k, rfl, hr, hkept, hpursues⟩ := h.pursues hes
  have htold : Keeps i.instances (told i.beginAttempt.1) i.beginAttempt.2.instances :=
    keeps_of_silent fun e he => Event.silent_of_mem_told he
  rw [hkept]
  exact (htold.append hr.keeps).append (keeps_of_pursues found hpursues)

theorem Attempts.keeps {again : Again} {k n : Nat} (h : Attempts again k i n es response j)
    (hes : ∀ e ∈ es, e.Picks) : Keeps i.instances es j.instances := by
  induction h with
  | last ha => exact ha.keeps hes
  | @again k n ms _ j _ es es' _ _ ha _ _ ih =>
    simp only [List.forall_mem_append] at hes
    have hpause : Keeps j.instances (pause j ms) j.instances :=
      keeps_of_pursues (.ok []) fun e he => pursues_pause j ms e he _
    exact ((ha.keeps hes.1.1).append hpause).append (ih hes.2)

theorem Invoked.keeps {again : Again} {n : Nat} (h : Invoked again i n es response j)
    (hes : ∀ e ∈ es, e.Picks) : Keeps i.instances es j.instances := by
  cases h with
  | refused hbarred => exact keeps_of_silent hbarred.silent
  | attempted hopened ha =>
    exact (keeps_of_silent hopened.silent).append (ha.keeps (List.forall_mem_append.1 hes).2)

theorem Event.keptAfter_of_ne_nil (e : Event) (h : kept ≠ []) : e.keptAfter kept = kept := by
  unfold keptAfter
  split
  · exact if_neg h
  · rfl

def Event.Finds (e : Event) : Prop := ∃ found, e.found? = some (.ok found) ∧ found ≠ []

theorem Event.Finds.keptAfter_ne_nil {e : Event} (h : e.Finds) (kept : List Endpoint) :
    e.keptAfter kept ≠ [] := by
  obtain ⟨found, hfound, hne⟩ := h
  simp only [keptAfter, hfound]
  split <;> assumption

namespace Keeps

theorem pairwise (h : Keeps kept es later) :
    (kept :: (es.filterMap Event.kept? ++ [later])).Pairwise
      fun known later => known ≠ [] → later = known := by
  induction h with
  | nil => simp
  | @cons kept later e es he _ ih =>
    obtain ⟨hfirst, hrest⟩ := List.pairwise_cons.1 ih
    have hkept : ∀ l ∈ es.filterMap Event.kept? ++ [later], kept ≠ [] → l = kept := by
      intro l hl hne
      rw [e.keptAfter_of_ne_nil hne] at hfirst
      exact hfirst l hl hne
    cases hasked : e.kept? with
    | none =>
      rw [List.filterMap_cons_none hasked]
      exact List.pairwise_cons.2 ⟨hkept, hrest⟩
    | some l =>
      obtain rfl := he l hasked
      rw [List.filterMap_cons_some hasked, List.cons_append]
      exact List.pairwise_cons.2
        ⟨List.forall_mem_cons.2 ⟨fun _ => rfl, hkept⟩, List.pairwise_cons.2 ⟨hkept, hrest⟩⟩

theorem eq_of_mem (h : Keeps kept es later) {l : List Endpoint}
    (hl : l ∈ es.filterMap Event.kept?) (hne : l ≠ []) : later = l :=
  (List.pairwise_append.1 (List.pairwise_cons.1 h.pairwise).2).2.2 l hl later
    (List.mem_singleton_self later) hne

theorem call_ne_nil (h : Keeps kept es later)
    (hknown : kept ≠ [] ∨ ∃ e ∈ es.takeWhile (·.mode?.isNone), e.Finds) :
    ∀ r ∈ Event.rounds es, r.call.instances ≠ [] := by
  induction h with
  | nil => exact List.forall_mem_nil _
  | @cons kept later e es he _ ih =>
    have hkept (hne : kept ≠ []) : ∀ r ∈ Event.rounds es, r.call.instances ≠ [] :=
      ih (.inl ((e.keptAfter_of_ne_nil hne).symm ▸ hne))
    cases hm : e.mode? with
    | none =>
      rw [Event.rounds_cons_of_none hm]
      rw [List.takeWhile_cons_of_pos (by rw [hm, Option.isNone_none])] at hknown
      rcases hknown with hne | hfinds
      · exact hkept hne
      · obtain ⟨x, hx, hfinds⟩ := hfinds
        rcases List.mem_cons.1 hx with rfl | hx
        · exact ih (.inl (hfinds.keptAfter_ne_nil kept))
        · exact ih (.inr ⟨x, hx, hfinds⟩)
    | some asked =>
      rw [List.takeWhile_cons_of_neg (by simp [hm])] at hknown
      have hne : kept ≠ [] := hknown.resolve_right (by simp)
      obtain ⟨i, mode⟩ := asked
      obtain rfl := Event.eq_of_mode? hm
      have hi : i.instances = kept := he _ rfl
      rw [Event.rounds_cons_of_some hm, List.forall_mem_cons]
      exact ⟨hi ▸ hne, hkept hne⟩

theorem pairwise_rounds (h : Keeps kept es later) : (Event.rounds es).Pairwise fun r later =>
    (∃ e ∈ r.events, e.Finds) → later.call.instances ≠ [] := by
  induction h with
  | nil => exact .nil
  | @cons kept later e es _ hrest ih =>
    cases hm : e.mode? with
    | none =>
      rw [Event.rounds_cons_of_none hm]
      exact ih
    | some asked =>
      rw [Event.rounds_cons_of_some hm]
      exact List.pairwise_cons.2 ⟨fun r hr hfinds => hrest.call_ne_nil (.inr hfinds) r hr, ih⟩

end Keeps

end

theorem Event.filterMap_eq {α : Type} {f : Event → Option α}
    (hmode : ∀ i mode, f (context (.routingMode i) mode) = none) (es : List Event) :
    es.filterMap f = (es.takeWhile (·.mode?.isNone)).filterMap f ++
      (rounds es).flatMap (·.events.filterMap f) := by
  induction es with
  | nil => rfl
  | cons e es ih =>
    cases hm : e.mode? with
    | none =>
      rw [rounds_cons_of_none hm, List.takeWhile_cons_of_pos (by rw [hm, Option.isNone_none])]
      simp only [List.filterMap_cons]
      split <;> simp [ih]
    | some asked =>
      obtain rfl := eq_of_mode? hm
      rw [rounds_cons_of_some hm, List.takeWhile_cons_of_neg (by simp [hm]),
        List.filterMap_cons_none (hmode ..), ih]
      rfl

theorem Shows.filterMap_eq {α : Type} {f : Event → Option α} {n : Nat} {es : List Event}
    (h : Shows n es) (hmode : ∀ i mode, f (context (.routingMode i) mode) = none)
    (hsilent : ∀ e : Event, e.Silent → f e = none) :
    es.filterMap f = (Event.rounds es).flatMap (·.events.filterMap f) := by
  have hfirst : (es.takeWhile (·.mode?.isNone)).filterMap f = [] :=
    List.filterMap_eq_nil_iff.2 fun e he => hsilent e (h.silent e he)
  rw [Event.filterMap_eq hmode, hfirst, List.nil_append]

/-- A call asks for candidates as its routing mode says, and once it has some it keeps them. -/
theorem candidates_resolved_by_mode {invoker : Invoker} {policy : Option ServicePolicy}
    {i j : Invocation} {es : List Event} {response : Response}
    (hinvoker : invoker = .failfast ∨ ∃ schedule : Schedule, invoker = .failover schedule.runner)
    (h : Conduct.Runs (invoker.execute policy) i es response j) (hes : ∀ e ∈ es, e.Picks) :
    let rounds := Event.rounds es
    (j.attempts = i.attempts + rounds.length ∧
      es.filterMap Event.found? = rounds.flatMap Round.found ∧
      es.filterMap Event.invoked? = rounds.flatMap Round.dispatches) ∧
    (i.instances :: (es.filterMap Event.kept? ++ [j.instances])).Pairwise
      (fun known later => known ≠ [] → later = known) ∧
    (∀ r ∈ rounds, r.found.length =
      if r.mode = .reuse ∧ r.call.instances ≠ [] then 0 else 1) ∧
    (i.instances ≠ [] → ∀ r ∈ rounds, r.mode = .reuse → r.found = []) ∧
    rounds.Pairwise (fun r later => (∃ found, .ok found ∈ r.found ∧ found ≠ []) →
      later.mode = .reuse → later.found = []) ∧
    ∀ r ∈ rounds, ∀ d ∈ r.dispatches,
      (r.mode = .reuse → d.2 ∈ d.1.instances ∧ d.1.instances = j.instances) ∧
      (r.mode = .reroute → ∃ found, r.found = [.ok found] ∧ d.2 ∈ found) := by
  intro rounds
  obtain ⟨again, n, hinvoked⟩ :
      ∃ again n, Invoked again (i.setDefaultPolicy policy) n es response j := by
    rcases hinvoker with rfl | ⟨schedule, rfl⟩
    · exact ⟨_, Conduct.runs_failfast_iff.1 h⟩
    · exact ⟨_, Conduct.runs_failover_iff.1 h⟩
  have hshows := hinvoked.shows hes
  have hkeeps : Keeps i.instances es j.instances := hinvoked.keeps hes
  have hfound {r : Round} (hr : r.Resolves) (hmode : r.mode = .reuse)
      (hne : r.call.instances ≠ []) : r.found = [] :=
    List.length_eq_zero_iff.1 (hr.length_found.trans (if_pos ⟨hmode, hne⟩))
  have hinvokes : es.filterMap Event.invoked? = rounds.flatMap Round.dispatches :=
    hshows.filterMap_eq (fun _ _ => rfl) fun _ he => he.invoked?_eq
  refine ⟨⟨?_, ?_, ?_⟩, ?_, fun r hr => (hshows.resolves r hr).length_found, ?_, ?_, ?_⟩
  · rw [hinvoked.attempts_eq, hshows.length_rounds]
    rfl
  · exact hshows.filterMap_eq (fun _ _ => rfl) fun _ he => he.found?_eq
  · exact hinvokes
  · exact hkeeps.pairwise
  · intro hne r hr hmode
    exact hfound (hshows.resolves r hr) hmode (hkeeps.call_ne_nil (.inl hne) r hr)
  · refine hkeeps.pairwise_rounds.imp_of_mem fun {r later} _ hlater hne hanswered hmode => ?_
    obtain ⟨found, hanswer, hfinds⟩ := hanswered
    obtain ⟨e, he, hanswer⟩ := List.mem_filterMap.1 hanswer
    exact hfound (hshows.resolves later hlater) hmode (hne ⟨e, he, found, hanswer, hfinds⟩)
  · intro r hr d hd
    refine ⟨fun hmode => ?_, fun hmode => (hshows.resolves r hr).rerouted hmode d hd⟩
    have hmem := (hshows.resolves r hr).reused hmode d hd
    obtain ⟨e, he, hd⟩ := List.mem_filterMap.1 (hinvokes ▸ List.mem_flatMap.2 ⟨r, hr, hd⟩)
    refine ⟨hmem, (hkeeps.eq_of_mem (List.mem_filterMap.2
      ⟨e, he, Event.kept?_of_invoked? hd⟩) (List.ne_nil_of_mem hmem)).symm⟩

theorem failover_keeps_first_candidates :
    let a : Endpoint := { id := "a", host := "h", port := 1 }
    let b : Endpoint := { id := "b", host := "h", port := 2 }
    let reply : Reply := { endpoint := "a", payload := [] }
    let i : Invocation := {
      request := { id := ⟨⟨List.replicate 16 0, rfl⟩⟩, service := "s", path := "/" }
      policy := some { service := "s", retry := some { maxAttempts := 3, intervalMs := 0 } } }
    ∃ es j, Conduct.Runs ((Invoker.failover Schedule.fixed.runner).execute none) i es
        (.success reply) j ∧
      (∀ e ∈ es, e.Picks) ∧
      (Event.rounds es).map (fun r => (r.mode, r.found, r.dispatches.map (·.2))) =
        [(.reuse, [.ok [a, b]], [a]), (.reroute, [.ok [b]], [b]), (.reuse, [], [a])] ∧
      ∀ r ∈ Event.rounds es, ∀ d ∈ r.dispatches, r.mode = .reuse →
        d.2 ∈ d.1.instances ∧ d.1.instances = j.instances := by
  intro a b reply i
  let f : Failure := .dispatch .connect "refused"
  let i₁ : Invocation := { i with attempts := 1, instances := [a, b] }
  let i₂ : Invocation := { i₁ with attempts := 2, failed := ["a"] }
  let i₃ : Invocation := { i₁ with attempts := 3, failed := ["a", "b"] }
  have hrouted : Routed i.beginAttempt.2 [context (.routingMode i.beginAttempt.2) .reuse,
      cluster (.route i.beginAttempt.2) (.ok [a, b])] (.ok [a, b]) i₁ :=
    .asked (.inr rfl)
  have hfailed : Dispatched (i₁.admittedBy none) a
      (dispatching i₁ a (.error f) ++ failing i₁ (some a) f (.failure f))
      ⟨.failure f, some f⟩ (i₁.onFailure (some a) f).2 :=
    .failed (.inl rfl)
  have hrerouted : Routed i₂ [context (.routingMode i₂) .reroute,
      cluster (.route i₂) (.ok [b])] (.ok [b]) i₂ :=
    .asked (.inl rfl)
  have hfailed' : Dispatched (i₂.admittedBy none) b
      (dispatching i₂ b (.error f) ++ failing i₂ (some b) f (.failure f))
      ⟨.failure f, some f⟩ (i₂.onFailure (some b) f).2 :=
    .failed (.inl rfl)
  have hreused : Routed i₃ [context (.routingMode i₃) .reuse] (.ok [a, b]) i₃ :=
    .reused (List.cons_ne_nil a [b])
  have hsucceeded : Dispatched (i₃.admittedBy none) a
      (dispatching i₃ a (.ok (.success reply)) ++ succeeding i₃ a (.success reply))
      ⟨.success reply, none⟩ (i₃.onSuccess a (.success reply)).2 :=
    .succeeded
  have hfirst := Attempted.dispatched hrouted (List.cons_ne_nil a [b]) hfailed
  have hsecond : Attempted (i₁.onFailure (some a) f).2 _ _ _ :=
    .dispatched hrerouted (List.cons_ne_nil b []) hfailed'
  have hthird : Attempted (i₂.onFailure (some b) f).2 _ _ _ :=
    .dispatched hreused (List.cons_ne_nil a [b]) hsucceeded
  have hattempts : Attempts (Schedule.fixed.again i) 1 i 3 _ _ _ :=
    .again hfirst (show _ = some 0 from rfl)
      (.again hsecond (show _ = some 0 from rfl) (.last hthird rfl))
  have hopened : Opened i [cluster (.start i.request) (), context .readiness ⟨.ready, .initial⟩] :=
    .ready rfl
  let es : List Event := [
    cluster (.start i.request) (), context .readiness ⟨.ready, .initial⟩,
    context (.routingMode i.beginAttempt.2) .reuse,
    cluster (.route i.beginAttempt.2) (.ok [a, b]), context (.select i₁ [a, b]) (.ok (a, none)),
    cluster (.startRequest i.request a) (), cluster (.invoke i₁ a) (.error f),
    cluster (.createResponse f i.request (some a)) (.failure f),
    cluster (.error f i.request (some a)) (),
    context (.routingMode i₂) .reroute, cluster (.route i₂) (.ok [b]),
    context (.select i₂ [b]) (.ok (b, none)),
    cluster (.startRequest i.request b) (), cluster (.invoke i₂ b) (.error f),
    cluster (.createResponse f i.request (some b)) (.failure f),
    cluster (.error f i.request (some b)) (),
    context (.routingMode i₃) .reuse, context (.select i₃ [a, b]) (.ok (a, none)),
    cluster (.startRequest i.request a) (), cluster (.invoke i₃ a) (.ok (.success reply)),
    cluster (.success (.success reply) i.request a) ()]
  have hruns : Conduct.Runs ((Invoker.failover Schedule.fixed.runner).execute none) i es
      (.success reply) _ :=
    Conduct.runs_failover_iff.2 ⟨3, .attempted hopened hattempts⟩
  have hpicks : ∀ e ∈ es, Event.Picks e := by
    simp [es, Event.Picks, cluster, context]
  refine ⟨_, _, hruns, hpicks, rfl, fun r hr d hd hmode => ?_⟩
  exact ((candidates_resolved_by_mode (.inr ⟨_, rfl⟩) hruns hpicks).2.2.2.2.2 r hr d hd).1 hmode

end Turnpike
