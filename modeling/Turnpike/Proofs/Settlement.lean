import Turnpike.Proofs.Ledger
import Turnpike.Proofs.Monitors

namespace Turnpike

/-! ### What listeners report -/

def Signal.report? : Signal → Option (BreakerId × Report)
  | .report b r => some (b, r)
  | _ => none

theorem Listener.reports_flatMap {f : Listener → List Signal} {r : Report}
    (hf : ∀ x, (f x).filterMap Signal.report? = x.admission?.toList.map (·, r))
    (xs : List Listener) :
    (xs.flatMap f).filterMap Signal.report? = (xs.filterMap admission?).map (·, r) := by
  induction xs with
  | nil => rfl
  | cons x xs ih =>
    rw [List.flatMap_cons, List.filterMap_append, hf, ih]
    cases x <;> rfl

namespace Invocation

@[simp] theorem filterMap_listeners (i : Invocation) :
    i.listeners.filterMap Listener.admission? = i.admissions := by
  simp [listeners, admissions, Listener.admission?]

theorem admissions_addAttemptListener (i : Invocation) (b : BreakerId) :
    (i.addAttemptListener (.admission b)).admissions = i.admissions ++ [b] := by
  simp [admissions, addAttemptListener, Listener.admission?]

theorem fst_drop (i : Invocation) : i.drop.1 = i.admissions.map (.report · .release) := by
  simp only [drop, admissions]
  induction i.attemptListeners with
  | nil => rfl
  | cons x xs ih =>
    rw [List.flatMap_cons, ih]
    cases x <;> rfl

theorem reports_drop (i : Invocation) :
    i.drop.1.filterMap Signal.report? = i.admissions.map (·, .release) :=
  Listener.reports_flatMap (by rintro (_ | _) <;> rfl) _

theorem reports_onForward (i : Invocation) (e : Endpoint) :
    (i.onForward e).filterMap Signal.report? = [] := by
  apply List.filterMap_eq_nil_iff.2
  intro s hs
  obtain ⟨x, -, hx⟩ := List.mem_flatMap.1 hs
  cases x with
  | observer name =>
    obtain rfl := List.mem_singleton.1 hx
    rfl
  | admission => cases hx

theorem reports_onSuccess (i : Invocation) (e : Endpoint) (response : Response) :
    (i.onSuccess e response).1.filterMap Signal.report? = i.admissions.map (·, .success) := by
  rw [← filterMap_listeners]
  exact Listener.reports_flatMap (by rintro (_ | _) <;> rfl) _

theorem reports_onFailure (i : Invocation) (e : Option Endpoint) (f : Failure) :
    (i.onFailure e f).1.filterMap Signal.report? = i.admissions.map (·, f.report) := by
  rw [← filterMap_listeners]
  exact Listener.reports_flatMap (by rintro (_ | _) <;> rfl) _

end Invocation

/-! ### Dialogues that settle -/

structure Invocation.Holds (i : Invocation) (l : Option Pending) : Prop where
  admissions : i.admissions = l.toList.map (·.breaker)
  undecided : ∀ p, l = some p → p.outcome = none

/-- An invocation at hand has an open admission only if its call was broken off. -/
structure Invocation.Rests (i : Invocation) (l : Option Pending) : Prop extends i.Holds l where
  left : ∀ p, l = some p → p.left = true

theorem Invocation.rests_none {i : Invocation} (h : i.admissions = []) : i.Rests none :=
  ⟨⟨h, by simp⟩, by simp⟩

def Question.Settles : Question → Option Pending → Prop
  | .context (.select _ _), l => l = none
  | .tell (.report b r), l => ∃ p, l = some p ∧ b = p.breaker ∧ r = p.due
  | .cluster (.route i), l => i.Holds l
  | .cluster (.invoke i _), l => i.Holds l
  | .sleep i _, l => i.Holds l
  | _, _ => True

def Event.ledger : Event → Option Pending → Option Pending
  | ⟨.context (.select _ _), .ok (_, some b)⟩, _ => some { breaker := b }
  | ⟨.tell (.report _ _), _⟩, _ => none
  | ⟨.cluster (.invoke _ _), a⟩, l => l.map ({ · with outcome := some a })
  | _, l => l

namespace Dialogue

variable {α β : Type}

/-- The ledger goes on without a breach, whatever is answered, to one that is as it should be. -/
def Settles (post : α → Option Pending → Prop) : Dialogue α → Option Pending → Prop
  | .done a, l => post a l
  | .ask q next, l => q.Settles l ∧ ∀ a, (next a).Settles post (Event.ledger ⟨q, a⟩ l)

theorem Settles.mono {post post' : α → Option Pending → Prop} {d : Dialogue α}
    {l : Option Pending} (h : d.Settles post l) (hpost : ∀ a l, post a l → post' a l) :
    d.Settles post' l := by
  induction d generalizing l with
  | done a => exact hpost a l h
  | ask q next ih => exact ⟨h.1, fun a => ih a (h.2 a)⟩

theorem settles_bind_iff {post : β → Option Pending → Prop} {d : Dialogue α}
    {f : α → Dialogue β} {l : Option Pending} :
    (d >>= f).Settles post l ↔ d.Settles (fun a l => (f a).Settles post l) l := by
  induction d generalizing l with
  | done a => rfl
  | ask q next ih => simp only [ask_bind, Settles, ih]

end Dialogue

namespace Conduct

variable {α β : Type}

def Settles (post : α → Invocation → Option Pending → Prop) (c : Conduct α) (i : Invocation)
    (l : Option Pending) : Prop :=
  (c.run i).Settles (fun a => post a.1 a.2) l

variable {i : Invocation} {l : Option Pending} {post : β → Invocation → Option Pending → Prop}

@[simp] theorem settles_pure_iff {b : β} : Settles post (pure b) i l ↔ post b i l := Iff.rfl

theorem settles_bind_iff {c : Conduct α} {f : α → Conduct β} :
    Settles post (c >>= f) i l ↔ Settles (fun a i l => Settles post (f a) i l) c i l := by
  simp [Settles, Dialogue.settles_bind_iff]

theorem Settles.mono {post' : β → Invocation → Option Pending → Prop} {c : Conduct β}
    (h : Settles post c i l) (hpost : ∀ b j l, post b j l → post' b j l) : Settles post' c i l :=
  Dialogue.Settles.mono h fun a l => hpost a.1 a.2 l

@[simp] theorem settles_get_bind_iff {f : Invocation → Conduct β} :
    Settles post (get >>= f) i l ↔ Settles post (f i) i l :=
  Iff.rfl

@[simp] theorem settles_modify_bind_iff {g : Invocation → Invocation} {f : PUnit → Conduct β} :
    Settles post (modify g >>= f) i l ↔ Settles post (f ⟨⟩) (g i) l :=
  Iff.rfl

@[simp] theorem settles_modifyGet_bind_iff {g : Invocation → α × Invocation}
    {f : α → Conduct β} :
    Settles post (modifyGet g >>= f) i l ↔ Settles post (f (g i).1) (g i).2 l :=
  Iff.rfl

@[simp] theorem settles_ask_bind_iff {q : Question} {f : q.Answer → Conduct β} :
    Settles post (bind (α := no_index q.Answer) (ask q) f) i l ↔
      q.Settles l ∧ ∀ a, Settles post (f a) i (Event.ledger ⟨q, a⟩ l) :=
  Iff.rfl

@[simp] theorem settles_askCluster_bind_iff {call : ClusterCall} {f : call.Answer → Conduct β} :
    Settles post (bind (α := no_index call.Answer) (askCluster call) f) i l ↔
      (Question.cluster call).Settles l ∧
        ∀ a, Settles post (f a) i (Event.ledger (.cluster call a) l) :=
  Iff.rfl

@[simp] theorem settles_askContext_bind_iff {call : ContextCall} {f : call.Answer → Conduct β} :
    Settles post (bind (α := no_index call.Answer) (askContext call) f) i l ↔
      (Question.context call).Settles l ∧
        ∀ a, Settles post (f a) i (Event.ledger (.context call a) l) :=
  Iff.rfl

theorem settles_tell_of_silent {signals : List Signal} {f : PUnit → Conduct β}
    (h : signals.filterMap Signal.report? = []) (hf : Settles post (f ⟨⟩) i l) :
    Settles post (tell signals >>= f) i l := by
  induction signals with
  | nil => exact hf
  | cons s signals ih =>
    apply (settles_ask_bind_iff (q := .tell s) (f := fun _ => tell signals >>= f)).2
    cases s with
    | report => simp [Signal.report?] at h
    | _ => exact ⟨trivial, fun _ => ih (by simpa [Signal.report?] using h)⟩

theorem settles_tell_of_due {signals : List Signal} {f : PUnit → Conduct β}
    (h : signals.filterMap Signal.report? = l.toList.map fun p => (p.breaker, p.due))
    (hf : Settles post (f ⟨⟩) i none) : Settles post (tell signals >>= f) i l := by
  induction signals with
  | nil =>
    rcases l with _ | p
    · exact hf
    · cases h
  | cons s signals ih =>
    apply (settles_ask_bind_iff (q := .tell s) (f := fun _ => tell signals >>= f)).2
    cases s with
    | report b r =>
      rcases l with _ | p
      · simp [Signal.report?] at h
      · obtain ⟨⟨rfl, rfl⟩, hrest⟩ : (b = p.breaker ∧ r = p.due) ∧
            signals.filterMap Signal.report? = [] := by
          simpa [Signal.report?] using h
        exact ⟨⟨p, rfl, rfl, rfl⟩, fun _ => settles_tell_of_silent (by simpa using hrest) hf⟩
    | _ => exact ⟨trivial, fun _ => ih (by simpa [List.filterMap_cons, Signal.report?] using h)⟩

/-! ### The parts of an invocation -/

def Clears (c : Conduct α) (i : Invocation) (l : Option Pending) : Prop :=
  Settles (fun _ j l => j.admissions = [] ∧ l = none) c i l

theorem Clears.bind {c : Conduct α} {f : α → Conduct β} (hc : Clears c i l)
    (hf : ∀ a j, j.admissions = [] → Settles post (f a) j none) : Settles post (c >>= f) i l := by
  apply settles_bind_iff.2
  refine hc.mono ?_
  rintro a j _ ⟨hj, rfl⟩
  exact hf a j hj

theorem reports_due {r : Report} (h : i.admissions = l.toList.map (·.breaker))
    (hdue : ∀ p, l = some p → p.due = r) :
    i.admissions.map (·, r) = l.toList.map fun p => (p.breaker, p.due) := by
  rw [h]
  cases l with
  | none => rfl
  | some p => simp [hdue p rfl]

theorem clears_succeed {e : Endpoint} {response : Response}
    (h : i.admissions = l.toList.map (·.breaker)) (hdue : ∀ p, l = some p → p.due = .success) :
    Clears (succeed e response) i l := by
  rw [Clears, succeed, settles_modifyGet_bind_iff]
  apply settles_tell_of_due
  · rw [Invocation.reports_onSuccess, reports_due h hdue]
  · exact ⟨trivial, fun _ => ⟨rfl, rfl⟩⟩

theorem clears_fail {e : Option Endpoint} {f : Failure}
    (h : i.admissions = l.toList.map (·.breaker)) (hdue : ∀ p, l = some p → p.due = f.report) :
    Clears (fail e f) i l := by
  rw [Clears, fail, settles_modifyGet_bind_iff]
  apply settles_tell_of_due
  · rw [Invocation.reports_onFailure, reports_due h hdue]
  · rw [settles_get_bind_iff, settles_askCluster_bind_iff]
    refine ⟨trivial, fun response => ?_⟩
    cases response.failure? with
    | none => exact settles_pure_iff.2 ⟨rfl, rfl⟩
    | some f =>
      exact settles_askCluster_bind_iff.2 ⟨trivial, fun _ => settles_pure_iff.2 ⟨rfl, rfl⟩⟩

theorem clears_fail_none {e : Option Endpoint} {f : Failure} (h : i.admissions = []) :
    Clears (fail e f) i none :=
  clears_fail h (by simp)

theorem clears_dispatch {e : Endpoint} (h : i.Holds l) : Clears (dispatch e) i l := by
  rw [Clears, dispatch, settles_get_bind_iff]
  apply settles_tell_of_silent (i.reports_onForward e)
  simp only [settles_askCluster_bind_iff, settles_get_bind_iff]
  refine ⟨trivial, fun _ => ⟨h, fun answer => ?_⟩⟩
  let l' := l.map ({ · with outcome := some answer })
  have hadm : i.admissions = l'.toList.map (·.breaker) := by
    rw [h.admissions]
    cases l <;> rfl
  have hout : ∀ p, l' = some p → p.due = dispatchReport answer := by
    intro p hp
    obtain ⟨p, -, rfl⟩ := Option.map_eq_some_iff.1 hp
    rfl
  rcases answer with f | reply | f
  · exact clears_fail hadm hout
  · exact clears_succeed hadm hout
  · exact clears_fail hadm hout

theorem clears_select {found : List Endpoint} (h : i.admissions = []) :
    Clears (select found) i none := by
  rw [Clears, select, settles_get_bind_iff, settles_askContext_bind_iff]
  refine ⟨rfl, fun answer => ?_⟩
  rcases answer with (r | service | f) | ⟨e, _ | b⟩
  · exact settles_askCluster_bind_iff.2 ⟨trivial, fun _ => clears_fail_none h⟩
  · exact settles_askCluster_bind_iff.2 ⟨trivial, fun _ => clears_fail_none h⟩
  · exact clears_fail_none h
  · exact clears_dispatch ⟨h, by simp [Event.ledger, Event.context]⟩
  · apply settles_modify_bind_iff.2
    apply clears_dispatch
    refine ⟨?_, ?_⟩
    · rw [Invocation.admissions_addAttemptListener, h]
      rfl
    · rintro p ⟨⟩
      rfl

theorem clears_candidates (h : i.admissions = []) : Clears candidates i none := by
  rw [Clears, candidates, settles_get_bind_iff, settles_askContext_bind_iff]
  refine ⟨trivial, fun mode => ?_⟩
  split
  · exact settles_pure_iff.2 ⟨h, rfl⟩
  · apply settles_askCluster_bind_iff.2
    refine ⟨⟨h, by simp [Event.ledger, Event.context]⟩, fun answer => ?_⟩
    cases answer with
    | error f => exact settles_pure_iff.2 ⟨h, rfl⟩
    | ok found =>
      apply settles_modify_bind_iff.2
      rw [Invocation.snd_setInstances]
      exact settles_pure_iff.2 ⟨h, rfl⟩

theorem clears_attempt (h : i.Holds l) : Clears attempt i l := by
  rw [Clears, attempt, settles_modifyGet_bind_iff]
  -- What an earlier call left open is given back before anything is asked.
  apply settles_tell_of_due
  · change i.drop.1.filterMap Signal.report? = _
    rw [i.reports_drop, reports_due h.admissions]
    intro p hp
    simp [Pending.due, h.undecided p hp]
  · apply (clears_candidates rfl).bind
    intro found j hj
    rcases found with f | ⟨_ | ⟨e, rest⟩⟩
    · exact clears_fail_none hj
    · apply settles_get_bind_iff.2
      exact settles_askCluster_bind_iff.2 ⟨trivial, fun _ => clears_fail_none hj⟩
    · exact clears_select hj

theorem Clears.rests {c : Conduct α} (h : Clears c i l) :
    Settles (fun _ => Invocation.Rests) c i l := by
  refine h.mono ?_
  rintro _ j _ ⟨hj, rfl⟩
  exact Invocation.rests_none hj

theorem settles_start {policy : Option ServicePolicy} (h : i.Rests l) :
    Settles (fun _ => Invocation.Rests) (start policy) i l := by
  have hj : (i.setDefaultPolicy policy).Rests l := ⟨⟨h.admissions, h.undecided⟩, h.left⟩
  rw [start, settles_modify_bind_iff, settles_get_bind_iff, settles_askCluster_bind_iff]
  refine ⟨trivial, fun _ => settles_askContext_bind_iff.2 ⟨trivial, fun r => ?_⟩⟩
  split
  · exact settles_pure_iff.2 hj
  · apply settles_askCluster_bind_iff.2
    refine ⟨trivial, fun f => ?_⟩
    cases f with
    | none => exact settles_pure_iff.2 hj
    | some f => exact settles_askCluster_bind_iff.2 ⟨trivial, fun _ => settles_pure_iff.2 hj⟩

end Conduct

def Monitor.ofLedger : Monitor (Option Pending) where
  allows l q := q.Settles l
  after l e := e.ledger l

theorem Dialogue.settles_iff_passes {α : Type} {post : α → Option Pending → Prop} {d : Dialogue α}
    {l : Option Pending} : d.Settles post l ↔ d.Passes .ofLedger post l := by
  induction d generalizing l with
  | done a => rfl
  | ask q next ih =>
    simp only [Settles, Passes, ih]
    rfl

theorem Monitor.keeps_rests : ofLedger.Keeps Invocation.Rests where
  attempt h := Dialogue.settles_iff_passes.1 (Conduct.clears_attempt h.toHolds).rests
  pause _ h := ⟨h.toHolds, h⟩
  respond _ h := ⟨trivial, fun _ => h⟩

theorem Engine.BuiltIn.settles_execute {engine : Engine} (h : engine.BuiltIn) {i : Invocation}
    {l : Option Pending} (hi : i.Rests l) :
    (engine.execute i).Settles (fun a => a.2.Rests) l := by
  apply Dialogue.settles_iff_passes.2
  exact h.passes Monitor.keeps_rests
    (Dialogue.settles_iff_passes.1 (Conduct.settles_start hi))

end Turnpike
