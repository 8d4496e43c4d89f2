import Turnpike.Proofs.Engines
import Turnpike.Proofs.HookProtocol

/-!
Dialogues that are watched. A monitor follows what is asked and answered, and says what may be
asked next. The one here sees to it that all of a call is for one request under one policy, and
that a selection which finds an endpoint is followed by nothing but the start of the dispatch to it.
-/

namespace Turnpike

structure Monitor (σ : Type) where
  allows : σ → Question → Prop
  after : σ → Event → σ

namespace Dialogue

variable {α β σ : Type} {m : Monitor σ} {s : σ}

def Passes (m : Monitor σ) (post : α → σ → Prop) : Dialogue α → σ → Prop
  | .done a, s => post a s
  | .ask q next, s => m.allows s q ∧ ∀ a, (next a).Passes m post (m.after s ⟨q, a⟩)

theorem Passes.mono {post post' : α → σ → Prop} {d : Dialogue α} (h : d.Passes m post s)
    (hpost : ∀ a s, post a s → post' a s) : d.Passes m post' s := by
  induction d generalizing s with
  | done a => exact hpost a s h
  | ask q next ih => exact ⟨h.1, fun a => ih a (h.2 a)⟩

theorem passes_bind_iff {post : β → σ → Prop} {d : Dialogue α} {f : α → Dialogue β} :
    (d >>= f).Passes m post s ↔ d.Passes m (fun a s => (f a).Passes m post s) s := by
  induction d generalizing s with
  | done a => rfl
  | ask q next ih => simp only [ask_bind, Passes, ih]

end Dialogue

namespace Conduct

variable {α β σ : Type}

def Passes (m : Monitor σ) (post : α → Invocation → σ → Prop) (c : Conduct α) (i : Invocation)
    (s : σ) : Prop :=
  (c.run i).Passes m (fun a => post a.1 a.2) s

variable {m : Monitor σ} {i : Invocation} {s : σ} {post : β → Invocation → σ → Prop}

@[simp] theorem passes_pure_iff {b : β} : Passes m post (pure b) i s ↔ post b i s := Iff.rfl

theorem passes_bind_iff {c : Conduct α} {f : α → Conduct β} :
    Passes m post (c >>= f) i s ↔ Passes m (fun a i s => Passes m post (f a) i s) c i s := by
  simp [Passes, Dialogue.passes_bind_iff]

theorem Passes.mono {post' : β → Invocation → σ → Prop} {c : Conduct β}
    (h : Passes m post c i s) (hpost : ∀ b j s, post b j s → post' b j s) :
    Passes m post' c i s :=
  Dialogue.Passes.mono h fun a s => hpost a.1 a.2 s

@[simp] theorem passes_get_bind_iff {f : Invocation → Conduct β} :
    Passes m post (get >>= f) i s ↔ Passes m post (f i) i s :=
  Iff.rfl

@[simp] theorem passes_modify_bind_iff {g : Invocation → Invocation} {f : PUnit → Conduct β} :
    Passes m post (modify g >>= f) i s ↔ Passes m post (f ⟨⟩) (g i) s :=
  Iff.rfl

@[simp] theorem passes_modifyGet_bind_iff {g : Invocation → α × Invocation}
    {f : α → Conduct β} :
    Passes m post (modifyGet g >>= f) i s ↔ Passes m post (f (g i).1) (g i).2 s :=
  Iff.rfl

@[simp] theorem passes_ask_bind_iff {q : Question} {f : q.Answer → Conduct β} :
    Passes m post (bind (α := no_index q.Answer) (ask q) f) i s ↔
      m.allows s q ∧ ∀ a, Passes m post (f a) i (m.after s ⟨q, a⟩) :=
  Iff.rfl

@[simp] theorem passes_askCluster_bind_iff {call : ClusterCall} {f : call.Answer → Conduct β} :
    Passes m post (bind (α := no_index call.Answer) (askCluster call) f) i s ↔
      m.allows s (.cluster call) ∧ ∀ a, Passes m post (f a) i (m.after s (.cluster call a)) :=
  Iff.rfl

@[simp] theorem passes_askContext_bind_iff {call : ContextCall} {f : call.Answer → Conduct β} :
    Passes m post (bind (α := no_index call.Answer) (askContext call) f) i s ↔
      m.allows s (.context call) ∧ ∀ a, Passes m post (f a) i (m.after s (.context call a)) :=
  Iff.rfl

theorem passes_tell {signals : List Signal} {f : PUnit → Conduct β}
    (h : ∀ x ∈ signals, m.allows s (.tell x) ∧ m.after s ⟨.tell x, ()⟩ = s)
    (hf : Passes m post (f ⟨⟩) i s) : Passes m post (tell signals >>= f) i s := by
  induction signals with
  | nil => exact hf
  | cons x signals ih =>
    apply (passes_ask_bind_iff (q := .tell x) (f := fun _ => tell signals >>= f)).2
    obtain ⟨hx, hrest⟩ := List.forall_mem_cons.1 h
    refine ⟨hx.1, fun _ => ?_⟩
    rw [hx.2]
    exact ih hrest

end Conduct

/-! ### What invokers keep -/

/-- What holds after each attempt and after what is asked in between. -/
structure Monitor.Keeps {σ : Type} (m : Monitor σ) (I : Invocation → σ → Prop) : Prop where
  attempt : ∀ {i s}, I i s → Conduct.Passes m (fun _ => I) Conduct.attempt i s
  pause : ∀ {i s} ms, I i s → m.allows s (.sleep i ms) ∧ I i (m.after s ⟨.sleep i ms, ()⟩)
  respond : ∀ {i s} f, I i s → m.allows s (.cluster (.createResponse f i.request none)) ∧
    ∀ a, I i (m.after s (.cluster (.createResponse f i.request none) a))

namespace Monitor.Keeps

open Conduct

variable {α σ : Type} {m : Monitor σ} {I : Invocation → σ → Prop} {i : Invocation} {s : σ}

theorem single (hm : m.Keeps I) (h : I i s) :
    Passes m (fun _ => I) (do return (← Conduct.attempt).response) i s :=
  passes_bind_iff.2 (hm.attempt h)

theorem paused (hm : m.Keeps I) (h : I i s) (ms : Nat) {c : Retried α} {last : Option Response}
    (hc : ∀ s, I i s → Passes m (fun _ => I) (c.run last) i s) :
    Passes m (fun _ => I) ((do
      if ms ≠ 0 then Invoker.pause ms
      c : Retried α).run last) i s := by
  rw [run_pause_bind]
  split
  · exact hc s h
  · obtain ⟨hallows, hlater⟩ := hm.pause ms h
    exact ⟨hallows, fun _ => hc _ hlater⟩

theorem runFrom (hm : m.Keeps I) (h : I i s) {r : Retrier} {idempotent : Bool} {k : Nat}
    {last : Option Response} :
    Passes m (fun _ => I)
      ((r.runFrom (pure idempotent) Invoker.retriedAttempt Invoker.pause k).run last) i s := by
  -- On the attempts that the retry rule has left.
  induction hn : r.policy.maxAttempts.toNat - k using Nat.strongRecOn generalizing k i s last with
  | ind n ih =>
    rw [Retrier.runFrom_pure, run_retriedAttempt_bind]
    refine passes_bind_iff.2 ((hm.attempt h).mono fun o j s hj => ?_)
    cases hf : o.failure with
    | none =>
      simp only [AttemptOutcome.result, hf]
      exact passes_pure_iff.2 hj
    | some f =>
      simp only [AttemptOutcome.result, hf]
      cases hg : r.again idempotent k f with
      | none => exact passes_pure_iff.2 hj
      | some ms =>
        have hlt := Retrier.lt_of_again_eq_some hg
        exact hm.paused hj ms fun _ hj => ih _ (by omega) hj rfl

theorem underRetry (hm : m.Keeps I) (h : I i s) {schedule : Schedule} {retry : RetryPolicy} :
    Passes m (fun _ => I) (Invoker.underRetry schedule.runner retry) i s := by
  apply passes_get_bind_iff.2
  refine passes_bind_iff.2 ((hm.runFrom h).mono ?_)
  rintro ⟨outcome, last⟩ j s hj
  cases last with
  | none =>
    apply passes_get_bind_iff.2
    exact hm.respond _ hj
  | some response => exact passes_pure_iff.2 hj

variable {stored : Option ServicePolicy}

theorem gated (hstart : Passes m (fun _ => I) (start stored) i s) {c : Conduct Response}
    (hc : ∀ j s, I j s → Passes m (fun _ => I) c j s) :
    Passes m (fun _ => I)
      (do match ← start stored with
        | some response => return response
        | none => c : Conduct Response) i s := by
  refine passes_bind_iff.2 (hstart.mono ?_)
  rintro (_ | response) j s hj
  · exact hc j s hj
  · exact passes_pure_iff.2 hj

theorem failfast (hm : m.Keeps I) (hstart : Passes m (fun _ => I) (start stored) i s) :
    Passes m (fun _ => I) (Invoker.failfast.execute stored) i s :=
  gated hstart fun _ _ => hm.single

theorem failover (hm : m.Keeps I) (hstart : Passes m (fun _ => I) (start stored) i s)
    {schedule : Schedule} :
    Passes m (fun _ => I) ((Invoker.failover schedule.runner).execute stored) i s := by
  apply gated hstart
  intro j s hj
  apply passes_get_bind_iff.2
  cases j.policy.bind (·.retry) with
  | none => exact hm.single hj
  | some retry => exact hm.underRetry hj

end Monitor.Keeps

/-- What attempts keep, a call keeps, however often it is attempted. -/
theorem Engine.BuiltIn.passes {σ : Type} {m : Monitor σ} {I : Invocation → σ → Prop}
    {engine : Engine} {i : Invocation} {s : σ} (h : engine.BuiltIn) (hm : m.Keeps I)
    (hstart : Conduct.Passes m (fun _ => I) (Conduct.start (engine.policies.get? i.service)) i s) :
    (engine.execute i).Passes m (fun a s => I a.2 s) s := by
  rcases h.invokerFor (i.policy <|> engine.policies.get? i.service) with hf | ⟨schedule, hf⟩
  · simp only [execute, hf]
    exact hm.failfast hstart
  · simp only [execute, hf]
    exact hm.failover hstart

/-! ### The course of a call -/

def Question.invocation? : Question → Option Invocation
  | .cluster (.route i) | .cluster (.invoke i _) | .context (.routingMode i)
  | .context (.select i _) | .sleep i _ => some i
  | _ => none

def Question.isDispatching : Question → Bool
  | .tell (.forward _ _) | .cluster (.startRequest _ _) | .cluster (.invoke _ _) => true
  | _ => false

structure Invocation.Carries (i : Invocation) (request : OutboundRequest)
    (policy : Option ServicePolicy) : Prop where
  request : i.request = request
  policy : i.policy = policy

def Monitor.ofCall (request : OutboundRequest) (policy : Option ServicePolicy) : Monitor Bool where
  allows chosen q :=
    q.isDispatching = chosen ∧ ∀ i, q.invocation? = some i → i.Carries request policy
  after
    | _, ⟨.context (.select _ _), .ok _⟩ => true
    | _, ⟨.cluster (.invoke _ _), _⟩ => false
    | chosen, _ => chosen

namespace Invocation

variable {i : Invocation} {x : Signal}

theorem isDispatching_onForward {e : Endpoint} (h : x ∈ i.onForward e) :
    (Question.tell x).isDispatching = true := by
  obtain ⟨y, -, hy⟩ := List.mem_flatMap.1 h
  cases y with
  | observer name =>
    obtain rfl := List.mem_singleton.1 hy
    rfl
  | admission => cases hy

theorem isDispatching_drop (h : x ∈ i.drop.1) : (Question.tell x).isDispatching = false := by
  obtain ⟨y, -, hy⟩ := List.mem_flatMap.1 h
  cases y with
  | observer => cases hy
  | admission =>
    obtain rfl := List.mem_singleton.1 hy
    rfl

theorem isDispatching_onSuccess {e : Endpoint} {response : Response}
    (h : x ∈ (i.onSuccess e response).1) : (Question.tell x).isDispatching = false := by
  obtain ⟨y, -, hy⟩ := List.mem_flatMap.1 h
  cases y <;>
  · obtain rfl := List.mem_singleton.1 hy
    rfl

theorem isDispatching_onFailure {e : Option Endpoint} {f : Failure}
    (h : x ∈ (i.onFailure e f).1) : (Question.tell x).isDispatching = false := by
  obtain ⟨y, -, hy⟩ := List.mem_flatMap.1 h
  cases y <;>
  · obtain rfl := List.mem_singleton.1 hy
    rfl

variable {request : OutboundRequest} {policy : Option ServicePolicy}

theorem Carries.onFailure (h : i.Carries request policy) (e : Option Endpoint) (f : Failure) :
    (i.onFailure e f).2.Carries request policy := by
  refine ⟨(i.request_onFailure e f).trans h.request, ?_⟩
  exact (congrArg (·.policy) (i.markFailed_eq e)).trans h.policy

theorem Carries.setInstances (h : i.Carries request policy) (es : List Endpoint) :
    (i.setInstances es).2.Carries request policy := by
  rw [snd_setInstances]
  exact ⟨h.request, h.policy⟩

end Invocation

namespace Conduct

variable {α β : Type} {request : OutboundRequest} {policy : Option ServicePolicy} {i : Invocation}
  {chosen : Bool}

def Proceeds (request : OutboundRequest) (policy : Option ServicePolicy) (c : Conduct α)
    (i : Invocation) (chosen : Bool) : Prop :=
  Passes (.ofCall request policy) (fun _ j chosen => j.Carries request policy ∧ chosen = false)
    c i chosen

theorem Proceeds.bind {c : Conduct α} {f : α → Conduct β}
    (h : Proceeds request policy c i chosen)
    (hf : ∀ a j, j.Carries request policy → Proceeds request policy (f a) j false) :
    Proceeds request policy (c >>= f) i chosen := by
  apply passes_bind_iff.2
  refine h.mono ?_
  rintro a j _ ⟨hj, rfl⟩
  exact hf a j hj

theorem proceeds_pure {a : α} (h : i.Carries request policy) :
    Proceeds request policy (pure a) i false :=
  ⟨h, rfl⟩

theorem proceeds_hook {call : ClusterCall} {f : call.Answer → Conduct α}
    (hcall : (Question.cluster call).isDispatching = false)
    (hnone : (Question.cluster call).invocation? = none)
    (hf : ∀ a, Proceeds request policy (f a) i false) :
    Proceeds request policy (bind (α := no_index call.Answer) (askCluster call) f) i false := by
  refine passes_askCluster_bind_iff.2 ⟨⟨hcall, by simp [hnone]⟩, fun a => ?_⟩
  cases call with
  | route | invoke => cases hnone
  | _ => exact hf a

theorem proceeds_tell {signals : List Signal} {f : PUnit → Conduct α}
    (h : ∀ x ∈ signals, (Question.tell x).isDispatching = chosen)
    (hf : Proceeds request policy (f ⟨⟩) i chosen) :
    Proceeds request policy (tell signals >>= f) i chosen :=
  passes_tell (fun x hx => ⟨⟨h x hx, by simp [Question.invocation?]⟩, rfl⟩) hf

theorem proceeds_succeed {e : Endpoint} {response : Response} (h : i.Carries request policy) :
    Proceeds request policy (succeed e response) i false := by
  rw [Proceeds, succeed, passes_modifyGet_bind_iff]
  apply proceeds_tell fun _ => Invocation.isDispatching_onSuccess
  apply passes_get_bind_iff.2
  exact proceeds_hook rfl rfl fun _ => proceeds_pure ⟨h.request, h.policy⟩

theorem proceeds_fail {e : Option Endpoint} {f : Failure} (h : i.Carries request policy) :
    Proceeds request policy (fail e f) i false := by
  rw [Proceeds, fail, passes_modifyGet_bind_iff]
  apply proceeds_tell fun _ => Invocation.isDispatching_onFailure
  apply passes_get_bind_iff.2
  apply proceeds_hook rfl rfl
  intro response
  cases response.failure? with
  | none => exact proceeds_pure (h.onFailure e f)
  | some f' => exact proceeds_hook rfl rfl fun _ => proceeds_pure (h.onFailure e f)

theorem proceeds_dispatch {e : Endpoint} (h : i.Carries request policy) :
    Proceeds request policy (dispatch e) i true := by
  rw [Proceeds, dispatch, passes_get_bind_iff]
  apply proceeds_tell fun _ => Invocation.isDispatching_onForward
  apply passes_get_bind_iff.2
  refine passes_askCluster_bind_iff.2 ⟨⟨rfl, by simp [Question.invocation?]⟩, fun _ => ?_⟩
  apply passes_get_bind_iff.2
  refine passes_askCluster_bind_iff.2 ⟨⟨rfl, ?_⟩, fun answer => ?_⟩
  · rintro _ ⟨⟩
    exact h
  · rcases answer with f | reply | f
    · exact proceeds_fail h
    · exact proceeds_succeed h
    · exact proceeds_fail h

theorem proceeds_select {found : List Endpoint} (h : i.Carries request policy) :
    Proceeds request policy (select found) i false := by
  rw [Proceeds, select, passes_get_bind_iff]
  refine passes_askContext_bind_iff.2 ⟨⟨rfl, ?_⟩, fun answer => ?_⟩
  · rintro _ ⟨⟩
    exact h
  · rcases answer with (r | service | f) | ⟨e, _ | b⟩
    · exact proceeds_hook rfl rfl fun _ => proceeds_fail h
    · exact proceeds_hook rfl rfl fun _ => proceeds_fail h
    · exact proceeds_fail h
    · exact proceeds_dispatch h
    · apply passes_modify_bind_iff.2
      exact proceeds_dispatch ⟨h.request, h.policy⟩

theorem proceeds_candidates (h : i.Carries request policy) :
    Proceeds request policy candidates i false := by
  rw [Proceeds, candidates, passes_get_bind_iff]
  refine passes_askContext_bind_iff.2 ⟨⟨rfl, ?_⟩, fun mode => ?_⟩
  · rintro _ ⟨⟩
    exact h
  split
  · exact proceeds_pure h
  refine passes_askCluster_bind_iff.2 ⟨⟨rfl, ?_⟩, fun answer => ?_⟩
  · rintro _ ⟨⟩
    exact h
  cases answer with
  | error f => exact proceeds_pure h
  | ok found =>
    apply passes_modify_bind_iff.2
    exact proceeds_pure (h.setInstances found)

theorem proceeds_attempt (h : i.Carries request policy) :
    Proceeds request policy attempt i false := by
  rw [Proceeds, attempt, passes_modifyGet_bind_iff]
  have hbegun : i.beginAttempt.2.Carries request policy := ⟨h.request, h.policy⟩
  apply proceeds_tell fun _ => Invocation.isDispatching_drop
  apply (proceeds_candidates hbegun).bind
  intro found j hj
  rcases found with f | ⟨_ | ⟨e, rest⟩⟩
  · exact proceeds_fail hj
  · apply passes_get_bind_iff.2
    exact proceeds_hook rfl rfl fun _ => proceeds_fail hj
  · exact proceeds_select hj

theorem proceeds_start {stored : Option ServicePolicy} :
    Proceeds i.request (i.policy <|> stored) (start stored) i false := by
  have h : (i.setDefaultPolicy stored).Carries i.request (i.policy <|> stored) := ⟨rfl, rfl⟩
  rw [Proceeds, start, passes_modify_bind_iff, passes_get_bind_iff]
  apply proceeds_hook rfl rfl
  intro _
  refine passes_askContext_bind_iff.2 ⟨⟨rfl, by simp [Question.invocation?]⟩, fun r => ?_⟩
  split
  · exact proceeds_pure h
  · apply proceeds_hook rfl rfl
    rintro (_ | f)
    · exact proceeds_pure h
    · exact proceeds_hook rfl rfl fun _ => proceeds_pure h

end Conduct

theorem Monitor.keeps_ofCall (request : OutboundRequest) (policy : Option ServicePolicy) :
    (ofCall request policy).Keeps fun i chosen =>
      i.Carries request policy ∧ chosen = false where
  attempt := by
    rintro i _ ⟨h, rfl⟩
    exact Conduct.proceeds_attempt h
  pause := by
    rintro i _ ms ⟨h, rfl⟩
    refine ⟨⟨rfl, ?_⟩, h, rfl⟩
    rintro _ ⟨⟩
    exact h
  respond := by
    rintro i _ f ⟨h, rfl⟩
    exact ⟨⟨rfl, by simp [Question.invocation?]⟩, fun _ => ⟨h, rfl⟩⟩

def Engine.attached (engine : Engine) (i : Invocation) : Option ServicePolicy :=
  i.policy <|> engine.policies.get? i.service

theorem Engine.BuiltIn.passes_ofCall {engine : Engine} (h : engine.BuiltIn) (i : Invocation) :
    (engine.execute i).Passes (.ofCall i.request (engine.attached i))
      (fun a chosen => a.2.Carries i.request (engine.attached i) ∧ chosen = false) false :=
  h.passes (Monitor.keeps_ofCall _ _) Conduct.proceeds_start

end Turnpike
