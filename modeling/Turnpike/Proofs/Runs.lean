import Turnpike.Invocation.Invoker

namespace Turnpike

structure Event where
  question : Question
  answer : question.Answer

namespace Event

def cluster (call : ClusterCall) (answer : call.Answer) : Event := ⟨.cluster call, answer⟩

def context (call : ContextCall) (answer : call.Answer) : Event := ⟨.context call, answer⟩

def told (signals : List Signal) : List Event := signals.map fun s => ⟨.tell s, ()⟩

def pause (i : Invocation) (ms : Nat) : List Event := if ms = 0 then [] else [⟨.sleep i ms, ()⟩]

@[simp] theorem told_nil : told [] = [] := rfl

@[simp] theorem told_cons (s : Signal) (signals : List Signal) :
    told (s :: signals) = ⟨.tell s, ()⟩ :: told signals := rfl

end Event

namespace Dialogue

variable {α β σ : Type}

inductive Runs : Dialogue α → List Event → α → Prop
  | done (a : α) : Runs (.done a) [] a
  | ask {q : Question} {next : q.Answer → Dialogue α} {a : q.Answer} {es : List Event} {b : α} :
    Runs (next a) es b → Runs (.ask q next) (⟨q, a⟩ :: es) b

@[simp] theorem runs_done_iff {a b : α} {es : List Event} :
    Runs (.done a) es b ↔ es = [] ∧ b = a := by
  constructor
  · intro h
    cases h
    exact ⟨rfl, rfl⟩
  · rintro ⟨rfl, rfl⟩
    exact .done b

@[simp] theorem runs_ask_iff {q : Question} {next : q.Answer → Dialogue α} {es : List Event}
    {b : α} : Runs (.ask q next) es b ↔ ∃ a es', Runs (next a) es' b ∧ es = ⟨q, a⟩ :: es' := by
  constructor
  · intro h
    cases h with
    | ask h => exact ⟨_, _, h, rfl⟩
  · rintro ⟨a, es', h, rfl⟩
    exact .ask h

theorem runs_bind_iff {d : Dialogue α} {f : α → Dialogue β} {es : List Event} {b : β} :
    Runs (d >>= f) es b ↔ ∃ a es₁ es₂, Runs d es₁ a ∧ Runs (f a) es₂ b ∧ es = es₁ ++ es₂ := by
  induction d generalizing es with
  | done a =>
    constructor
    · intro h
      exact ⟨a, [], es, .done a, h, rfl⟩
    · rintro ⟨_, _, _, h₁, h₂, rfl⟩
      cases h₁
      exact h₂
  | ask q next ih =>
    simp only [ask_bind, runs_ask_iff, ih]
    constructor
    · rintro ⟨c, _, ⟨a, es₁, es₂, h₁, h₂, rfl⟩, rfl⟩
      exact ⟨a, _, es₂, ⟨c, es₁, h₁, rfl⟩, h₂, rfl⟩
    · rintro ⟨a, _, es₂, ⟨c, es₁, h₁, rfl⟩, h₂, rfl⟩
      exact ⟨c, _, ⟨a, es₁, es₂, h₁, h₂, rfl⟩, rfl⟩

def record (answer : (q : Question) → σ → q.Answer × σ) : Dialogue α → σ → List Event × α × σ
  | .done a, s => ([], a, s)
  | .ask q next, s =>
    let (a, s) := answer q s
    let (es, r) := (next a).record answer s
    (⟨q, a⟩ :: es, r)

theorem runs_record (answer : (q : Question) → σ → q.Answer × σ) (d : Dialogue α) (s : σ) :
    d.Runs (d.record answer s).1 (d.record answer s).2.1 := by
  induction d generalizing s with
  | done a => exact .done a
  | ask q next ih => exact .ask (ih _ _)

theorem forall_mem_record (answer : (q : Question) → σ → q.Answer × σ) {I : σ → Prop}
    {P : Event → Prop} (h : ∀ q s, I s → P ⟨q, (answer q s).1⟩ ∧ I (answer q s).2)
    (d : Dialogue α) {s : σ} (hs : I s) : ∀ e ∈ (d.record answer s).1, P e := by
  induction d generalizing s with
  | done a => simp [record]
  | ask q next ih =>
    intro e he
    rcases List.mem_cons.1 he with rfl | he
    · exact (h q s hs).1
    · exact ih _ (h q s hs).2 e he

end Dialogue

namespace Conduct

variable {α β : Type}

def Runs (c : Conduct α) (i : Invocation) (es : List Event) (a : α) (j : Invocation) : Prop :=
  (c.run i).Runs es (a, j)

variable {i j : Invocation} {es : List Event} {b : β}

@[simp] theorem runs_pure_iff {a : α} {b : α} :
    Runs (pure a) i es b j ↔ es = [] ∧ b = a ∧ j = i := by
  simp [Runs]

theorem runs_bind_iff {c : Conduct α} {f : α → Conduct β} :
    Runs (c >>= f) i es b j ↔
      ∃ a k es₁ es₂, Runs c i es₁ a k ∧ Runs (f a) k es₂ b j ∧ es = es₁ ++ es₂ := by
  simp [Runs, Dialogue.runs_bind_iff]

@[simp] theorem runs_get_bind_iff {f : Invocation → Conduct β} :
    Runs (get >>= f) i es b j ↔ Runs (f i) i es b j :=
  Iff.rfl

@[simp] theorem runs_modify_bind_iff {g : Invocation → Invocation} {f : PUnit → Conduct β} :
    Runs (modify g >>= f) i es b j ↔ Runs (f ⟨⟩) (g i) es b j :=
  Iff.rfl

@[simp] theorem runs_modifyGet_bind_iff {g : Invocation → α × Invocation} {f : α → Conduct β} :
    Runs (modifyGet g >>= f) i es b j ↔ Runs (f (g i).1) (g i).2 es b j :=
  Iff.rfl

@[simp] theorem runs_ask_bind_iff {q : Question} {f : q.Answer → Conduct β} :
    Runs (bind (α := no_index q.Answer) (ask q) f) i es b j ↔
      ∃ a es', Runs (f a) i es' b j ∧ es = ⟨q, a⟩ :: es' :=
  Dialogue.runs_ask_iff

@[simp] theorem runs_askCluster_bind_iff {call : ClusterCall} {f : call.Answer → Conduct β} :
    Runs (bind (α := no_index call.Answer) (askCluster call) f) i es b j ↔
      ∃ a es', Runs (f a) i es' b j ∧ es = .cluster call a :: es' :=
  Dialogue.runs_ask_iff

@[simp] theorem runs_askContext_bind_iff {call : ContextCall} {f : call.Answer → Conduct β} :
    Runs (bind (α := no_index call.Answer) (askContext call) f) i es b j ↔
      ∃ a es', Runs (f a) i es' b j ∧ es = .context call a :: es' :=
  Dialogue.runs_ask_iff

@[simp] theorem runs_tell_bind_iff {signals : List Signal} {f : PUnit → Conduct β} :
    Runs (tell signals >>= f) i es b j ↔
      ∃ es', Runs (f ⟨⟩) i es' b j ∧ es = Event.told signals ++ es' := by
  induction signals generalizing es with
  | nil =>
    change Runs (f ⟨⟩) i es b j ↔ _
    simp
  | cons s signals ih =>
    refine (runs_ask_bind_iff (q := .tell s) (f := fun _ => tell signals >>= f)).trans ?_
    constructor
    · rintro ⟨_, _, h, rfl⟩
      obtain ⟨es', hf, rfl⟩ := ih.1 h
      exact ⟨es', hf, rfl⟩
    · rintro ⟨es', h, rfl⟩
      exact ⟨(), _, ih.2 ⟨es', h, rfl⟩, rfl⟩

end Conduct

end Turnpike
