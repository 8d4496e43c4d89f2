import Turnpike.Proofs.Fleet
import Turnpike.Proofs.Monitors

namespace Turnpike

/-! ### Steps along a list -/

inductive Along {σ α : Type} (R : σ → α → σ → Prop) : σ → List α → σ → Prop
  | nil {s : σ} : Along R s [] s
  | cons {s s' s'' : σ} {a : α} {as : List α} :
    R s a s' → Along R s' as s'' → Along R s (a :: as) s''

namespace Along

variable {σ α : Type} {R : σ → α → σ → Prop} {s s' s'' : σ} {a : α} {as bs : List α}

theorem single (h : R s a s') : Along R s [a] s' := .cons h .nil

theorem append (h : Along R s as s') (h' : Along R s' bs s'') : Along R s (as ++ bs) s'' := by
  induction h with
  | nil => exact h'
  | cons ha _ ih => exact .cons ha (ih h')

theorem exists_of_append (h : Along R s (as ++ bs) s'') :
    ∃ s', Along R s as s' ∧ Along R s' bs s'' := by
  induction as generalizing s with
  | nil => exact ⟨s, .nil, h⟩
  | cons a as ih =>
    cases h with
    | cons ha h =>
      obtain ⟨s', has, hbs⟩ := ih h
      exact ⟨s', .cons ha has, hbs⟩

theorem of_forall (h : ∀ a ∈ as, R s a s) : Along R s as s := by
  induction as with
  | nil => exact .nil
  | cons a as ih =>
    obtain ⟨ha, has⟩ := List.forall_mem_cons.1 h
    exact .cons ha (ih has)

end Along

/-! ### What is taken down -/

inductive PolicyStore.Changes (store : PolicyStore) : PolicyStore → Prop
  | published {next : PolicySnapshot} {store' : PolicyStore} : store.publish next = .ok store' →
    Changes store store'
  | updated {policy : ServicePolicy} {store' : PolicyStore} : store.update policy = .ok store' →
    Changes store store'
  | removed (service : String) : Changes store (store.remove service)

inductive Mark
  | stored (policies : PolicyStore)
  | called (n : Nat) (i : Invocation) (attached : Option ServicePolicy)
  | dispatched (n : Nat) (request : OutboundRequest)
  | entered (n : Nat) (entry : Entry)

namespace Mark

def owner? : Mark → Option Nat
  | .stored _ => none
  | .called n _ _ | .dispatched n _ | .entered n _ => some n

def ofOwner (n : Nat) (log : List Mark) : List Mark := log.filter (·.owner? = some n)

def call? : Mark → Option (Invocation × Option ServicePolicy)
  | .called _ i attached => some (i, attached)
  | _ => none

def latest? (n : Nat) (log : List Mark) : Option (Invocation × Option ServicePolicy) :=
  ((ofOwner n log).filterMap call?).getLast?

variable {n k : Nat} {log ms : List Mark} {m : Mark}

@[simp] theorem ofOwner_append (n : Nat) (log ms : List Mark) :
    ofOwner n (log ++ ms) = ofOwner n log ++ ofOwner n ms := by
  simp [ofOwner]

theorem ofOwner_of_forall (h : ∀ m ∈ ms, m.owner? = some n) : ofOwner n ms = ms :=
  List.filter_eq_self.2 fun m hm => decide_eq_true (h m hm)

theorem ofOwner_of_forall_ne (h : ∀ m ∈ ms, m.owner? ≠ some n) : ofOwner n ms = [] :=
  List.filter_eq_nil_iff.2 fun m hm hn => h m hm (of_decide_eq_true hn)

theorem latest?_called (n : Nat) (i : Invocation) (attached : Option ServicePolicy)
    (log : List Mark) : latest? n (log ++ [.called n i attached]) = some (i, attached) := by
  simp [latest?, ofOwner, owner?, call?]

theorem latest?_append (h : (ofOwner n ms).filterMap call? = []) :
    latest? n (log ++ ms) = latest? n log := by
  simp [latest?, h]

theorem called_mem_of_latest? {i : Invocation} {attached : Option ServicePolicy}
    (h : latest? n log = some (i, attached)) : .called n i attached ∈ log := by
  obtain ⟨m, hmem, hcall⟩ := List.mem_filterMap.1 (List.mem_of_getLast? h)
  obtain ⟨hlog, hn⟩ := List.mem_filter.1 hmem
  cases m <;> cases hcall
  obtain rfl := Option.some.inj (of_decide_eq_true hn)
  exact hlog

end Mark

/-! ### Depots -/

def Flight.arrival : Flight → List OutboundRequest
  | .running (.ask (.cluster (.invoke i _)) _) => [i.request]
  | _ => []

inductive Flight.Calls : Flight → Flight → Prop
  | begun (i : Invocation) (d : Dialogue (Response × Invocation)) : Calls (.held i) (.running d)

structure Depot (β : Type) where
  engine : Engine
  fleet : Fleet β

namespace Depot

variable {β : Type}

def fresh (engine : Engine) (g : Governance β) : Depot β := ⟨engine, ⟨g, fun _ => .absent⟩⟩

def store (d : Depot β) (policies : PolicyStore) : Depot β :=
  { d with engine := { d.engine with policies } }

def context (d : Depot β) : Governance β := d.fleet.context

def become (d : Depot β) (g : Governance β) : Depot β :=
  { d with fleet := { d.fleet with context := g } }

def put (d : Depot β) (n : Nat) (f : Flight) : Depot β := { d with fleet := d.fleet.put n f }

def marks (n : Nat) (es : List Entry) (f : Flight) : List Mark :=
  es.map (.entered n) ++ f.arrival.map (.dispatched n)

inductive Step [LoadBalancer β] : Depot β → List Mark → Depot β → Prop
  | store {d : Depot β} {policies : PolicyStore} : d.engine.policies.Changes policies →
    Step d [.stored policies] (d.store policies)
  | call {d : Depot β} (n : Nat) {i : Invocation} : d.fleet.flights n = .held i →
    Step d [.called n i (d.engine.attached i)] (d.put n (.running (d.engine.execute i)))
  | move {d : Depot β} (n : Nat) {es : List Entry} {f : Flight} {g : Governance β} :
    Fleet.Moves d.context (d.fleet.flights n) es f g → ¬ (d.fleet.flights n).Calls f →
    Step d (marks n es f) ((d.become g).put n f)
  | status {d : Depot β} (status : AppStatus) :
    Step d [] (d.become { d.context with readiness := { d.context.readiness with status } })
  | sweepLimiters {d : Depot β} (now : Nat) :
    Step d [] (d.become { d.context with limiters := (d.context.limiters.sweep now).2 })
  | sweepBreakers {d : Depot β} (now : Nat) :
    Step d [] (d.become { d.context with breakers := (d.context.breakers.sweep now).2 })

inductive Reaches [LoadBalancer β] (d₀ : Depot β) : List Mark → Depot β → Prop
  | start : Reaches d₀ [] d₀
  | step {log ms : List Mark} {d d' : Depot β} :
    Reaches d₀ log d → Step d ms d' → Reaches d₀ (log ++ ms) d'

variable [LoadBalancer β] {d₀ d d' : Depot β} {log log' ms : List Mark} {n : Nat}
  {g g' : Governance β} {f f' : Flight} {es : List Entry}

theorem Reaches.call (h : Reaches d₀ log d) (n : Nat) {engine : Engine} {i : Invocation}
    (he : d.engine = engine) (hf : d.fleet.flights n = .held i) :
    Reaches d₀ (log ++ [.called n i (engine.attached i)]) (d.put n (.running (engine.execute i))) :=
  .step h (he ▸ .call n hf)

theorem Reaches.move (h : Reaches d₀ log d) (n : Nat) (hg : d.context = g)
    (hf : d.fleet.flights n = f) (hm : Fleet.Moves g f es f' g') (hcalls : ¬ f.Calls f') :
    Reaches d₀ (log ++ marks n es f') ((d.become g').put n f') :=
  .step h (.move n (hg ▸ hf ▸ hm) (hf ▸ hcalls))

omit [LoadBalancer β] in
theorem ofOwner_marks (n : Nat) (es : List Entry) (f : Flight) :
    Mark.ofOwner n (marks n es f) = marks n es f := by
  apply Mark.ofOwner_of_forall
  intro m hm
  rcases List.mem_append.1 hm with hm | hm <;>
  · obtain ⟨_, -, rfl⟩ := List.mem_map.1 hm
    rfl

omit [LoadBalancer β] in
theorem ofOwner_marks_of_ne {k : Nat} (h : k ≠ n) (es : List Entry) (f : Flight) :
    Mark.ofOwner n (marks k es f) = [] := by
  apply Mark.ofOwner_of_forall_ne
  intro m hm
  rcases List.mem_append.1 hm with hm | hm <;>
  · obtain ⟨_, -, rfl⟩ := List.mem_map.1 hm
    simpa [Mark.owner?] using h

omit [LoadBalancer β] in
theorem filterMap_call?_marks (n : Nat) (es : List Entry) (f : Flight) :
    (marks n es f).filterMap Mark.call? = [] := by
  apply List.filterMap_eq_nil_iff.2
  intro m hm
  rcases List.mem_append.1 hm with hm | hm <;>
  · obtain ⟨_, -, rfl⟩ := List.mem_map.1 hm
    rfl

/-- What a step is for one owner: nothing, the beginning of a call, or a move of his. -/
inductive Affects (n : Nat) (d : Depot β) (ms : List Mark) (d' : Depot β) : Prop
  | no : d'.fleet.flights n = d.fleet.flights n → Mark.ofOwner n ms = [] → Affects n d ms d'
  | call {i : Invocation} : d.fleet.flights n = .held i →
    d'.fleet.flights n = .running (d.engine.execute i) →
    ms = [.called n i (d.engine.attached i)] → Affects n d ms d'
  | move {es : List Entry} {f : Flight} {g : Governance β} : d'.fleet.flights n = f →
    Fleet.Moves d.context (d.fleet.flights n) es f g → ¬ (d.fleet.flights n).Calls f →
    ms = marks n es f → Affects n d ms d'

theorem Step.affects (h : Step d ms d') (n : Nat) : Affects n d ms d' := by
  cases h with
  | store => exact .no rfl (Mark.ofOwner_of_forall_ne (by simp [Mark.owner?]))
  | status | sweepLimiters | sweepBreakers => exact .no rfl rfl
  | @call k i hheld =>
    by_cases hk : k = n
    · subst hk
      exact .call hheld (Fleet.flights_put_self ..) rfl
    · exact .no (Fleet.flights_put_of_ne (Ne.symm hk) ..)
        (Mark.ofOwner_of_forall_ne (by simpa [Mark.owner?] using hk))
  | @move k es f g hm hcalls =>
    by_cases hk : k = n
    · subst hk
      exact .move (Fleet.flights_put_self ..) hm hcalls rfl
    · exact .no (Fleet.flights_put_of_ne (Ne.symm hk) ..) (ofOwner_marks_of_ne hk es f)

end Depot

/-! ### The policies stay in force -/

namespace Governance

variable {β : Type} {g : Governance β}

theorem readiness_foldl_hear (now : Nat) (signals : List Signal) :
    (signals.foldl (·.hear now) g).readiness = g.readiness := by
  induction signals generalizing g with
  | nil => rfl
  | cons signal signals ih =>
    rw [List.foldl_cons, ih]
    cases signal <;> rfl

end Governance

namespace Depot

variable {β : Type} [LoadBalancer β] {d d' : Depot β} {g g' : Governance β} {engine : Engine}
  {log ms : List Mark} {f f' : Flight} {es : List Entry}

theorem readiness_of_moves (h : Fleet.Moves g f es f' g') : g'.readiness = g.readiness := by
  cases h with
  | enter | call | cluster | wake | finish | abandon => rfl
  | context _ ha => rw [ha.frame]
  | @tell signal => cases signal <;> rfl
  | drop now => exact Governance.readiness_foldl_hear now _

theorem Step.policy_eq (h : Step d ms d') :
    d'.context.readiness.policy = d.context.readiness.policy := by
  cases h with
  | store | call | status | sweepLimiters | sweepBreakers => rfl
  | move n hm _ => exact congrArg (·.policy) (readiness_of_moves hm)

theorem Step.builtIn (h : Step d ms d') (he : d.engine.BuiltIn) : d'.engine.BuiltIn := by
  cases h with
  | store =>
    obtain ⟨config, built, hbuilt, heq⟩ := he
    exact ⟨config, built, hbuilt, by rw [Depot.store, heq]⟩
  | call | move | status | sweepLimiters | sweepBreakers => exact he

theorem Reaches.governed {d₀ : Depot β} (h : Reaches d₀ log d) :
    d.context.readiness.governed = d₀.context.readiness.governed := by
  induction h with
  | start => rfl
  | step _ hstep ih =>
    rw [← ih]
    unfold Readiness.governed
    rw [hstep.policy_eq]

theorem Reaches.builtIn {d₀ : Depot β} (h : Reaches d₀ log d) (he : d₀.engine.BuiltIn) :
    d.engine.BuiltIn := by
  induction h with
  | start => exact he
  | step _ hstep ih => exact hstep.builtIn ih

end Depot

/-! ### Calls keep to what they began with -/

/-- Whatever is under way is what is left of the latest call. -/
def Flight.Watched (call : Option (Invocation × Option ServicePolicy)) : Flight → Prop
  | .running d => ∃ i attached, call = some (i, attached) ∧
      ∃ chosen, d.Passes (.ofCall i.request attached) (fun _ chosen => chosen = false) chosen
  | _ => True

namespace Depot

variable {β : Type} [LoadBalancer β] {d d' : Depot β} {g g' : Governance β} {engine : Engine}
  {log ms : List Mark} {n : Nat} {f f' : Flight} {es : List Entry}

theorem watched_of_moves (h : Fleet.Moves g f es f' g')
    {call : Option (Invocation × Option ServicePolicy)} (hcalls : ¬ f.Calls f')
    (hf : f.Watched call) : f'.Watched call := by
  cases h with
  | call => exact absurd (.begun ..) hcalls
  | enter | finish | abandon | drop => trivial
  | cluster a | context | tell | wake =>
    obtain ⟨i, attached, hcall, chosen, hp⟩ := hf
    exact ⟨i, attached, hcall, _, hp.2 _⟩

theorem Step.watched (h : Step d ms d') (he : d.engine.BuiltIn)
    (hf : (d.fleet.flights n).Watched (Mark.latest? n log)) :
    (d'.fleet.flights n).Watched (Mark.latest? n (log ++ ms)) := by
  cases h.affects n with
  | no hf' hms => rwa [hf', Mark.latest?_append (by rw [hms]; rfl)]
  | @call i _ hf' hms =>
    rw [hf', hms, Mark.latest?_called]
    exact ⟨i, _, rfl, false, (he.passes_ofCall i).mono fun _ _ h => h.2⟩
  | move hf' hm hcalls hms =>
    rw [hf', hms, Mark.latest?_append (by rw [ofOwner_marks, filterMap_call?_marks])]
    exact watched_of_moves hm hcalls hf

theorem Reaches.watched (h : Reaches (fresh engine g) log d) (he : engine.BuiltIn) (n : Nat) :
    (d.fleet.flights n).Watched (Mark.latest? n log) := by
  induction h with
  | start => trivial
  | step h hstep ih => exact hstep.watched (h.builtIn he) ih

end Depot

theorem Flight.Watched.carries {call : Option (Invocation × Option ServicePolicy)} {q : Question}
    {next : q.Answer → Dialogue (Response × Invocation)} {i : Invocation}
    (h : (Flight.running (.ask q next)).Watched call) (hq : q.invocation? = some i) :
    ∃ j, call = some (j, i.policy) ∧ j.request = i.request := by
  obtain ⟨j, attached, rfl, chosen, ⟨-, hcarries⟩, -⟩ := h
  obtain ⟨hrequest, rfl⟩ := hcarries i hq
  exact ⟨j, rfl, hrequest.symm⟩

end Turnpike
