import Turnpike.Engine

namespace Turnpike

theorem Invoker.eq_of_get?_builtin {runner : RetryRunner} {name : String} {invoker : Invoker}
    (h : (builtin runner).get? name = some invoker) :
    invoker = failfast ∨ invoker = failover runner := by
  have h' : [("failfast", failfast), ("failover", failover runner)].lookup name = some invoker := h
  simp only [List.lookup_cons, List.lookup_nil] at h'
  split at h'
  · exact .inl (Option.some.inj h').symm
  · split at h'
    · exact .inr (Option.some.inj h').symm
    · cases h'

namespace Engine

def BuiltIn (engine : Engine) : Prop :=
  ∃ config built, ofConfig config = .ok built ∧ engine = { built with policies := engine.policies }

theorem exists_invokers_of_ofConfig {config : GovernanceConfig} {engine : Engine}
    (h : ofConfig config = .ok engine) :
    ∃ schedule : Schedule, engine.invokers = Invoker.builtin schedule.runner ∧
      engine.invokers.get? config.invoker = some engine.fallback := by
  simp only [ofConfig, bind, Except.bind] at h
  split at h
  · cases h
  · rename_i schedule _
    split at h
    · cases h
    · rename_i hfallback
      cases h
      refine ⟨schedule, rfl, ?_⟩
      unfold Registry.require at hfallback
      split at hfallback
      · cases hfallback
        assumption
      · cases hfallback

theorem invokerFor_failover (engine : Engine) {schedule : Schedule} {policy : ServicePolicy}
    (h : engine.invokers = Invoker.builtin schedule.runner)
    (hinvoker : policy.invoker = some "failover") :
    engine.invokerFor (some policy) = Invoker.failover schedule.runner := by
  simp only [invokerFor, Registry.choose, h, Option.bind_some, hinvoker]
  rfl

theorem BuiltIn.invokerFor {engine : Engine} (h : engine.BuiltIn) (policy : Option ServicePolicy) :
    engine.invokerFor policy = .failfast ∨
      ∃ schedule : Schedule, engine.invokerFor policy = .failover schedule.runner := by
  obtain ⟨config, built, hbuilt, heq⟩ := h
  obtain ⟨schedule, hinvokers, hfallback⟩ := exists_invokers_of_ofConfig hbuilt
  rw [hinvokers] at hfallback
  have hchosen : ∃ name, (Invoker.builtin schedule.runner).get? name =
      some (engine.invokerFor policy) := by
    rw [heq]
    simp only [Engine.invokerFor, Registry.choose, hinvokers]
    cases hwanted : (policy.bind (·.invoker)).bind (Invoker.builtin schedule.runner).get? with
    | none => exact ⟨_, hfallback⟩
    | some invoker =>
      obtain ⟨name, -, hname⟩ := Option.bind_eq_some_iff.1 hwanted
      exact ⟨name, hname⟩
  obtain ⟨name, hname⟩ := hchosen
  exact (Invoker.eq_of_get?_builtin hname).imp_right fun h => ⟨schedule, h⟩

end Engine

end Turnpike
