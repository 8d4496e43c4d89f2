import Turnpike.Governance
import Turnpike.Invocation.Invoker
import Turnpike.Policy.Store

namespace Turnpike

structure Engine where
  invokers : Registry Invoker
  fallback : Invoker
  policies : PolicyStore := {}

namespace Engine

def ofConfig (config : GovernanceConfig) : Except RegistryError Engine := do
  let schedule ← Schedule.builtin.require config.retrier
  let invokers := Invoker.builtin schedule.runner
  let fallback ← invokers.require config.invoker
  return { invokers, fallback }

def invokerFor (e : Engine) (policy : Option ServicePolicy) : Invoker :=
  e.invokers.choose (policy.bind (·.invoker)) e.fallback

/-- Runs an invocation. The stored policy counts where the invocation carries none. -/
def execute (e : Engine) (i : Invocation) : Dialogue (Response × Invocation) :=
  let stored := e.policies.get? i.service
  ((e.invokerFor (i.policy <|> stored)).execute stored).run i

def call (e : Engine) (request : OutboundRequest) : Dialogue Response :=
  (·.1) <$> e.execute { request }

end Engine

end Turnpike
