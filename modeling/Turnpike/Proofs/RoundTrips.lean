import Turnpike.CommandLine
import Turnpike.Proofs.Decoders

namespace Turnpike

open Json (ReadsAs decode)
open Json.Fields (Accepts)

theorem SeedSource.readsAs (s : SeedSource) : ReadsAs decode (toJson s) s := by
  cases s with
  | literal seed => exact .carrying rfl ((ReadsAs.uint64 seed).map _)
  | fromString text => exact .carrying rfl ((ReadsAs.string text).map _)
  | random => exact .plainVariant rfl

theorem SimSeed.readsAs (s : SimSeed) : ReadsAs decode (toJson s) s :=
  (Accepts.value SimSeed.mk
    |>.and (.uint64 s.seed) (by simp)
    |>.and s.source.readsAs (by simp)
    |>.decode "SimSeed")

structure EndpointStats.Fits (s : EndpointStats) : Prop where
  invocations : s.invocations < UInt64.size
  successes : s.successes < UInt64.size
  failures : s.failures < UInt64.size

theorem EndpointStats.Fits.readsAs {s : EndpointStats} (h : s.Fits) :
    ReadsAs decode (toJson s) s :=
  (Accepts.value EndpointStats.mk
    |>.and (.nat h.invocations) (by simp)
    |>.and (.nat h.successes) (by simp)
    |>.and (.nat h.failures) (by simp)
    |>.decode "EndpointStats")

structure SimSummary.Fits (s : SimSummary) : Prop where
  calls : s.calls < UInt64.size
  successes : s.successes < UInt64.size
  failures : ∀ n ∈ s.failures.values, n < UInt64.size
  attempts : s.attempts < UInt64.size
  endpoints : ∀ e ∈ s.endpoints.values, e.Fits

theorem SimSummary.Fits.readsAs {s : SimSummary} (h : s.Fits) : ReadsAs decode (toJson s) s :=
  (Accepts.value SimSummary.mk
    |>.and (.string s.service) (by simp)
    |>.and s.seed.readsAs (by simp)
    |>.and (.nat h.calls) (by simp)
    |>.and (.nat h.successes) (by simp)
    |>.and (Dict.readsAs fun n hn => .nat (h.failures n hn)) (by simp)
    |>.and (.nat h.attempts) (by simp)
    |>.and (Dict.readsAs fun e he => (h.endpoints e he).readsAs) (by simp)
    |>.decode "SimSummary")

theorem RoutingMode.readsAs (m : RoutingMode) : ReadsAs decode (toJson m) m := by
  cases m <;> exact .plainVariant rfl

theorem KeyedConfig.readsAs (c : KeyedConfig) (record : String) (default : KeyedConfig) :
    ReadsAs (KeyedConfig.decode record default) c.toJson c :=
  (Accepts.value KeyedConfig.mk
    |>.and (.string c.strategy) (by simp)
    |>.and (.uint64 c.cleanInterval) (by simp)
    |>.and (.uint64 c.expireTime) (by simp)
    |>.decode record)

namespace GovernanceConfig

theorem readsAs (c : GovernanceConfig) : ReadsAs decode (toJson c) c :=
  (Accepts.value GovernanceConfig.mk
    |>.and (.string c.invoker) (by simp)
    |>.and ((Accepts.one (.string c.retrier)).decode "RetryConfig") (by simp)
    |>.and (c.rateLimiter.readsAs "RateLimiterConfig" _) (by simp)
    |>.and (c.circuitBreaker.readsAs "CircuitBreakerConfig" _) (by simp)
    |>.and ((Accepts.one c.routingMode.readsAs).decode "RoutingConfig") (by simp)
    |>.decode "GovernanceConfig")

variable {c : GovernanceConfig}

theorem ofText_pretty (h : c.validate = .ok ()) : ofText (Json.pretty (toJson c)) = .ok c := by
  simp [ofText, Json.loadText, c.readsAs.decodeText, h, Except.map, Except.mapError]

theorem validate_of_ofText {text : String} (h : ofText text = .ok c) : c.validate = .ok () := by
  unfold ofText Json.loadText at h
  split at h
  · cases h
  · rename_i d _
    cases hd : d.validate with
    | error e => simp [hd, Except.map, Except.mapError] at h
    | ok =>
      obtain rfl : d = c := by simpa [hd, Except.map, Except.mapError] using h
      exact hd

end GovernanceConfig

namespace Command

variable {read : String → Option String} {file : String} {c : GovernanceConfig}

theorem run_checkConfig (h : config read file = some c) :
    run read (.checkConfig file) = some [s!"{file} is valid", Json.pretty (toJson c)] := by
  simp [run, h]

theorem exists_config_of_run {valid text : String}
    (h : run read (.checkConfig file) = some [valid, text]) :
    ∃ c : GovernanceConfig, c.validate = .ok () ∧ text = Json.pretty (toJson c) := by
  obtain ⟨c, hc, hlines⟩ := Option.bind_eq_some_iff.1 h
  obtain ⟨source, -, hsource⟩ := Option.bind_eq_some_iff.1 hc
  have hok : GovernanceConfig.ofText source = .ok c := by
    cases hresult : GovernanceConfig.ofText source with
    | error e => simp [hresult, Except.toOption] at hsource
    | ok => simpa [hresult, Except.toOption] using hsource
  refine ⟨c, GovernanceConfig.validate_of_ofText hok, ?_⟩
  simp at hlines
  exact hlines.2.symm

end Command

/--
What is printed as JSON reads back to the same value: the summary of a simulation, and any valid
configuration. So the configuration that a check prints is accepted when it is checked in turn, and
then printed as the same text.
-/
theorem printed_json_reads_back :
    (∀ s : SimSummary, s.Fits → Json.decodeText SimSummary s.render = .ok s) ∧
      (∀ c : GovernanceConfig, c.validate = .ok () →
        GovernanceConfig.ofText (Json.pretty (toJson c)) = .ok c) ∧
      ∀ (read : String → Option String) (file copy valid text : String),
        Command.run read (.checkConfig file) = some [valid, text] → read copy = some text →
          Command.run read (.checkConfig copy) = some [s!"{copy} is valid", text] := by
  refine ⟨fun s hs => hs.readsAs.decodeText, fun c => GovernanceConfig.ofText_pretty, ?_⟩
  intro read file copy valid text hrun hcopy
  obtain ⟨c, hc, rfl⟩ := Command.exists_config_of_run hrun
  apply Command.run_checkConfig
  simp [Command.config, hcopy, GovernanceConfig.ofText_pretty hc, Except.toOption]

def SimSummary.extreme : SimSummary where
  service := "\"a\\b\"\r\n\x01\x1f\x7f/é\u2028😀"
  seed := .ofString "\t"
  calls := UInt64.size - 1
  successes := 0
  failures := ⟨[("", 1), ("\"", UInt64.size - 1)], by decide⟩
  attempts := UInt64.size - 1
  endpoints := ⟨[("a:1", { invocations := UInt64.size - 1 })], by decide⟩

theorem SimSummary.fits_extreme : extreme.Fits where
  calls := by decide
  successes := by decide
  failures := by decide
  attempts := by decide
  endpoints := List.forall_mem_singleton.2 ⟨by decide, by decide, by decide⟩

theorem extreme_json_reads_back :
    SimSummary.extreme.Fits ∧
      Json.decodeText SimSummary SimSummary.extreme.render = .ok SimSummary.extreme ∧
      ∃ (c : GovernanceConfig) (read : String → Option String),
        c.validate = .ok () ∧ GovernanceConfig.ofText (Json.pretty (toJson c)) = .ok c ∧
        read "given" = some "\x7b\"routing\":\x7b\"mode\":\"reroute\"\x7d\x7d" ∧
        Command.run read (.checkConfig "given") =
          some ["given is valid", Json.pretty (toJson c)] ∧
        read "copy" = some (Json.pretty (toJson c)) ∧
        Command.run read (.checkConfig "copy") =
          some ["copy is valid", Json.pretty (toJson c)] := by
  let c : GovernanceConfig := { routingMode := .reroute }
  let read : String → Option String := fun
    | "given" => some "\x7b\"routing\":\x7b\"mode\":\"reroute\"\x7d\x7d"
    | "copy" => some (Json.pretty (toJson c))
    | _ => none
  have hvalid : c.validate = .ok () := by decide
  have hgiven : Command.config read "given" = some c := by decide +kernel
  have hrun := Command.run_checkConfig hgiven
  obtain ⟨hsummaries, hconfigs, hcopies⟩ := printed_json_reads_back
  exact ⟨SimSummary.fits_extreme, hsummaries _ SimSummary.fits_extreme, c, read, hvalid,
    hconfigs c hvalid, rfl, hrun, rfl, hcopies read "given" "copy" _ _ hrun rfl⟩

end Turnpike
