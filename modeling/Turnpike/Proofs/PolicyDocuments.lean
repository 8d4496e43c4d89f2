import Mathlib.Data.Finset.Card
import Mathlib.Tactic.Common
import Turnpike.Policy.Store

namespace Turnpike

namespace PolicyFault

def given (fault : PolicyFault) (c : Prop) [Decidable c] : List PolicyFault :=
  if c then [fault] else []

def verdict (service : String) : List PolicyFault → Except PolicyError Unit
  | [] => .ok ()
  | fault :: _ => .error (.invalid service fault)

variable {service : String} {fault : PolicyFault} {c : Prop} [Decidable c]

theorem verdict_append (fs gs : List PolicyFault) :
    verdict service (fs ++ gs) = verdict service fs >>= fun _ => verdict service gs := by
  cases fs <;> rfl

theorem verdict_given : verdict service (fault.given c) =
    if c then throw (.invalid service fault) else pure () := by
  unfold given
  split <;> rfl

theorem verdict_given_append (fs : List PolicyFault) : verdict service (fault.given c ++ fs) =
    if c then throw (.invalid service fault) >>= fun _ : Unit => verdict service fs
    else verdict service fs := by
  unfold given
  split <;> rfl

theorem verdict_elim {α : Type} {rule : Option α} {faults : α → List PolicyFault} :
    verdict service (rule.elim [] faults) =
      rule.elim (pure ()) fun r => verdict service (faults r) := by
  cases rule <;> rfl

end PolicyFault

def RetryPolicy.faults (p : RetryPolicy) : List PolicyFault :=
  PolicyFault.noAttempts.given (p.maxAttempts = 0) ++
    (PolicyFault.shrinkingBackoff.given (!p.multiplier.isFinite || p.multiplier < 1.0) ++
      PolicyFault.intervalAboveCap.given (p.maxIntervalMs < p.intervalMs))

def BreakerPolicy.faults (p : BreakerPolicy) : List PolicyFault :=
  PolicyFault.thresholdOutOfRange.given
      (!(0.0 ≤ p.failureRateThreshold && p.failureRateThreshold ≤ 100.0)) ++
    (PolicyFault.emptyWindow.given (p.slidingWindowSize = 0) ++
      PolicyFault.noTrials.given (p.permittedCallsInHalfOpen = 0))

def RateLimitPolicy.faults (p : RateLimitPolicy) : List PolicyFault :=
  PolicyFault.noTimeWindow.given (p.windowMs = 0)

/-- All that is wrong with a policy, in the order of declaration. -/
def ServicePolicy.faults (p : ServicePolicy) : List PolicyFault :=
  PolicyFault.unnamedService.given (p.service = "") ++
    (p.retry.elim [] RetryPolicy.faults ++
      (p.circuitBreaker.elim [] BreakerPolicy.faults ++ p.rateLimit.elim [] RateLimitPolicy.faults))

open PolicyFault

theorem RetryPolicy.validate_eq (p : RetryPolicy) (service : String) :
    p.validate service = verdict service p.faults := by
  rw [faults, verdict_given_append, verdict_given_append, verdict_given]
  rfl

theorem BreakerPolicy.validate_eq (p : BreakerPolicy) (service : String) :
    p.validate service = verdict service p.faults := by
  rw [faults, verdict_given_append, verdict_given_append, verdict_given]
  rfl

theorem RateLimitPolicy.validate_eq (p : RateLimitPolicy) (service : String) :
    p.validate service = verdict service p.faults := by
  rw [faults, verdict_given]
  rfl

theorem ServicePolicy.validate_eq (p : ServicePolicy) :
    p.validate = verdict p.service p.faults := by
  unfold validate faults
  by_cases h : p.service = ""
  · simp only [h, given]
    rfl
  · have hempty : p.service.isEmpty = false := by simpa using h
    rw [verdict_given_append, if_neg h, hempty]
    simp only [verdict_append, verdict_elim, ← RetryPolicy.validate_eq, ← BreakerPolicy.validate_eq,
      ← RateLimitPolicy.validate_eq]
    cases p.retry <;> cases p.circuitBreaker <;> cases p.rateLimit <;> rfl

section

variable {α ε : Type} {check : α → Except ε Unit} {xs : List α}

theorem forM_eq_find? (check : α → Except ε Unit) (xs : List α) :
    xs.forM check = (xs.find? fun x => !(check x).isOk).elim (.ok ()) check := by
  induction xs with
  | nil => rfl
  | cons x xs ih =>
    rw [List.forM_eq_forM, List.forM_cons, ← List.forM_eq_forM, List.find?_cons, ih]
    cases hx : check x with
    | ok => rfl
    | error e => exact hx.symm

theorem isOk_iff {r : Except ε Unit} : r.isOk ↔ r = .ok () := by
  cases r <;> simp [Except.isOk, Except.toBool]

theorem forM_eq_ok_iff : xs.forM check = .ok () ↔ ∀ x ∈ xs, check x = .ok () := by
  rw [forM_eq_find?]
  cases hfind : xs.find? fun x => !(check x).isOk with
  | none => simpa [isOk_iff] using hfind
  | some x =>
    have hx : check x ≠ .ok () := fun hok => by simpa [isOk_iff.2 hok] using List.find?_some hfind
    exact ⟨fun h => absurd h hx, fun h => h x (List.mem_of_find?_eq_some hfind)⟩

theorem forM_eq_error_iff {e : ε} : xs.forM check = .error e ↔
    ∃ before x after, xs = before ++ x :: after ∧ (∀ y ∈ before, check y = .ok ()) ∧
      check x = .error e := by
  rw [forM_eq_find?]
  constructor
  · intro h
    cases hfind : xs.find? fun x => !(check x).isOk with
    | none =>
      rw [hfind] at h
      cases h
    | some x =>
      rw [hfind] at h
      obtain ⟨-, before, after, hsplit, hbefore⟩ := List.find?_eq_some_iff_append.1 hfind
      exact ⟨before, x, after, hsplit, by simpa [isOk_iff] using hbefore, h⟩
  · rintro ⟨before, x, after, hsplit, hbefore, hx⟩
    have hrefused : (!(check x).isOk) = true := by rw [hx]; rfl
    have hfind : xs.find? (fun x => !(check x).isOk) = some x :=
      List.find?_eq_some_iff_append.2
        ⟨hrefused, before, after, hsplit, by simpa [isOk_iff] using hbefore⟩
    rw [hfind, Option.elim_some, hx]

end

namespace Dict

variable {κ α : Type} [LT κ] [DecidableEq κ] [DecidableLT κ] [LE κ] [Std.IsLinearOrder κ]
  [Std.LawfulOrderLT κ]

theorem ofList_concat (l : List (κ × α)) (k : κ) (a : α) :
    ofList (l ++ [(k, a)]) = (ofList l).insert k a :=
  List.foldl_concat ..

theorem get?_ofList (l : List (κ × α)) (k : κ) :
    (ofList l).get? k = (l.reverse.find? (·.1 = k)).map (·.2) := by
  induction l using List.reverseRecOn with
  | nil => rfl
  | append_singleton l p ih =>
    rw [ofList_concat, get?_insert, ih, List.reverse_concat, List.find?_cons]
    by_cases h : p.1 = k
    · simp [h]
    · simp [h, Ne.symm h]

omit [DecidableLT κ] [LE κ] [Std.IsLinearOrder κ] [Std.LawfulOrderLT κ] in
theorem mem_keys_iff {d : Dict κ α} {k : κ} : k ∈ d.keys ↔ d.get? k ≠ none := by
  simp only [keys, get?, ne_eq, List.lookup_eq_none_iff, List.mem_map]
  grind

theorem size_ofList (l : List (κ × α)) : (ofList l).size = (l.map (·.1)).toFinset.card := by
  have hkeys : (ofList l).keys.toFinset = (l.map (·.1)).toFinset := by
    ext k
    simp [mem_keys_iff, get?_ofList]
  rw [← hkeys, List.toFinset_card_of_nodup (nodup_keys _), keys, List.length_map]
  rfl

end Dict

namespace PolicySnapshot

variable {version : Nat} {policies : List ServicePolicy} {service : String} {text : String}
  {d : Document}

theorem get?_ofPolicies : (ofPolicies version policies).get? service =
    policies.reverse.find? (·.service = service) := by
  have hget := Dict.get?_ofList (policies.map fun p => (p.service, p)) service
  rw [← List.map_reverse, List.find?_map, Option.map_map] at hget
  exact hget.trans Option.map_id'

theorem get?_ofPolicies_eq_some_iff {p : ServicePolicy} :
    (ofPolicies version policies).get? service = some p ↔
      ∃ before after, policies = before ++ p :: after ∧ p.service = service ∧
        ∀ q ∈ after, q.service ≠ service := by
  rw [get?_ofPolicies, List.find?_eq_some_iff_append]
  constructor
  · -- The list was searched from its end.
    rintro ⟨hp, after, before, hsplit, hafter⟩
    refine ⟨before.reverse, after.reverse, ?_, of_decide_eq_true hp, fun q hq => ?_⟩
    · rw [← List.reverse_reverse policies, hsplit]
      simp
    · simpa using hafter q (List.mem_reverse.1 hq)
  · rintro ⟨before, after, rfl, hp, hafter⟩
    refine ⟨decide_eq_true hp, after.reverse, before.reverse, by simp, fun q hq => ?_⟩
    simpa using hafter q (List.mem_reverse.1 hq)

theorem get?_ofPolicies_eq_none_iff :
    (ofPolicies version policies).get? service = none ↔ ∀ p ∈ policies, p.service ≠ service := by
  simp [get?_ofPolicies]

theorem size_ofPolicies :
    (ofPolicies version policies).services.size = (policies.map (·.service)).toFinset.card := by
  refine (Dict.size_ofList _).trans ?_
  rw [List.map_map]
  rfl

theorem ofText_eq (h : Json.decodeText Document text = .ok d) : ofText text =
    ((d.policies.forM ServicePolicy.validate).map fun _ =>
      ofPolicies d.version.toNat d.policies).mapError .refused := by
  rw [ofText, Json.loadText, h]

theorem ofText_eq_ok_iff (h : Json.decodeText Document text = .ok d) {s : PolicySnapshot} :
    ofText text = .ok s ↔
      (∀ p ∈ d.policies, p.validate = .ok ()) ∧ s = ofPolicies d.version.toNat d.policies := by
  rw [ofText_eq h, ← forM_eq_ok_iff]
  cases d.policies.forM ServicePolicy.validate with
  | ok => simp [Except.map, Except.mapError, eq_comm]
  | error e => simp [Except.map, Except.mapError]

theorem ofText_eq_error_iff (h : Json.decodeText Document text = .ok d)
    {e : Json.LoadError PolicyError} : ofText text = .error e ↔ ∃ refusal,
      d.policies.forM ServicePolicy.validate = .error refusal ∧ e = .refused refusal := by
  rw [ofText_eq h]
  cases d.policies.forM ServicePolicy.validate <;> simp [Except.map, Except.mapError, eq_comm]

/--
A document that can be read. It is accepted exactly if all its policies are valid, those included
that others replace; otherwise what is told is what makes the first one invalid, and of its faults
the first. What it holds for a service is the last policy that names the service, and there are as
many as there are names.
-/
theorem document_keeps_last_policies (h : Json.decodeText Document text = .ok d) :
    ((∃ s, ofText text = .ok s) ↔ ∀ p ∈ d.policies, p.validate = .ok ()) ∧
    (∀ e, ofText text = .error e ↔
      ∃ before p after refusal, d.policies = before ++ p :: after ∧
        (∀ q ∈ before, q.validate = .ok ()) ∧ p.validate = .error refusal ∧
        e = .refused refusal) ∧
    (∀ p : ServicePolicy, p.validate = PolicyFault.verdict p.service p.faults) ∧
    ∀ s, ofText text = .ok s →
      s.version = d.version.toNat ∧
      (∀ service p, s.get? service = some p ↔
        ∃ before after, d.policies = before ++ p :: after ∧ p.service = service ∧
          ∀ q ∈ after, q.service ≠ service) ∧
      (∀ service, s.get? service = none ↔ ∀ p ∈ d.policies, p.service ≠ service) ∧
      s.services.size = (d.policies.map (·.service)).toFinset.card := by
  refine ⟨?_, fun e => ?_, ServicePolicy.validate_eq, fun s hs => ?_⟩
  · simp only [ofText_eq_ok_iff h, exists_and_left, exists_eq, and_true]
  · rw [ofText_eq_error_iff h]
    constructor
    · rintro ⟨refusal, hcheck, he⟩
      obtain ⟨before, p, after, hsplit, hbefore, hp⟩ := forM_eq_error_iff.1 hcheck
      exact ⟨before, p, after, refusal, hsplit, hbefore, hp, he⟩
    · rintro ⟨before, p, after, refusal, hsplit, hbefore, hp, he⟩
      exact ⟨refusal, forM_eq_error_iff.2 ⟨before, p, after, hsplit, hbefore, hp⟩, he⟩
  · obtain ⟨-, rfl⟩ := (ofText_eq_ok_iff h).1 hs
    exact ⟨rfl, fun _ _ => get?_ofPolicies_eq_some_iff, fun _ => get?_ofPolicies_eq_none_iff,
      size_ofPolicies⟩

theorem document_of_three_policies :
    let text := "\x7b\"version\":7,\"services\":[\x7b\"service\":\"a\"\x7d," ++
      "\x7b\"service\":\"b\"\x7d,\x7b\"service\":\"a\",\"version\":2\x7d]\x7d"
    let d : Document :=
      ⟨7, [{ service := "a" }, { service := "b" }, { service := "a", version := 2 }]⟩
    Json.decodeText Document text = .ok d ∧
      ∃ s, ofText text = .ok s ∧ s.version = 7 ∧
        s.get? "a" = some { service := "a", version := 2 } ∧ s.get? "c" = none ∧
        s.services.size = 2 := by
  intro text d
  have hdecode : Json.decodeText Document text = .ok d := by decide +kernel
  have hvalid : ∀ p ∈ d.policies, p.validate = .ok () := by decide
  obtain ⟨hok, -, -, hsnapshot⟩ := document_keeps_last_policies hdecode
  obtain ⟨s, hs⟩ := hok.2 hvalid
  obtain ⟨hversion, hsome, hnone, hsize⟩ := hsnapshot s hs
  have hlast : s.get? "a" = some { service := "a", version := 2 } :=
    (hsome _ _).2 ⟨[{ service := "a" }, { service := "b" }], [], rfl, rfl, by simp⟩
  exact ⟨hdecode, s, hs, hversion, hlast, (hnone "c").2 (by decide), hsize⟩

end PolicySnapshot

end Turnpike
