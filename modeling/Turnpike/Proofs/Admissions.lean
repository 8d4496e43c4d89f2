import Turnpike.Proofs.Breakers

namespace Turnpike

def verdict (es : List Entry) : Report :=
  (es.filterMap Entry.outcome?).head?.elim .release dispatchReport

/-- From an admission to the report of it, with one dispatch at most in between. -/
structure Settled (b : BreakerId) (mid : List Entry) (e : Entry) : Prop where
  quiet : ∀ x ∈ mid, x.told? = none
  once : (mid.filterMap Entry.outcome?).length ≤ 1
  report : e.report? = some (b, verdict mid)

/-- Inside its call, and with the admission wherever it waits. -/
def Flight.Carries (b : BreakerId) : Flight → Prop
  | .running (.ask q _) => ∀ i, q.waiting? = some i → i.admissions = [b]
  | _ => False

/-- Back with its owner, or about to be, and still with the admission. -/
def Flight.Retains (b : BreakerId) : Flight → Prop
  | .held i | .running (.done (_, i)) => i.admissions = [b]
  | _ => False

theorem StaysAll.settled {b : BreakerId} {mid : List Entry} {p : Pending} {e : Entry}
    (h : StaysAll { breaker := b } mid p) (hr : e.report? = some (p.breaker, p.due)) :
    Settled b mid e := by
  have hout : mid.filterMap Entry.outcome? = p.outcome.toList := by simpa using h.outcomes
  refine ⟨h.silent, ?_, ?_⟩
  · rw [hout]
    cases p.outcome <;> simp
  · rw [hr, h.breaker_eq, verdict, hout, Pending.due]
    cases p.outcome <;> rfl

section Pending

variable {b : BreakerId} {es : List Entry} {p : Pending}

theorem Invocation.Holds.admissions_eq {i : Invocation} (hi : i.Holds (some p))
    (h : StaysAll { breaker := b } es p) : i.admissions = [b] := by
  simpa [h.breaker_eq] using hi.admissions

theorem Flight.Owes.carries_or_retains {f : Flight} (hf : f.Owes (some p))
    (h : StaysAll { breaker := b } es p) : f.Carries b ∨ f.Retains b ∧ .abandoned ∈ es := by
  have hrests {i : Invocation} (hi : i.Rests (some p)) : i.admissions = [b] ∧ .abandoned ∈ es :=
    ⟨hi.admissions_eq h, (h.abandoned_mem (hi.left p rfl)).resolve_left (by simp)⟩
  cases f with
  | absent => cases hf
  | held i => exact .inr (hrests hf)
  | running d =>
    cases d with
    | done => exact .inr (hrests hf)
    | ask q next =>
      left
      intro i hq
      exact (hf.1.holds hq).admissions_eq h

end Pending

/--
In every run of invocations that share a context, an admission is followed by one report of it to
the breaker that granted it. There is none yet while its call is under way. There is none either
once the call was broken off, as long as the invocation is kept: it has the admission with it, and
asks no breaker before it has given it back. Every report is that of an admission. What the
entries tell of a breaker are the calls that it goes through, and its answers to them.
-/
theorem admissions_settled_once {β : Type} [LoadBalancer β] {g : Governance β}
    {log : List (Nat × Entry)} {s : Fleet β} (hled : g.breakers.Led)
    (h : Fleet.Reaches g log s) :
    (∀ n pre e post b, Entry.ofOwner n log = pre ++ e :: post → e.grant? = some b →
      (∃ mid e' rest, post = mid ++ e' :: rest ∧ Settled b mid e') ∨
        (∀ x ∈ post, x.told? = none) ∧
          ((s.flights n).Carries b ∨ (s.flights n).Retains b ∧ .abandoned ∈ post)) ∧
    (∀ n pre e post b r, Entry.ofOwner n log = pre ++ e :: post → e.report? = some (b, r) →
      ∃ pre' e' mid, pre = pre' ++ e' :: mid ∧ e'.grant? = some b ∧ Settled b mid e) ∧
    Governance.Drives (log.filterMap (·.2.told?)) g s.context := by
  refine ⟨?_, ?_, h.drives hled⟩
  · intro n pre e post b heq hb
    obtain ⟨l, hlog, hl⟩ := h.books n
    rw [heq] at hlog
    obtain ⟨l', -, hpost⟩ := BooksAll.append_iff.1 hlog
    cases hpost with
    | cons he hpost =>
      rw [he.of_grant hb] at hpost
      rcases hpost.next_report with ⟨mid, e', rest, p, rfl, hmid, hr⟩ | ⟨p, rfl, hes⟩
      · exact .inl ⟨mid, e', rest, rfl, hmid.settled hr⟩
      · exact .inr ⟨hes.silent, hl.carries_or_retains hes⟩
  · intro n pre e post b r heq hr
    obtain ⟨l, hlog, -⟩ := h.books n
    rw [heq] at hlog
    obtain ⟨l', hpre, hpost⟩ := BooksAll.append_iff.1 hlog
    cases hpost with
    | cons he _ =>
      obtain ⟨p, rfl, rfl, rfl⟩ := he.of_report hr
      rcases hpre.last_grant with ⟨pre', e', mid, b, rfl, hb, hmid⟩ | ⟨_, hnone, _⟩
      · have hbreaker := hmid.breaker_eq
        exact ⟨pre', e', mid, rfl, by rw [hb, hbreaker], hbreaker ▸ hmid.settled hr⟩
      · cases hnone

section BrokenOff

def Governance.openedOnce : Governance where
  readiness := ⟨.ready, .policyReady⟩
  routingMode := .reuse
  limiters := ⟨LimiterBank.builtin, .tokenBucket, ⟨30000, 60000, 0, .empty⟩⟩
  breakers := {
    strategies := BreakerBank.builtin, fallback := .count
    keyed := ⟨30000, 60000, 0, .ofList [("s@a", ⟨⟨0, 0⟩, 0⟩)]⟩
    breakers := #[{
      policy := { waitInOpenMs := 1000, permittedCallsInHalfOpen := 1 }, state := .opened }] }
  balancer := .roundRobinStart

theorem Governance.led_openedOnce : openedOnce.breakers.Led := by
  intro key s hs
  obtain ⟨-, rfl⟩ := Prod.mk.inj (List.mem_singleton.1 (Dict.get?_eq_some_iff.1 hs))
  decide

theorem Fleet.reaches_brokenOff : ∃ log s i, Reaches .openedOnce log s ∧
    s.flights 0 = .held i ∧ (∀ n ≠ 0, s.flights n = .absent) ∧
    (∃ pre e post, Entry.ofOwner 0 log = pre ++ e :: post ∧ e.grant? = some 0 ∧
      ∀ x ∈ post, x.told? = none) ∧
    ∀ now, (s.context.breakers.tryAcquire now 0).1 = false := by
  let g := Governance.openedOnce
  let rule : BreakerPolicy := { waitInOpenMs := 1000, permittedCallsInHalfOpen := 1 }
  let a : Endpoint := { id := "a", host := "h", port := 1 }
  let policy : ServicePolicy := { service := "s", circuitBreaker := some rule }
  let i : Invocation := {
    request := { id := ⟨⟨List.replicate 16 0, rfl⟩⟩, service := "s", path := "/" }
    instances := [a], policy := some policy }
  let engine : Engine := ⟨Invoker.builtin Schedule.exponential.runner, Invoker.failfast, {}⟩
  have hengine : engine.BuiltIn := ⟨{}, engine, rfl, rfl⟩
  let g' := (g.pick i.request [a]).2
  let g'' := (g'.askBreaker 1000 i.request rule 0 a).2
  have hpick : g.pick i.request [a] = (some a, g') := Prod.ext (by decide) rfl
  have hask : g'.askBreaker 1000 i.request rule 0 a = ((true, 0), g'') :=
    Prod.ext (by decide) rfl
  have hchoose :
      Governance.Chooses 1000 i.request policy g [a] [⟨a, 0, true⟩] (some (a, some 0)) g'' :=
    .admitted (r := some (a, 0)) rfl (.granted hpick hask)
  have hselect : Governance.Selects 1000 { i with attempts := 1 } g [a] [.asked ⟨a, 0, true⟩]
      (.ok (a, some 0)) g'' :=
    .unlimited (i := { i with attempts := 1 }) ⟨by decide, rfl, rfl⟩ hchoose rfl
  have h := (Reaches.start (g := g)).move 0 rfl (.enter (i := i) rfl)
  have h := h.move 0 rfl (.call hengine)
  have h := h.move 0 rfl (.cluster ())
  have h := h.move 0 rfl (.context 0 .readiness)
  have h := h.move 0 rfl (.context 0 .routingMode)
  have h := h.move 0 rfl (.context 1000 (.select hselect))
  have h := h.move 0 rfl (.cluster ())
  have h := h.move 0 rfl (.abandon rfl)
  refine ⟨_, _, _, h, rfl, ?_, ⟨[_, _, _], _, [_, _, _], rfl, rfl, ?_⟩, fun _ => rfl⟩
  · intro n hn
    simp [put, hn]
  · simp only [List.forall_mem_cons]
    exact ⟨rfl, rfl, rfl, List.forall_mem_nil _⟩

theorem admission_of_dropped_settled : Governance.openedOnce.breakers.Led ∧
    ∃ log s, Fleet.Reaches .openedOnce log s ∧ (∀ n, s.flights n = .absent) ∧
      ∃ pre e post, Entry.ofOwner 0 log = pre ++ e :: post ∧ e.grant? = some 0 ∧
        ∃ mid e' rest, post = mid ++ e' :: rest ∧ Settled 0 mid e' := by
  refine ⟨Governance.led_openedOnce, ?_⟩
  obtain ⟨log, s, i, h, hi, hrest, ⟨pre, e, post, hlog, he, -⟩, -⟩ := Fleet.reaches_brokenOff
  obtain ⟨log, s, h, hs, post, hlog⟩ : ∃ log s, Fleet.Reaches .openedOnce log s ∧
      (∀ n, s.flights n = .absent) ∧ ∃ post, Entry.ofOwner 0 log = pre ++ e :: post := by
    refine ⟨_, _, h.move 0 hi (.drop 2000), fun n => ?_, ?_⟩
    · by_cases hn : n = 0
      · simp [Fleet.put, hn]
      · simp [Fleet.put, hn, hrest n hn]
    · rw [Entry.ofOwner_append, hlog, List.append_assoc, List.cons_append]
      exact ⟨_, rfl⟩
  refine ⟨log, s, h, hs, pre, e, post, hlog, he, ?_⟩
  rcases (admissions_settled_once Governance.led_openedOnce h).1 0 pre e post 0 hlog he with
    hsettled | ⟨-, hcarries | ⟨hretains, -⟩⟩
  · exact hsettled
  · rw [hs] at hcarries
    cases hcarries
  · rw [hs] at hretains
    cases hretains

/-- As long as it is kept, the only trial of its breaker stays taken, with no call in flight. -/
theorem admission_of_kept_unreported : ∃ log s, Fleet.Reaches .openedOnce log s ∧
    (∀ n d, s.flights n ≠ .running d) ∧
    (∃ pre e post, Entry.ofOwner 0 log = pre ++ e :: post ∧ e.grant? = some 0 ∧
      ∀ x ∈ post, x.report? = none) ∧
    ∀ now, (s.context.breakers.tryAcquire now 0).1 = false := by
  obtain ⟨log, s, i, h, hi, hrest, ⟨pre, e, post, hlog, he, hpost⟩, hrefuses⟩ :=
    Fleet.reaches_brokenOff
  refine ⟨log, s, h, fun n d => ?_, ⟨pre, e, post, hlog, he, fun x hx => ?_⟩, hrefuses⟩
  · by_cases hn : n = 0
    · simp [hn, hi]
    · simp [hrest n hn]
  · simp [Entry.report?, hpost x hx]

end BrokenOff

end Turnpike
