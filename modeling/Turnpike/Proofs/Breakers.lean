import Turnpike.Proofs.Bookings
import Turnpike.Proofs.PrivateState

/-!
The breakers of a bank. None is ever lost, even if its key is forgotten or led to another one while
an admission is open, and each goes through exactly the calls that the log tells of it.
-/

namespace Turnpike

namespace Breaker

def New (x : Breaker) : Prop := ∃ policy, x = { policy }

def heard (b : BreakerId) (told : List (BreakerId × Event)) : List Event :=
  (told.filter (·.1 = b)).map (·.2)

@[simp] theorem heard_append (b : BreakerId) (told told' : List (BreakerId × Event)) :
    heard b (told ++ told') = heard b told ++ heard b told' := by
  simp [heard]

theorem heard_eq_nil {b : BreakerId} {told : List (BreakerId × Event)}
    (h : ∀ x ∈ told, x.1 < b) : heard b told = [] := by
  rw [heard, List.filter_eq_nil_iff.2, List.map_nil]
  intro x hx
  simpa using Nat.ne_of_lt (h x hx)

end Breaker

theorem BreakerBank.new_create (b : BreakerBank) (policy : BreakerPolicy) :
    (b.create policy).New := by
  unfold create
  cases b.strategies.choose policy.strategy b.fallback
  exact ⟨policy, rfl⟩

namespace Governance

variable {β : Type} {now version : Nat} {request : OutboundRequest} {g g' g'' : Governance β}
  {told told' : List (BreakerId × Breaker.Event)} {b : BreakerId}

def made (g : Governance β) : Nat := g.breakers.breakers.size

def breakerAt? (g : Governance β) (b : BreakerId) : Option Breaker := g.breakers.breakers[b]?

/--
The calls that take a breaker of one context to where it is in a later one, with their answers. It
may be made in between.
-/
def Leads (g g' : Governance β) (b : BreakerId) (events : List Breaker.Event) : Prop :=
  ∃ x calls, (g.breakerAt? b = some x ∨ g.made ≤ b ∧ x.New) ∧ x.answers calls = events ∧
    g'.breakerAt? b = some (x.after calls)

structure Drives (told : List (BreakerId × Breaker.Event)) (g g' : Governance β) : Prop where
  led : g'.breakers.Led
  le : g.made ≤ g'.made
  known : ∀ x ∈ told, x.1 < g'.made
  leads : ∀ b < g'.made, Leads g g' b (Breaker.heard b told)

theorem exists_breakerAt? (h : b < g.made) : ∃ x, g.breakerAt? b = some x :=
  ⟨_, Array.getElem?_eq_getElem h⟩

theorem drives_nil (hled : g'.breakers.Led) (h : g'.breakers.breakers = g.breakers.breakers) :
    Drives [] g g' := by
  have hat : ∀ b, g'.breakerAt? b = g.breakerAt? b := fun b => by rw [breakerAt?, h, breakerAt?]
  refine ⟨hled, Nat.le_of_eq (congrArg Array.size h.symm), by simp, fun b hb => ?_⟩
  obtain ⟨x, hx⟩ := exists_breakerAt? hb
  exact ⟨x, [], .inl ((hat b).symm.trans hx), rfl, hx⟩

theorem Drives.trans (h : Drives told g g') (h' : Drives told' g' g'') :
    Drives (told ++ told') g g'' := by
  refine ⟨h'.led, Nat.le_trans h.le h'.le, ?_, fun b hb => ?_⟩
  · intro x hx
    rcases List.mem_append.1 hx with hx | hx
    · exact Nat.lt_of_lt_of_le (h.known x hx) h'.le
    · exact h'.known x hx
  · obtain ⟨y, later, hy, hlater, hafter⟩ := h'.leads b hb
    rw [Breaker.heard_append]
    rcases hy with hy | ⟨hb', hy⟩
    · have hlt : b < g'.made := (Array.getElem?_eq_some_iff.1 hy).1
      obtain ⟨x, calls, hx, hcalls, hmid⟩ := h.leads b hlt
      obtain rfl : y = x.after calls := Option.some.inj (hy.symm.trans hmid)
      refine ⟨x, calls ++ later, hx, ?_, ?_⟩
      · rw [Breaker.answers_append, hcalls, hlater]
      · rw [Breaker.after_append, hafter]
    · -- It is made in the second part, so the first one does not tell of it.
      rw [Breaker.heard_eq_nil fun x hx => Nat.lt_of_lt_of_le (h.known x hx) hb']
      exact ⟨y, later, .inr ⟨Nat.le_trans h.le hb', hy⟩, hlater, hafter⟩

theorem drives_answer (hled : g.breakers.Led) (hb : b < g.made) (c : Breaker.Call) :
    Drives [(b, ⟨c, (g.breakers.answer now b c).1⟩)] g
      { g with breakers := (g.breakers.answer now b c).2 } := by
  have hsize := BreakerBank.size_answer g.breakers now b c
  refine ⟨hled.answer c, Nat.le_of_eq hsize.symm, ?_, fun k hk => ?_⟩
  · intro x hx
    obtain rfl := List.mem_singleton.1 hx
    exact Nat.lt_of_lt_of_eq hb hsize.symm
  · obtain ⟨x, hx⟩ := exists_breakerAt? (Nat.lt_of_lt_of_eq hk hsize)
    by_cases hkb : b = k
    · subst hkb
      have hanswer : (g.breakers.answer now b c).1 = (x.answer now c).1 :=
        (BreakerBank.answer_of_some c hx).1
      exact ⟨x, [(now, c)], .inl hx, by simp [Breaker.answers, Breaker.heard, hanswer],
        (BreakerBank.answer_of_some c hx).2⟩
    · exact ⟨x, [], .inl hx, by simp [Breaker.answers, Breaker.heard, hkb],
        (BreakerBank.answer_of_ne c hkb).trans hx⟩

theorem drives_settle (hled : g.breakers.Led) (hb : b < g.made) (report : Report) :
    Drives [(b, ⟨.settle report, ()⟩)] g (g.settle now b report) :=
  drives_answer hled hb (.settle report)

theorem drives_hear {signal : Signal} (hled : g.breakers.Led)
    (h : ∀ b r, signal = .report b r → b < g.made) :
    Drives (Entry.answered ⟨.tell signal, ()⟩).told?.toList g (g.hear now signal) := by
  cases signal with
  | report b r => exact drives_settle hled (h b r rfl) r
  | _ => exact drives_nil hled rfl

theorem drives_breaker {key : String} {rule : BreakerPolicy} {bank : BreakerBank}
    (hled : g.breakers.Led) (h : g.breakers.breaker now key rule version = (b, bank)) :
    Drives [] g { g with breakers := bank } ∧ b < bank.breakers.size := by
  obtain ⟨hled', hlt, hle⟩ := hled.breaker h
  refine ⟨⟨hled', hle, by simp, fun k hk => ?_⟩, hlt⟩
  rcases Nat.lt_or_ge k g.made with hkm | hkm
  · obtain ⟨x, hx⟩ := exists_breakerAt? hkm
    exact ⟨x, [], .inl hx, rfl, (BreakerBank.getElem?_breaker_of_lt h hkm).trans hx⟩
  · rcases hled.found h with ⟨rfl, hpush⟩ | ⟨-, hsame, -⟩
    · have hsize : bank.breakers.size = g.made + 1 := by rw [hpush, Array.size_push, made]
      obtain rfl : k = g.made :=
        Nat.le_antisymm (Nat.le_of_lt_succ (Nat.lt_of_lt_of_eq hk hsize)) hkm
      have hnew : bank.breakers[g.made]? = some (g.breakers.create rule) := by simp [hpush, made]
      exact ⟨_, [], .inr ⟨hkm, g.breakers.new_create rule⟩, rfl, hnew⟩
    · have hsize : bank.breakers.size = g.made := congrArg Array.size hsame
      exact absurd (Nat.lt_of_lt_of_eq hk hsize) (Nat.not_lt_of_le hkm)

theorem drives_askBreaker {rule : BreakerPolicy} {e : Endpoint} {granted : Bool}
    (hled : g.breakers.Led)
    (h : g.askBreaker now request rule version e = ((granted, b), g')) :
    Drives [(b, ⟨.tryAcquire, granted⟩)] g g' := by
  unfold askBreaker at h
  rcases hbank : g.breakers.breaker now (request.breakerKey e) rule version with ⟨k, bank⟩
  rcases hask : bank.tryAcquire now k with ⟨answer, bank'⟩
  simp only [hbank, hask] at h
  cases h
  obtain ⟨hmade, hlt⟩ := drives_breaker hled hbank
  have hasked : Drives [(b, ⟨.tryAcquire, (bank.tryAcquire now b).1⟩)]
      { g with breakers := bank } { g with breakers := (bank.tryAcquire now b).2 } :=
    drives_answer hmade.led hlt .tryAcquire
  rw [hask] at hasked
  exact hmade.trans hasked

variable [LoadBalancer β] {candidates : List Endpoint} {asks : List Ask} {charges : List Charge}

theorem drives_pick {e : Option Endpoint} (hled : g.breakers.Led)
    (h : g.pick request candidates = (e, g')) : Drives [] g g' := by
  rw [frame_pick h]
  exact drives_nil hled rfl

theorem Asks.drives {rule : BreakerPolicy} {r : Option (Endpoint × BreakerId)}
    (h : Asks now request rule version g candidates asks r g') (hled : g.breakers.Led) :
    Drives ((asks.map .asked).filterMap Charge.told?) g g' := by
  induction h with
  | exhausted hp => exact drives_pick hled hp
  | granted hp ha =>
    have hpick := drives_pick hled hp
    exact hpick.trans (drives_askBreaker hpick.led ha)
  | refused hp ha _ ih =>
    have hpick := drives_pick hled hp
    have hask := drives_askBreaker hpick.led ha
    exact hpick.trans (hask.trans (ih hask.led))

theorem Chooses.drives {policy : ServicePolicy} {chosen : Option (Endpoint × Option BreakerId)}
    (h : Chooses now request policy g candidates asks chosen g') (hled : g.breakers.Led) :
    Drives ((asks.map .asked).filterMap Charge.told?) g g' := by
  cases h with
  | admitted _ ha => exact ha.drives hled
  | picked _ hp => exact drives_pick hled hp

theorem Chooses.asked {policy : ServicePolicy} {e : Endpoint} {id : BreakerId}
    (h : Chooses now request policy g candidates asks (some (e, some id)) g') :
    (id, ⟨.tryAcquire, true⟩) ∈ (asks.map .asked).filterMap Charge.told? := by
  generalize hc : some (e, some id) = chosen at h
  cases h with
  | @admitted _ _ r _ _ ha =>
    obtain ⟨refused, hasks, -⟩ := ha.split
    rcases r with _ | ⟨e', id'⟩ <;> simp at hc
    simp [hasks, Charge.told?, hc.2]
  | picked => simp at hc

theorem Selects.drives {i : Invocation} {answer : Except RouteError (Endpoint × Option BreakerId)}
    (h : Selects now i g candidates charges answer g') (hled : g.breakers.Led) :
    Drives (charges.filterMap Charge.told?) g g' := by
  cases h with
  | inaccessible | mislocated => exact drives_nil hled rfl
  | ungoverned _ _ hp => exact drives_pick hled hp
  | circuitOpen _ hc | unlimited _ hc => exact hc.drives hled
  | permitted _ hc =>
    have hchosen := hc.drives hled
    rw [List.filterMap_append]
    exact hchosen.trans (drives_nil hchosen.led rfl)
  | @limited _ _ _ _ admission g' _ limiters _ hc =>
    have hchosen := hc.drives hled
    have hspent : Drives [] g' { g' with limiters } := drives_nil hchosen.led rfl
    rw [List.filterMap_append]
    apply hchosen.trans
    cases admission with
    | none => exact hspent
    | some id =>
      have hlt : id < g'.made := hchosen.known _ hc.asked
      exact hspent.trans (drives_settle hspent.led hlt .release)

theorem Answers.drives {call : ContextCall} {a : call.Answer}
    (h : g.Answers now call charges a g') (hled : g.breakers.Led) :
    Drives (charges.filterMap Charge.told?) g g' := by
  cases h with
  | readiness | routingMode => exact drives_nil hled rfl
  | select hs => exact hs.drives hled

end Governance

namespace Fleet

open Governance (Drives drives_nil drives_hear)

variable {β : Type} [LoadBalancer β] {g g' : Governance β} {f f' : Flight} {es : List Entry}
  {log : List (Nat × Entry)} {s s' : Fleet β} {l : Option Pending}

theorem Moves.drives (h : Moves g f es f' g') (hled : g.breakers.Led) (hf : f.Owes l)
    (hl : ∀ p, l = some p → p.breaker < g.made) : Drives (es.filterMap Entry.told?) g g' := by
  cases h with
  | enter | call | wake | finish | abandon | cluster => exact drives_nil hled rfl
  | context _ ha =>
    have hanswer := ha.drives hled
    rw [List.filterMap_append, List.filterMap_map]
    exact hanswer.trans (drives_nil hanswer.led rfl)
  | @tell signal _ now =>
    have hmade : ∀ b r, signal = .report b r → b < g.made := by
      rintro b r rfl
      obtain ⟨p, rfl, rfl, -⟩ := hf.1
      exact hl p rfl
    have hhear : Drives _ g (g.hear now signal) := drives_hear hled hmade
    cases signal <;> exact hhear
  | @drop i =>
    rw [i.fst_drop, hf.admissions]
    cases l with
    | none => exact drives_nil hled rfl
    | some p => exact Governance.drives_settle hled (hl p rfl) .release

theorem Reaches.drives (h : Reaches g log s) (hled : g.breakers.Led) :
    Drives (log.filterMap (·.2.told?)) g s.context := by
  induction h with
  | start => exact drives_nil hled rfl
  | @step log _ s _ hreach hstep ih =>
    rw [List.filterMap_append]
    apply ih.trans
    cases hstep with
    | move n hm =>
      obtain ⟨l, hlog, hl⟩ := hreach.books n
      have hmade : ∀ p, l = some p → p.breaker < s.context.made := by
        rintro p rfl
        rcases hlog.last_grant with ⟨pre, e, mid, b, heq, hb, hmid⟩ | ⟨_, hnone, _⟩
        · have hmem : (n, e) ∈ log := Entry.mem_of_mem_ofOwner (by simp [heq])
          rw [hmid.breaker_eq]
          exact ih.known (b, _)
            (List.mem_filterMap.2 ⟨_, hmem, Entry.grant?_eq_some_iff.1 hb⟩)
        · cases hnone
      rw [List.filterMap_map]
      exact hm.drives ih.led hl hmade
    | readiness | sweepLimiters => exact drives_nil ih.led rfl
    | sweepBreakers => exact drives_nil ih.led.sweep rfl

end Fleet

end Turnpike
