import Turnpike.Proofs.Permits
import Turnpike.Proofs.PrivateState

namespace Turnpike

namespace LimiterBank

def after (b : LimiterBank) : List (Nat × Record) → LimiterBank
  | [] => b
  | (now, .asked key policy version _) :: log => (b.tryAcquire now key policy version).2.after log
  | (now, .swept) :: log => (b.sweep now).2.after log

def IsFor (b : LimiterBank) (policy : RateLimitPolicy) (l : Limiter) : Prop :=
  l.policy = policy ∧ l.strategy = b.strategies.choose policy.strategy b.fallback

/-- Every limiter that is held was made for a policy that its key may have under its version. -/
def MadeFor (P : String → Nat → RateLimitPolicy → Prop) (b : LimiterBank) : Prop :=
  ∀ key s, b.keyed.slot? key = some s →
    ∃ policy, P key s.value.version policy ∧ b.IsFor policy s.value.value

variable {b : LimiterBank} {now version : Nat} {key : String} {policy : RateLimitPolicy}
  {l : Limiter} {past part log : List (Nat × Record)} {P Q : String → Nat → RateLimitPolicy → Prop}

theorem isFor_create : b.IsFor policy (b.create policy now) :=
  ⟨Limiter.policy_create .., Limiter.strategy_create ..⟩

theorem IsFor.tryAcquire (h : b.IsFor policy l) : b.IsFor policy (l.tryAcquire now).2 := by
  obtain ⟨rfl, hstrategy⟩ := h
  exact ⟨Limiter.policy_tryAcquire .., (Limiter.strategy_tryAcquire ..).trans hstrategy⟩

namespace MadeFor

theorem of_isEmpty (h : b.isEmpty = true) : b.MadeFor P := by
  intro key s hs
  rw [Expiring.slot?_of_isEmpty h key] at hs
  cases hs

theorem mono (h : b.MadeFor P) (hP : ∀ key version policy, P key version policy →
    Q key version policy) : b.MadeFor Q := by
  intro key s hs
  obtain ⟨policy, hp, hfor⟩ := h key s hs
  exact ⟨policy, hP _ _ _ hp, hfor⟩

theorem decider (h : b.MadeFor P) (hp : P key version policy) (now : Nat) :
    ∃ policy', P key version policy' ∧ b.IsFor policy' (b.decider now key policy version) := by
  obtain ⟨last, hserves, -, -⟩ := exists_serves_decider b now key policy version
  generalize b.decider now key policy version = l at hserves
  cases hserves with
  | held hs => exact h key _ (Expiring.of_slot?_sweepIfDue hs)
  | made => exact ⟨policy, hp, isFor_create⟩

theorem tryAcquire (h : b.MadeFor P) (hp : P key version policy) (now : Nat) :
    (b.tryAcquire now key policy version).2.MadeFor P := by
  intro other s hs
  by_cases hother : other = key
  · subst hother
    obtain ⟨last, -, -, hslot⟩ := exists_serves_decider b now other policy version
    cases hslot.symm.trans hs
    obtain ⟨policy', hp', hfor⟩ := h.decider hp now
    exact ⟨policy', hp', hfor.tryAcquire⟩
  · rw [slot?_tryAcquire_of_ne hother] at hs
    exact h other s (Expiring.of_slot?_sweepIfDue hs)

theorem sweep (h : b.MadeFor P) (now : Nat) : (b.sweep now).2.MadeFor P :=
  fun key s hs => h key s (Expiring.of_slot?_sweep hs)

theorem after (h : b.MadeFor P) (hlog : ∀ now key policy version admitted,
      (now, .asked key policy version admitted) ∈ log → P key version policy) :
    (b.after log).MadeFor P := by
  induction log generalizing b with
  | nil => exact h
  | cons x log ih =>
    have hlater now key policy version admitted hmem :=
      hlog now key policy version admitted (List.mem_cons_of_mem x hmem)
    obtain ⟨now, r⟩ := x
    cases r with
    | asked key policy version admitted =>
      exact ih (h.tryAcquire (hlog _ _ _ _ _ List.mem_cons_self) now) hlater
    | swept => exact ih (h.sweep now) hlater

end MadeFor

end LimiterBank

namespace BreakerBank

def after (b : BreakerBank) : List (Nat × Record) → BreakerBank
  | [] => b
  | (now, .handed key policy version _) :: log => (b.breaker now key policy version).2.after log
  | (now, .used id event) :: log => (b.answer now id event.call).2.after log
  | (now, .swept) :: log => (b.sweep now).2.after log

def MadeFor (P : String → Nat → BreakerPolicy → Prop) (b : BreakerBank) : Prop :=
  ∀ key s, b.keyed.slot? key = some s →
    ∃ x, b.breakers[s.value.value]? = some x ∧ P key s.value.version x.policy

def Apart (b : BreakerBank) : Prop :=
  ∀ key other s s', b.keyed.slot? key = some s → b.keyed.slot? other = some s' →
    s.value.value = s'.value.value → key = other

variable {b b' : BreakerBank} {now version : Nat} {key : String} {policy : BreakerPolicy}
  {id : BreakerId} {x : Breaker} {past part log : List (Nat × Record)}
  {P Q : String → Nat → BreakerPolicy → Prop}

theorem runs_append_iff : b.Runs (past ++ part) ↔ b.Runs past ∧ (b.after past).Runs part := by
  induction past generalizing b with
  | nil => exact ⟨fun h => ⟨.nil, h⟩, And.right⟩
  | cons x past ih =>
    constructor
    · intro h
      cases h with
      | handed hb h =>
        obtain rfl := congrArg Prod.snd hb
        exact ⟨.handed hb (ih.1 h).1, (ih.1 h).2⟩
      | used hlt ha h =>
        obtain rfl := congrArg Prod.snd ha
        exact ⟨.used hlt ha (ih.1 h).1, (ih.1 h).2⟩
      | swept h => exact ⟨.swept (ih.1 h).1, (ih.1 h).2⟩
    · rintro ⟨h, hpart⟩
      cases h with
      | handed hb h =>
        obtain rfl := congrArg Prod.snd hb
        exact .handed hb (ih.2 ⟨h, hpart⟩)
      | used hlt ha h =>
        obtain rfl := congrArg Prod.snd ha
        exact .used hlt ha (ih.2 ⟨h, hpart⟩)
      | swept h => exact .swept (ih.2 ⟨h, hpart⟩)

theorem slot?_handed (hb : b.breaker now key policy version = (id, b'))
    {s : Slot (Versioned BreakerId)} (hs : b'.keyed.slot? key = some s) :
    s.value = ⟨version, id⟩ := by
  obtain ⟨hkeyed, rfl, -⟩ := breaker_cases hb
  rw [hkeyed] at hs
  rcases Expiring.of_slot?_fetch hs with ⟨hvalue, -⟩ | ⟨-, hne⟩
  · rw [hvalue]
    rcases Expiring.fetch_cases b.keyed now key (·.version == version)
      ⟨version, b.breakers.size⟩ with hmake | ⟨s, -, hversion, hfound⟩
    · rw [hmake]
    · rw [← hfound, ← eq_of_beq hversion]
  · exact absurd rfl hne

theorem exists_getElem?_answer {other : BreakerId} (h : b.breakers[id]? = some x) (now : Nat)
    (c : Breaker.Call) :
    ∃ x', (b.answer now other c).2.breakers[id]? = some x' ∧ x'.policy = x.policy := by
  by_cases hid : other = id
  · subst hid
    exact ⟨_, (answer_of_some c h).2, (Breaker.responds_answer x now c).policy_eq⟩
  · exact ⟨x, (answer_of_ne c hid).trans h, rfl⟩

namespace MadeFor

theorem of_isEmpty (h : b.isEmpty = true) : b.MadeFor P := by
  intro key s hs
  rw [Expiring.slot?_of_isEmpty h key] at hs
  cases hs

theorem mono (h : b.MadeFor P) (hP : ∀ key version policy, P key version policy →
    Q key version policy) : b.MadeFor Q := by
  intro key s hs
  obtain ⟨x, hx, hp⟩ := h key s hs
  exact ⟨x, hx, hP _ _ _ hp⟩

theorem led (h : b.MadeFor P) : b.Led := by
  intro key s hs
  obtain ⟨x, hx, -⟩ := h key s hs
  exact (Array.getElem?_eq_some_iff.1 hx).1

theorem handed (h : b.MadeFor P) (hp : P key version policy)
    (hb : b.breaker now key policy version = (id, b')) :
    ∃ x, b'.breakers[id]? = some x ∧ P key version x.policy := by
  obtain ⟨-, rfl, ⟨hid, hbreakers⟩ | ⟨hid, hbreakers⟩⟩ := breaker_cases hb
  · rw [hid, hbreakers]
    exact ⟨b.create policy, by simp, hp⟩
  · rcases Expiring.fetch_cases b.keyed now key (·.version == version)
      ⟨version, b.breakers.size⟩ with hmake | ⟨s, hs, hversion, hvalue⟩
    · exact absurd (congrArg Versioned.value hmake) hid
    · rw [hbreakers, ← hvalue, ← eq_of_beq hversion]
      exact h key s hs

theorem breaker (h : b.MadeFor P) (hp : P key version policy)
    (hb : b.breaker now key policy version = (id, b')) : b'.MadeFor P := by
  intro other s hs
  rcases of_slot?_breaker hb hs with ⟨-, rfl⟩ | ⟨hs, -⟩
  · rw [slot?_handed hb hs]
    exact h.handed hp hb
  · obtain ⟨x, hx, hp'⟩ := h other s hs
    have hlt : s.value.value < b.breakers.size := (Array.getElem?_eq_some_iff.1 hx).1
    exact ⟨x, (getElem?_breaker_of_lt hb hlt).trans hx, hp'⟩

theorem answer (h : b.MadeFor P) (now : Nat) (id : BreakerId) (c : Breaker.Call) :
    (b.answer now id c).2.MadeFor P := by
  intro key s hs
  rw [keyed_answer] at hs
  obtain ⟨x, hx, hp⟩ := h key s hs
  obtain ⟨x', hx', hpolicy⟩ := exists_getElem?_answer hx now c
  exact ⟨x', hx', hpolicy ▸ hp⟩

theorem sweep (h : b.MadeFor P) (now : Nat) : (b.sweep now).2.MadeFor P :=
  fun key s hs => h key s (Expiring.of_slot?_sweep hs)

theorem after (h : b.MadeFor P) (hlog : ∀ now key policy version id,
      (now, .handed key policy version id) ∈ log → P key version policy) :
    (b.after log).MadeFor P := by
  induction log generalizing b with
  | nil => exact h
  | cons x log ih =>
    have hlater now key policy version id hmem :=
      hlog now key policy version id (List.mem_cons_of_mem x hmem)
    obtain ⟨now, r⟩ := x
    cases r with
    | handed key policy version id =>
      exact ih (h.breaker (hlog _ _ _ _ _ List.mem_cons_self) rfl) hlater
    | used id event => exact ih (h.answer now id event.call) hlater
    | swept => exact ih (h.sweep now) hlater

end MadeFor

namespace Apart

theorem of_isEmpty (h : b.isEmpty = true) : b.Apart := by
  intro key other s s' hs
  rw [Expiring.slot?_of_isEmpty h key] at hs
  cases hs

theorem eq_of_handed (h : b.Apart) (hled : b.Led) {other : String}
    {s : Slot (Versioned BreakerId)} (hb : b.breaker now key policy version = (id, b'))
    (hs : b.keyed.slot? other = some s) (hid : s.value.value = id) : other = key := by
  rcases hled.found hb with ⟨rfl, -⟩ | ⟨-, -, s', hs', rfl⟩
  -- No key leads to a breaker that is new.
  · exact absurd hid (Nat.ne_of_lt (hled other s hs))
  · exact h other key s s' hs hs' hid

theorem breaker (h : b.Apart) (hled : b.Led)
    (hb : b.breaker now key policy version = (id, b')) : b'.Apart := by
  intro k other s s' hs hs' heq
  rcases of_slot?_breaker hb hs with ⟨hid, rfl⟩ | ⟨hs, hk⟩
  · rcases of_slot?_breaker hb hs' with ⟨-, rfl⟩ | ⟨hs', -⟩
    · rfl
    · exact (h.eq_of_handed hled hb hs' (heq.symm.trans hid)).symm
  · rcases of_slot?_breaker hb hs' with ⟨hid, rfl⟩ | ⟨hs', -⟩
    · exact h.eq_of_handed hled hb hs (heq.trans hid)
    · exact h k other s s' hs hs' heq

theorem answer (h : b.Apart) (now : Nat) (id : BreakerId) (c : Breaker.Call) :
    (b.answer now id c).2.Apart := by
  unfold Apart
  rwa [keyed_answer]

theorem sweep (h : b.Apart) (now : Nat) : (b.sweep now).2.Apart :=
  fun key other s s' hs hs' => h key other s s' (Expiring.of_slot?_sweep hs)
    (Expiring.of_slot?_sweep hs')

theorem after (h : b.Apart) (hled : b.Led) : (b.after log).Apart := by
  induction log generalizing b with
  | nil => exact h
  | cons x log ih =>
    obtain ⟨now, r⟩ := x
    cases r with
    | handed key policy version id => exact ih (h.breaker hled rfl) (hled.breaker rfl).1
    | used id event => exact ih (h.answer now id event.call) (hled.answer event.call)
    | swept => exact ih (h.sweep now) hled.sweep

end Apart

end BreakerBank

end Turnpike
