import Turnpike.Proofs.Charges
import Turnpike.Proofs.Origins

namespace Turnpike

/-! ### Keys -/

def joined (sep : Char) (p : String × String) : String := p.1 ++ String.singleton sep ++ p.2

def Recut (sep : Char) (p q : String × String) : Prop :=
  ∃ middle, q.1 = joined sep (p.1, middle) ∧ p.2 = joined sep (middle, q.2)

section

variable {sep : Char} {p q : String × String}

@[simp] theorem toList_joined : (joined sep p).toList = p.1.toList ++ sep :: p.2.toList := by
  simp [joined]

theorem append_cons_eq_append_cons_iff {α : Type} {x : α} {l r l' r' : List α} :
    l ++ x :: r = l' ++ x :: r' ↔ (l = l' ∧ r = r') ∨
      (∃ m, l' = l ++ x :: m ∧ r = m ++ x :: r') ∨ ∃ m, l = l' ++ x :: m ∧ r' = m ++ x :: r := by
  rw [List.append_eq_append_iff]
  constructor
  · rintro (⟨_ | ⟨y, m⟩, rfl, h⟩ | ⟨_ | ⟨y, m⟩, rfl, h⟩)
    · exact .inl ⟨by simp, by simpa using h⟩
    · obtain ⟨rfl, rfl⟩ := List.cons_eq_cons.1 h
      exact .inr (.inl ⟨m, rfl, rfl⟩)
    · exact .inl ⟨by simp, by simpa using h.symm⟩
    · obtain ⟨rfl, rfl⟩ := List.cons_eq_cons.1 h
      exact .inr (.inr ⟨m, rfl, rfl⟩)
  · rintro (⟨rfl, rfl⟩ | ⟨m, rfl, rfl⟩ | ⟨m, rfl, rfl⟩)
    · exact .inl ⟨[], by simp, rfl⟩
    · exact .inl ⟨x :: m, rfl, rfl⟩
    · exact .inr ⟨x :: m, rfl, rfl⟩

theorem recut_iff : Recut sep p q ↔ ∃ m, q.1.toList = p.1.toList ++ sep :: m ∧
    p.2.toList = m ++ sep :: q.2.toList := by
  constructor
  · rintro ⟨middle, hq, hp⟩
    exact ⟨middle.toList, by simp [hq], by simp [hp]⟩
  · rintro ⟨m, hq, hp⟩
    refine ⟨String.ofList m, ?_, ?_⟩ <;> rw [← String.toList_inj] <;> simp [hq, hp]

theorem joined_eq_joined_iff :
    joined sep p = joined sep q ↔ p = q ∨ Recut sep p q ∨ Recut sep q p := by
  rw [← String.toList_inj, toList_joined, toList_joined, append_cons_eq_append_cons_iff,
    String.toList_inj, String.toList_inj, ← Prod.ext_iff, recut_iff, recut_iff]

end

namespace OutboundRequest

theorem limitKey_eq (r : OutboundRequest) : r.limitKey = joined ':' (r.service, r.path) := by
  simp [limitKey, joined, toString]

theorem breakerKey_eq (r : OutboundRequest) (e : Endpoint) :
    r.breakerKey e = joined '@' (r.service, e.id) := by
  simp [breakerKey, joined, toString]

end OutboundRequest

/-! ### State of other keys -/

namespace Expiring

variable {α : Type}

structure Spares (now : Nat) (key : String) (m m' : Expiring α) : Prop where
  expireTime : m'.expireTime = m.expireTime
  slot : m'.slot? key = m.slot? key ∨
    m'.slot? key = (m.slot? key).filter (·.idle now < m.expireTime)

variable {m m' m'' : Expiring α} {now : Nat} {key : String} {s : Slot α}

namespace Spares

theorem refl : Spares now key m m := ⟨rfl, .inl rfl⟩

theorem of_slot? (h : Spares now key m m') (hs : m'.slot? key = some s) :
    m.slot? key = some s := by
  rcases h.slot with hslot | hslot
  · rw [← hslot, hs]
  · exact (Option.filter_eq_some_iff.1 (hslot ▸ hs)).1

theorem trans (h : Spares now key m m') (h' : Spares now key m' m'') : Spares now key m m'' := by
  refine ⟨h'.expireTime.trans h.expireTime, ?_⟩
  rcases h.slot with hslot | hslot <;> rcases h'.slot with hslot' | hslot'
  · exact .inl (hslot'.trans hslot)
  · exact .inr (by rw [hslot', hslot, h.expireTime])
  · exact .inr (hslot'.trans hslot)
  · exact .inr (by rw [hslot', hslot, h.expireTime, Option.filter_filter]; simp)

end Spares

theorem spares_sweepIfDue (m : Expiring α) (now : Nat) (key : String) :
    Spares now key m (m.sweepIfDue now) := by
  refine ⟨expireTime_sweepIfDue .., ?_⟩
  rw [slot?_sweepIfDue]
  split
  · exact .inl rfl
  · exact .inr rfl

end Expiring

theorem LimiterBank.spares_tryAcquire (b : LimiterBank) (now version : Nat)
    (policy : RateLimitPolicy) {key other : String} (h : other ≠ key) :
    b.keyed.Spares now other (b.tryAcquire now key policy version).2.keyed := by
  have hsweep := b.keyed.spares_sweepIfDue now other
  exact ⟨expireTime_tryAcquire, slot?_tryAcquire_of_ne h ▸ hsweep.slot⟩

namespace BreakerBank

/-- A key keeps its breaker, unless it has been idle too long, and the breaker is as it was. -/
structure Spares (now : Nat) (key : String) (b b' : BreakerBank) : Prop where
  keyed : b.keyed.Spares now key b'.keyed
  breaker : ∀ s, b'.keyed.slot? key = some s →
    b'.breakers[s.value.value]? = b.breakers[s.value.value]?

structure Tidy (b : BreakerBank) : Prop where
  led : b.Led
  apart : b.Apart

def Sole (b : BreakerBank) (key : String) (id : BreakerId) : Prop := ∃ x, b.Owns key id x

variable {b b' b'' : BreakerBank} {now version : Nat} {key other : String}
  {policy : BreakerPolicy} {id held : BreakerId}

theorem Spares.refl : Spares now key b b := ⟨.refl, fun _ _ => rfl⟩

theorem Spares.trans (h : Spares now key b b') (h' : Spares now key b' b'') :
    Spares now key b b'' :=
  ⟨h.keyed.trans h'.keyed, fun s hs =>
    (h'.breaker s hs).trans (h.breaker s (h'.keyed.of_slot? hs))⟩

theorem Tidy.of_isEmpty (h : b.isEmpty = true) : b.Tidy where
  led key s hs := by
    rw [Expiring.slot?_of_isEmpty h key] at hs
    cases hs
  apart := .of_isEmpty h

namespace Sole

theorem sweep (h : b.Sole key id) (now : Nat) : (b.sweep now).2.Sole key id := by
  obtain ⟨x, hx⟩ := h
  exact ⟨x, hx.sweep⟩

theorem answer (h : b.Sole key id) (now : Nat) (held : BreakerId) (c : Breaker.Call) :
    (b.answer now held c).2.Sole key id := by
  obtain ⟨x, hx⟩ := h
  by_cases hid : held = id
  · subst hid
    exact ⟨_, hx.answer c⟩
  · exact ⟨x, hx.answer_of_ne hid c⟩

theorem breaker (h : b.Sole key id) (hb : b.breaker now other policy version = (held, b')) :
    b'.Sole key id := by
  obtain ⟨x, hx⟩ := h
  refine ⟨x, (hx.led.breaker hb).1, fun k s hs hid => ?_, ?_⟩
  · rcases of_slot?_breaker hb hs with ⟨rfl, rfl⟩ | ⟨hs, -⟩
    · by_contra hne
      exact (hx.breaker_of_ne hne hb).1 hid
    · exact hx.alone k s hs hid
  · rw [getElem?_breaker_of_lt hb hx.lt, hx.breaker]

end Sole

namespace Tidy

theorem sweep (h : b.Tidy) (now : Nat) : (b.sweep now).2.Tidy :=
  ⟨h.led.sweep, h.apart.sweep now⟩

theorem answer (h : b.Tidy) (now : Nat) (id : BreakerId) (c : Breaker.Call) :
    (b.answer now id c).2.Tidy :=
  ⟨h.led.answer c, h.apart.answer now id c⟩

theorem breaker (h : b.Tidy) (hb : b.breaker now key policy version = (id, b')) : b'.Tidy :=
  ⟨(h.led.breaker hb).1, h.apart.breaker h.led hb⟩

theorem sole_of_handed (h : b.Tidy) (hb : b.breaker now key policy version = (id, b')) :
    b'.Sole key id := by
  obtain ⟨hled, hlt, -⟩ := h.led.breaker hb
  refine ⟨_, hled, fun k s hs hid => ?_, Array.getElem?_eq_getElem hlt⟩
  rcases of_slot?_breaker hb hs with ⟨-, rfl⟩ | ⟨hs, -⟩
  · rfl
  · exact h.apart.eq_of_handed h.led hb hs hid

end Tidy

/-- What happens to a bank under some keys: it says nothing of the breakers of other keys. -/
structure Confined (now : Nat) (keys : List String) (b b' : BreakerBank) : Prop where
  tidy : b'.Tidy
  spares {key : String} : key ∉ keys → b.Spares now key b'
  sole {key : String} {id : BreakerId} : b.Sole key id → b'.Sole key id

variable {keys keys' : List String}

theorem Confined.refl (h : b.Tidy) : Confined now [] b b := ⟨h, fun _ => .refl, fun h => h⟩

theorem Confined.trans (h : Confined now keys b b') (h' : Confined now keys' b' b'') :
    Confined now (keys ++ keys') b b'' where
  tidy := h'.tidy
  spares hkey := by
    rw [List.mem_append, not_or] at hkey
    exact (h.spares hkey.1).trans (h'.spares hkey.2)
  sole hs := h'.sole (h.sole hs)

theorem Tidy.confined_breaker (h : b.Tidy)
    (hb : b.breaker now key policy version = (id, b')) : Confined now [key] b b' where
  tidy := h.breaker hb
  spares hother := by
    have hne := mt List.mem_singleton.2 hother
    refine ⟨⟨expireTime_breaker hb, ?_⟩, fun s hs => ?_⟩
    · rw [slot?_breaker_of_ne hb hne]
      exact (b.keyed.spares_sweepIfDue now _).slot
    · rw [slot?_breaker_of_ne hb hne] at hs
      exact getElem?_breaker_of_lt hb (h.led _ s (Expiring.of_slot?_sweepIfDue hs))
  sole hs := hs.breaker hb

theorem Sole.spares_answer (h : b.Sole key id) (c : Breaker.Call) (hne : other ≠ key) :
    b.Spares now other (b.answer now id c).2 := by
  obtain ⟨x, hx⟩ := h
  refine ⟨⟨by rw [keyed_answer], .inl (by rw [keyed_answer])⟩, fun s hs => ?_⟩
  rw [keyed_answer] at hs
  exact answer_of_ne c fun hid => hne (hx.alone other s hs hid.symm)

theorem Tidy.confined_answer (h : b.Tidy) (hs : b.Sole key id) (c : Breaker.Call) :
    Confined now [key] b (b.answer now id c).2 where
  tidy := h.answer now id c
  spares hother := hs.spares_answer c (mt List.mem_singleton.2 hother)
  sole hsole := hsole.answer now id c

end BreakerBank

namespace Governance

open BreakerBank (Confined Tidy)

variable {β : Type} {now version : Nat} {request : OutboundRequest} {rule : BreakerPolicy}
  {g g' g'' : Governance β} {e : Endpoint} {id : BreakerId}

theorem confined_askBreaker {granted : Bool} (hg : g.breakers.Tidy)
    (h : g.askBreaker now request rule version e = ((granted, id), g')) :
    Confined now [request.breakerKey e] g.breakers g'.breakers ∧
      g'.breakers.Sole (request.breakerKey e) id := by
  unfold askBreaker at h
  rcases hbank : g.breakers.breaker now (request.breakerKey e) rule version with ⟨id', bank⟩
  rcases hask : bank.tryAcquire now id' with ⟨granted', bank'⟩
  simp only [hbank, hask] at h
  cases h
  obtain rfl : (bank.answer now id .tryAcquire).2 = bank' := congrArg Prod.snd hask
  have hsole := hg.sole_of_handed hbank
  have hhanded := hg.confined_breaker hbank
  have hasked : Confined now _ bank _ := hhanded.tidy.confined_answer hsole .tryAcquire
  exact ⟨⟨hasked.tidy, fun hkey => (hhanded.spares hkey).trans (hasked.spares hkey),
    fun hs => hasked.sole (hhanded.sole hs)⟩, hsole.answer now id .tryAcquire⟩

variable [LoadBalancer β] {candidates located : List Endpoint} {asks : List Ask}

theorem Asks.confined {r : Option (Endpoint × BreakerId)}
    (h : Asks now request rule version g candidates asks r g') (hg : g.breakers.Tidy) :
    Confined now (asks.map (request.breakerKey ·.endpoint)) g.breakers g'.breakers ∧
      ∀ e id, r = some (e, id) → g'.breakers.Sole (request.breakerKey e) id := by
  induction h with
  | exhausted hp =>
    rw [frame_pick hp]
    exact ⟨.refl hg, nofun⟩
  | granted hp ha =>
    have hpicked := congrArg (·.breakers) (frame_pick hp)
    dsimp only at hpicked
    obtain ⟨hconfined, hsole⟩ := confined_askBreaker (hpicked ▸ hg) ha
    refine ⟨hpicked ▸ hconfined, ?_⟩
    rintro _ _ ⟨⟩
    exact hsole
  | refused hp ha _ ih =>
    have hpicked := congrArg (·.breakers) (frame_pick hp)
    dsimp only at hpicked
    have hconfined := (confined_askBreaker (hpicked ▸ hg) ha).1
    obtain ⟨hlater, hsole⟩ := ih hconfined.tidy
    exact ⟨(hpicked ▸ hconfined).trans hlater, hsole⟩

theorem Chooses.confined {policy : ServicePolicy} {chosen : Option (Endpoint × Option BreakerId)}
    (h : Chooses now request policy g located asks chosen g') (hg : g.breakers.Tidy) :
    Confined now (asks.map (request.breakerKey ·.endpoint)) g.breakers g'.breakers ∧
      ∀ e id, chosen = some (e, some id) → g'.breakers.Sole (request.breakerKey e) id := by
  cases h with
  | @admitted _ _ r _ _ ha =>
    obtain ⟨hconfined, hsole⟩ := ha.confined hg
    refine ⟨hconfined, fun e id hc => ?_⟩
    obtain ⟨⟨e', id'⟩, hr, hc⟩ := Option.map_eq_some_iff.1 hc
    cases hc
    exact hsole e id hr
  | picked _ hp =>
    rw [frame_pick hp]
    exact ⟨.refl hg, by simp⟩

section Selects

variable {i : Invocation} {charges : List Charge}
  {answer : Except RouteError (Endpoint × Option BreakerId)}

theorem Selects.spares_limiters (h : Selects now i g candidates charges answer g') {key : String}
    (hkey : key ≠ i.request.limitKey) : g.limiters.keyed.Spares now key g'.limiters.keyed := by
  have hspares {limit : RateLimitPolicy} {version : Nat} {permitted : Bool}
      {limiters : LimiterBank}
      (ht : g.limiters.tryAcquire now i.request.limitKey limit version = (permitted, limiters)) :
      g.limiters.keyed.Spares now key limiters.keyed := by
    obtain rfl := congrArg Prod.snd ht
    exact LimiterBank.spares_tryAcquire g.limiters now version limit hkey
  cases h with
  | inaccessible | mislocated => exact .refl
  | ungoverned _ _ hp =>
    rw [frame_pick hp]
    exact .refl
  | circuitOpen _ hc | unlimited _ hc =>
    rw [hc.frame]
    exact .refl
  | permitted _ _ _ ht => exact hspares ht
  | @limited _ _ _ _ admission _ _ _ _ _ _ ht =>
    cases admission <;> exact hspares ht

theorem Selects.confined (h : Selects now i g candidates charges answer g')
    (hg : g.breakers.Tidy) :
    (∃ keys, Confined now keys g.breakers g'.breakers ∧
      ∀ key ∈ keys, ∃ c ∈ candidates, key = i.request.breakerKey c) ∧
    ∀ e id, answer = .ok (e, some id) → g'.breakers.Sole (i.request.breakerKey e) id := by
  have hkeys {policy : ServicePolicy} {located : List Endpoint} {asks : List Ask}
      {chosen : Option (Endpoint × Option BreakerId)} {g'' : Governance β}
      (hl : g.Locates i candidates policy located)
      (hc : Chooses now i.request policy g located asks chosen g'') :
      ∀ key ∈ asks.map (i.request.breakerKey ·.endpoint),
        ∃ c ∈ candidates, key = i.request.breakerKey c := by
    intro key hkey
    obtain ⟨a, ha, rfl⟩ := List.mem_map.1 hkey
    have hlocated := RoutingRules.subset_of_locate hl.located (hc.mem a ha)
    exact ⟨a.endpoint, (List.mem_filter.1 hlocated).1, rfl⟩
  cases h with
  | inaccessible | mislocated => exact ⟨⟨[], .refl hg, nofun⟩, nofun⟩
  | ungoverned _ _ hp =>
    rw [frame_pick hp]
    exact ⟨⟨[], .refl hg, nofun⟩, nofun⟩
  | circuitOpen hl hc => exact ⟨⟨_, (hc.confined hg).1, hkeys hl hc⟩, nofun⟩
  | unlimited hl hc | permitted hl hc =>
    obtain ⟨hconfined, hsole⟩ := hc.confined hg
    refine ⟨⟨_, hconfined, hkeys hl hc⟩, ?_⟩
    rintro _ id ⟨⟩
    exact hsole _ id rfl
  | @limited _ located asks e admission g'' _ limiters hl hc =>
    obtain ⟨hconfined, hsole⟩ := hc.confined hg
    refine ⟨?_, nofun⟩
    cases admission with
    | none => exact ⟨_, hconfined, hkeys hl hc⟩
    | some id =>
      refine ⟨_, hconfined.trans (hconfined.tidy.confined_answer (hsole e id rfl)
        (.settle .release)), fun key hkey => ?_⟩
      rcases List.mem_append.1 hkey with hkey | hkey
      · exact hkeys hl hc key hkey
      · have hlocated := RoutingRules.subset_of_locate hl.located (hc.split e _ rfl).1
        exact ⟨e, (List.mem_filter.1 hlocated).1, List.mem_singleton.1 hkey⟩

end Selects

inductive Step : Governance β → Governance β → Prop
  | answer {g : Governance β} (now : Nat) (call : ContextCall) : Step g (g.answer now call).2
  | hear {g : Governance β} (now : Nat) (signal : Signal) : Step g (g.hear now signal)
  | readiness {g : Governance β} (readiness : Readiness) : Step g { g with readiness }
  | sweepLimiters {g : Governance β} (now : Nat) :
    Step g { g with limiters := (g.limiters.sweep now).2 }
  | sweepBreakers {g : Governance β} (now : Nat) :
    Step g { g with breakers := (g.breakers.sweep now).2 }

abbrev Later : Governance β → Governance β → Prop := Relation.ReflTransGen Step

theorem Step.tidy (h : Step g g') (hg : g.breakers.Tidy) :
    g'.breakers.Tidy ∧ ∀ key id, g.breakers.Sole key id → g'.breakers.Sole key id := by
  cases h with
  | answer now call =>
    cases call with
    | readiness | routingMode => exact ⟨hg, fun _ _ h => h⟩
    | select i candidates =>
      obtain ⟨_, hs⟩ := selects_iff.2 (Prod.mk.eta (p := g.select now i candidates)).symm
      obtain ⟨⟨_, hconfined, -⟩, -⟩ := hs.confined hg
      exact ⟨hconfined.tidy, fun _ _ h => hconfined.sole h⟩
  | hear now signal =>
    cases signal with
    | report id report =>
      exact ⟨hg.answer now id (.settle report), fun _ _ h => h.answer now id (.settle report)⟩
    | _ => exact ⟨hg, fun _ _ h => h⟩
  | readiness | sweepLimiters => exact ⟨hg, fun _ _ h => h⟩
  | sweepBreakers now => exact ⟨hg.sweep now, fun _ _ h => h.sweep now⟩

theorem Later.tidy (h : Later g g') (hg : g.breakers.Tidy) :
    g'.breakers.Tidy ∧ ∀ key id, g.breakers.Sole key id → g'.breakers.Sole key id := by
  induction h with
  | refl => exact ⟨hg, fun _ _ h => h⟩
  | tail _ hstep ih =>
    obtain ⟨htidy, hsole⟩ := ih
    obtain ⟨htidy', hsole'⟩ := hstep.tidy htidy
    exact ⟨htidy', fun key id h => hsole' key id (hsole key id h)⟩

end Governance

/--
Different targets have one key exactly if they are one text cut at different separators. What is
selected under other keys, and what becomes of it, leaves the limiter and the breaker of a key
alone.
-/
theorem keys_separate_targets {β : Type} [LoadBalancer β] {g₀ g g' : Governance β} {now : Nat}
    {i : Invocation} {candidates : List Endpoint}
    {answer : Except RouteError (Endpoint × Option BreakerId)}
    (hempty : g₀.breakers.isEmpty = true) (hlater : g₀.Later g)
    (h : g.select now i candidates = (answer, g')) :
    (∀ r r' : OutboundRequest, r.limitKey = r'.limitKey ↔
      (r.service, r.path) = (r'.service, r'.path) ∨
        Recut ':' (r.service, r.path) (r'.service, r'.path) ∨
        Recut ':' (r'.service, r'.path) (r.service, r.path)) ∧
    (∀ (r r' : OutboundRequest) (e e' : Endpoint), r.breakerKey e = r'.breakerKey e' ↔
      (r.service, e.id) = (r'.service, e'.id) ∨
        Recut '@' (r.service, e.id) (r'.service, e'.id) ∨
        Recut '@' (r'.service, e'.id) (r.service, e.id)) ∧
    (∀ key ≠ i.request.limitKey, g.limiters.keyed.Spares now key g'.limiters.keyed) ∧
    (∀ key, (∀ c ∈ candidates, key ≠ i.request.breakerKey c) →
      g.breakers.Spares now key g'.breakers) ∧
    ∀ c id, answer = .ok (c, some id) → ∀ g'', g'.Later g'' → ∀ now' report key,
      key ≠ i.request.breakerKey c →
        g''.breakers.Spares now' key (g''.hear now' (.report id report)).breakers := by
  obtain ⟨charges, hs⟩ := Governance.selects_iff.2 h
  have hg := (Governance.Later.tidy hlater (.of_isEmpty hempty)).1
  obtain ⟨⟨keys, hconfined, hkeys⟩, hsole⟩ := hs.confined hg
  refine ⟨fun r r' => ?_, fun r r' e e' => ?_, fun key hkey => hs.spares_limiters hkey,
    fun key hkey => hconfined.spares fun hmem => ?_, ?_⟩
  · rw [r.limitKey_eq, r'.limitKey_eq, joined_eq_joined_iff]
  · rw [r.breakerKey_eq, r'.breakerKey_eq, joined_eq_joined_iff]
  · obtain ⟨c, hc, rfl⟩ := hkeys key hmem
    exact hkey c hc rfl
  · intro c id hanswer g'' hlater' now' report key hkey
    have hlast := (Governance.Later.tidy hlater' hconfined.tidy).2 _ _ (hsole c id hanswer)
    exact hlast.spares_answer (.settle report) hkey

/-- The failure of a call to one service, and the breaker of another service. -/
theorem key_spared_by_failure_elsewhere :
    let e : Endpoint := { id := "e", host := "h", port := 1 }
    let policy : ServicePolicy := { service := "s", circuitBreaker := some {} }
    let i : Invocation := {
      request := { id := ⟨⟨List.replicate 16 0, rfl⟩⟩, service := "s", path := "/" }
      policy := some policy }
    let g : Governance := {
      readiness := ⟨.ready, .policyReady⟩, routingMode := .reuse
      limiters := ⟨.empty, .fixedWindow, ⟨30000, 60000, 0, .empty⟩⟩
      breakers := ⟨.empty, .count, ⟨30000, 60000, 0, .empty⟩, #[]⟩
      balancer := .roundRobinStart }
    ∃ g', g.select 0 i [e] = (.ok (e, some 0), g') ∧
      ∀ g'', g'.Later g'' →
        g''.breakers.Spares 5 "t@e" (g''.hear 5 (.report 0 .error)).breakers := by
  intro e policy i g
  have hasks : Governance.Asks 0 i.request {} policy.version.toNat g [e] [⟨e, 0, true⟩]
      (some (e, 0)) _ :=
    .granted rfl rfl
  have hchooses := Governance.Chooses.admitted (show policy.circuitBreaker = some {} from rfl) hasks
  have hselects : Governance.Selects 0 i g [e] _ (.ok (e, some 0)) _ :=
    .unlimited ⟨List.cons_ne_nil e [], rfl, rfl⟩ hchooses rfl
  have h := (keys_separate_targets rfl .refl hselects.eq_select).2.2.2.2 e 0 rfl
  exact ⟨_, hselects.eq_select, fun g'' hlater => h g'' hlater 5 .error "t@e" (by decide)⟩

/-- Two targets of which one spends the permit of the other. -/
theorem targets_under_one_key :
    let e : Endpoint := { id := "e", host := "h", port := 1 }
    let policy : ServicePolicy := {
      service := "s", rateLimit := some { permits := 1, windowMs := 60000 } }
    let i : Invocation := {
      request := { id := ⟨⟨List.replicate 16 0, rfl⟩⟩, service := "a:b", path := "c" }
      policy := some policy }
    let i' : Invocation := {
      request := { id := ⟨⟨List.replicate 16 0, rfl⟩⟩, service := "a", path := "b:c" }
      policy := some policy }
    let g : Governance := {
      readiness := ⟨.ready, .policyReady⟩, routingMode := .reuse
      limiters := ⟨.empty, .fixedWindow, ⟨30000, 60000, 0, .empty⟩⟩
      breakers := ⟨.empty, .count, ⟨30000, 60000, 0, .empty⟩, #[]⟩
      balancer := .roundRobinStart }
    (i.service, i.request.path) ≠ (i'.service, i'.request.path) ∧
      i.request.limitKey = i'.request.limitKey ∧
      (g.select 0 i' [e]).1 = .ok (e, none) ∧
      ((g.select 0 i [e]).2.select 0 i' [e]).1 =
        .error (.rejected (LimiterBank.rejection i'.request.limitKey)) ∧
      { i.request with service := "a@b" }.breakerKey { e with id := "c" } =
        i'.request.breakerKey { e with id := "b@c" } := by
  intro e policy i i' g
  refine ⟨by decide, rfl, rfl, by decide +kernel, rfl⟩

end Turnpike
