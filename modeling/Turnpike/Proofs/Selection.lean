import Turnpike.Proofs.Location

namespace Turnpike

/-! ### Asking breakers -/

structure Ask where
  endpoint : Endpoint
  breaker : BreakerId
  granted : Bool
  deriving DecidableEq

namespace Governance

variable {β : Type} [LoadBalancer β] {now version : Nat} {request : OutboundRequest}
  {policy : BreakerPolicy} {g g' g'' : Governance β} {candidates : List Endpoint}
  {asks : List Ask} {r : Option (Endpoint × BreakerId)}

inductive Asks (now : Nat) (request : OutboundRequest) (policy : BreakerPolicy) (version : Nat) :
    Governance β → List Endpoint → List Ask → Option (Endpoint × BreakerId) → Governance β → Prop
  | exhausted {g g' : Governance β} {candidates : List Endpoint} :
    g.pick request candidates = (none, g') →
    Asks now request policy version g candidates [] none g'
  | granted {g g' g'' : Governance β} {candidates : List Endpoint} {e : Endpoint}
      {id : BreakerId} :
    g.pick request candidates = (some e, g') →
    g'.askBreaker now request policy version e = ((true, id), g'') →
    Asks now request policy version g candidates [⟨e, id, true⟩] (some (e, id)) g''
  | refused {g g' g'' g''' : Governance β} {candidates : List Endpoint} {e : Endpoint}
      {id : BreakerId} {asks : List Ask} {r : Option (Endpoint × BreakerId)} :
    g.pick request candidates = (some e, g') →
    g'.askBreaker now request policy version e = ((false, id), g'') →
    Asks now request policy version g'' (without e candidates) asks r g''' →
    Asks now request policy version g candidates (⟨e, id, false⟩ :: asks) r g'''

theorem admitted_eq : g.admitted now request policy version candidates =
    match g.pick request candidates with
    | (none, g') => (none, g')
    | (some e, g') =>
      match g'.askBreaker now request policy version e with
      | ((true, id), g'') => (some (e, id), g'')
      | ((false, _), g'') => g''.admitted now request policy version (without e candidates) := by
  rw [admitted]
  split <;> rename_i h <;> simp only [h]
  rename_i g'
  rcases g'.askBreaker now request policy version _ with ⟨⟨_ | _, id⟩, g''⟩ <;> rfl

theorem asks_admitted (now : Nat) (request : OutboundRequest) (policy : BreakerPolicy)
    (version : Nat) (g : Governance β) (candidates : List Endpoint) : ∃ asks,
    Asks now request policy version g candidates asks
      (g.admitted now request policy version candidates).1
      (g.admitted now request policy version candidates).2 := by
  induction hn : candidates.length using Nat.strongRecOn generalizing g candidates with
  | ind n ih =>
    rw [admitted_eq]
    rcases hp : g.pick request candidates with ⟨_ | e, g'⟩
    · exact ⟨[], .exhausted hp⟩
    · rcases ha : g'.askBreaker now request policy version e with ⟨⟨_ | _, id⟩, g''⟩
      · have hlt := length_without_lt (mem_of_pick (congrArg Prod.fst hp))
        obtain ⟨asks, h⟩ := ih _ (hn ▸ hlt) g'' (without e candidates) rfl
        simp only [ha]
        exact ⟨_, .refused hp ha h⟩
      · simp only [ha]
        exact ⟨_, .granted hp ha⟩

theorem Asks.eq_admitted (h : Asks now request policy version g candidates asks r g') :
    g.admitted now request policy version candidates = (r, g') := by
  induction h with
  | exhausted hp => rw [admitted_eq, hp]
  | granted hp ha => rw [admitted_eq, hp]; simp only [ha]
  | refused hp ha _ ih => rw [admitted_eq, hp]; simp only [ha, ih]

theorem Asks.mem (h : Asks now request policy version g candidates asks r g') :
    ∀ a ∈ asks, a.endpoint ∈ candidates := by
  induction h with
  | exhausted => simp
  | granted hp => simpa using mem_of_pick (congrArg Prod.fst hp)
  | refused hp _ _ ih =>
    intro a ha
    rcases List.mem_cons.1 ha with rfl | ha
    · exact mem_of_pick (congrArg Prod.fst hp)
    · exact (List.mem_filter.1 (ih a ha)).1

theorem Asks.nodup (h : Asks now request policy version g candidates asks r g') :
    (asks.map (·.endpoint.id)).Nodup := by
  induction h with
  | exhausted => simp
  | granted => simp
  | @refused _ _ _ _ _ e _ _ _ _ _ h ih =>
    refine List.nodup_cons.2 ⟨?_, ih⟩
    intro hmem
    obtain ⟨a, ha, hid⟩ := List.mem_map.1 hmem
    exact absurd hid (by simpa using (List.mem_filter.1 (h.mem a ha)).2)

theorem Asks.split (h : Asks now request policy version g candidates asks r g') :
    ∃ refused, asks = refused ++ r.toList.map (fun (e, id) => ⟨e, id, true⟩) ∧
      ∀ a ∈ refused, a.granted = false := by
  induction h with
  | exhausted => exact ⟨[], rfl, by simp⟩
  | granted => exact ⟨[], rfl, by simp⟩
  | @refused _ _ _ _ _ e id _ _ _ _ _ ih =>
    obtain ⟨refused, rfl, hr⟩ := ih
    exact ⟨⟨e, id, false⟩ :: refused, rfl, by simpa using hr⟩

theorem Asks.covers (h : Asks now request policy version g candidates asks none g') :
    ∀ e ∈ candidates, ∃ a ∈ asks, a.endpoint.id = e.id := by
  generalize hr : (none : Option (Endpoint × BreakerId)) = r at h
  induction h with
  | @exhausted g g' candidates hp =>
    rcases candidates with _ | ⟨e, es⟩
    · simp
    · have := LoadBalancer.isSome_pick g.balancer request (List.cons_ne_nil e es)
      simp [pick, Prod.map, Prod.ext_iff] at hp
      simp [hp.1] at this
  | granted => cases hr
  | @refused _ _ _ _ _ e _ _ _ _ _ _ ih =>
    intro e' he'
    by_cases hid : e'.id = e.id
    · exact ⟨_, List.mem_cons_self .., hid.symm⟩
    · obtain ⟨a, ha, h⟩ := ih hr e' (List.mem_filter.2 ⟨he', by simpa using hid⟩)
      exact ⟨a, List.mem_cons_of_mem _ ha, h⟩

theorem Asks.eq_none_iff (h : Asks now request policy version g candidates asks r g') :
    r = none ↔ ∀ e ∈ candidates, ∃ a ∈ asks, a.endpoint.id = e.id ∧ a.granted = false := by
  obtain ⟨refused, hasks, hr⟩ := h.split
  constructor
  · rintro rfl e he
    obtain ⟨a, ha, hid⟩ := h.covers e he
    exact ⟨a, ha, hid, hr a (by simpa [hasks] using ha)⟩
  · intro hall
    rcases r with _ | ⟨e, id⟩
    · rfl
    · have hnodup := h.nodup
      obtain ⟨a, ha, hid, hg⟩ := hall e (h.mem ⟨e, id, true⟩ (by simp [hasks]))
      rw [hasks] at ha hnodup
      rcases List.mem_append.1 ha with ha | ha
      · simp only [List.map_append, List.nodup_append] at hnodup
        exact absurd hid (hnodup.2.2 _ (List.mem_map_of_mem ha) _ (by simp))
      · simp_all

theorem frame_pick {e : Option Endpoint} (h : g.pick request candidates = (e, g')) :
    g' = { g with balancer := g'.balancer } := by
  obtain rfl : (g.pick request candidates).2 = g' := congrArg Prod.snd h
  rfl

omit [LoadBalancer β] in
theorem frame_askBreaker {e : Endpoint} {answer : Bool × BreakerId}
    (h : g.askBreaker now request policy version e = (answer, g')) :
    g' = { g with breakers := g'.breakers } := by
  obtain rfl : (g.askBreaker now request policy version e).2 = g' := congrArg Prod.snd h
  rfl

theorem Asks.frame (h : Asks now request policy version g candidates asks r g') :
    g' = { g with breakers := g'.breakers, balancer := g'.balancer } := by
  induction h with
  | exhausted hp => rw [frame_pick hp]
  | granted hp ha => rw [frame_askBreaker ha, frame_pick hp]
  | refused hp ha _ ih => rw [ih, frame_askBreaker ha, frame_pick hp]

/-! ### Admissions -/

theorem Asks.breaker (h : Asks now request policy version g candidates asks r g') :
    ∀ e id, r = some (e, id) → ∃ b : Breaker, (b.tryAcquire now).1 = true ∧
      g'.breakers.breakers[id]? = some (b.tryAcquire now).2 := by
  induction h with
  | exhausted => simp
  | @granted _ g' g'' _ e id _ ha =>
    rintro _ _ ⟨⟩
    unfold askBreaker at ha
    rcases hb : g'.breakers.breaker now (request.breakerKey e) policy version with ⟨id', bank⟩
    rw [hb] at ha
    unfold BreakerBank.tryAcquire at ha
    cases hg : bank.breakers[id']? with
    | none => simp [hg] at ha
    | some b =>
      simp only [hg, Prod.mk.injEq] at ha
      obtain ⟨⟨hgrant, rfl⟩, rfl⟩ := ha
      have hlt : id' < bank.breakers.size := (Array.getElem?_eq_some_iff.1 hg).1
      exact ⟨b, hgrant, by simp [hlt]⟩
  | refused _ _ _ ih => exact ih

end Governance

def BreakerBank.put (b : BreakerBank) (id : BreakerId) (breaker : Breaker) : BreakerBank :=
  { b with breakers := b.breakers.setIfInBounds id breaker }

namespace Breaker

theorem release_grantTrial {b : Breaker} (h : b.grantTrial.1 = true) (hs : b.state = .halfOpen) :
    b.grantTrial.2.release = b := by
  cases b
  cases hs
  unfold grantTrial at h ⊢
  split at h
  · simp [*, release]
  · cases h

@[simp] theorem state_grantTrial (b : Breaker) : b.grantTrial.2.state = b.state := by
  unfold grantTrial
  split <;> rfl

theorem release_of_tryAcquire {b : Breaker} {now : Nat} (h : (b.tryAcquire now).1 = true) :
    (b.tryAcquire now).2.release = { b with state := (b.tryAcquire now).2.state } := by
  unfold tryAcquire at h ⊢
  rcases b with ⟨policy, _ | _ | _, window, failures, openedAt, granted, passed⟩
  · rfl
  · simp only at h ⊢
    split at h
    · rename_i hw
      rw [if_pos hw, release_grantTrial h rfl, state_grantTrial]
    · cases h
  · simp only at h ⊢
    rw [release_grantTrial h rfl, state_grantTrial]

end Breaker

namespace Governance

variable {β : Type} [LoadBalancer β] {now : Nat} {request : OutboundRequest}
  {policy : ServicePolicy} {g g' : Governance β} {candidates accessible located : List Endpoint}
  {asks : List Ask} {chosen : Option (Endpoint × Option BreakerId)} {i : Invocation}

/-! ### Selecting -/

def inForce (g : Governance β) (i : Invocation) : Option ServicePolicy :=
  if g.readiness.governed then i.policy else none

inductive Chooses (now : Nat) (request : OutboundRequest) (policy : ServicePolicy)
    (g : Governance β) (located : List Endpoint) :
    List Ask → Option (Endpoint × Option BreakerId) → Governance β → Prop
  | admitted {rule : BreakerPolicy} {asks : List Ask} {r : Option (Endpoint × BreakerId)}
      {g' : Governance β} :
    policy.circuitBreaker = some rule →
    Asks now request rule policy.version.toNat g located asks r g' →
    Chooses now request policy g located asks (r.map fun (e, id) => (e, some id)) g'
  | picked {e : Endpoint} {g' : Governance β} :
    policy.circuitBreaker = none →
    g.pick request located = (some e, g') →
    Chooses now request policy g located [] (some (e, none)) g'

theorem exists_pick (g : Governance β) (request : OutboundRequest) (h : candidates ≠ []) :
    ∃ e ∈ candidates, ∃ balancer,
      LoadBalancer.pick g.balancer request candidates = (some e, balancer) ∧
      g.pick request candidates = (some e, { g with balancer }) := by
  obtain ⟨e, he⟩ := Option.isSome_iff_exists.1 (LoadBalancer.isSome_pick g.balancer request h)
  refine ⟨e, LoadBalancer.mem_of_pick he, _, Prod.ext he rfl, Prod.ext he rfl⟩

theorem exists_chooses (g : Governance β) (now : Nat) (request : OutboundRequest)
    (policy : ServicePolicy) (h : located ≠ []) :
    ∃ asks chosen g', Chooses now request policy g located asks chosen g' := by
  cases hrule : policy.circuitBreaker with
  | some rule =>
    obtain ⟨asks, ha⟩ := asks_admitted now request rule policy.version.toNat g located
    exact ⟨asks, _, _, .admitted hrule ha⟩
  | none =>
    obtain ⟨e, -, _, -, hp⟩ := exists_pick g request h
    exact ⟨[], _, _, .picked hrule hp⟩

theorem Chooses.eq_balanced (h : Chooses now request policy g located asks chosen g') :
    g.balanced now request policy located =
      (chosen.elim (.error (.rejected (BreakerBank.rejection policy.service))) .ok, g') := by
  cases h with
  | @admitted rule _ r _ hrule ha =>
    simp only [balanced, hrule, ha.eq_admitted]
    rcases r with _ | ⟨e, id⟩ <;> rfl
  | picked hrule hp =>
    simp only [balanced, hrule, hp]
    rfl

theorem Chooses.frame (h : Chooses now request policy g located asks chosen g') :
    g' = { g with breakers := g'.breakers, balancer := g'.balancer } := by
  cases h with
  | admitted _ ha => rw [ha.frame]
  | picked _ hp => rw [frame_pick hp]

theorem Chooses.mem (h : Chooses now request policy g located asks chosen g') :
    ∀ a ∈ asks, a.endpoint ∈ located := by
  cases h with
  | admitted _ ha => exact ha.mem
  | picked => simp

theorem Chooses.nodup (h : Chooses now request policy g located asks chosen g') :
    (asks.map (·.endpoint.id)).Nodup := by
  cases h with
  | admitted _ ha => exact ha.nodup
  | picked => simp

theorem Chooses.eq_none_iff (h : Chooses now request policy g located asks chosen g') :
    chosen = none ↔ ∀ e ∈ located, ∃ a ∈ asks, a.endpoint.id = e.id ∧ a.granted = false := by
  cases h with
  | admitted _ ha => rw [Option.map_eq_none_iff, ha.eq_none_iff]
  | @picked e _ _ hp => simpa using ⟨e, mem_of_pick (congrArg Prod.fst hp)⟩

theorem Chooses.split (h : Chooses now request policy g located asks chosen g') :
    ∀ e admission, chosen = some (e, admission) → e ∈ located ∧
      ∃ refused, asks = refused ++ admission.toList.map (⟨e, ·, true⟩) ∧
        ∀ a ∈ refused, a.granted = false := by
  cases h with
  | @admitted _ _ r _ _ ha =>
    obtain ⟨refused, hasks, hr⟩ := ha.split
    rintro e admission hc
    obtain ⟨⟨e', id⟩, rfl, hc⟩ := Option.map_eq_some_iff.1 hc
    cases hc
    exact ⟨ha.mem ⟨e, id, true⟩ (by simp [hasks]), refused, hasks, hr⟩
  | picked _ hp =>
    rintro e admission ⟨⟩
    exact ⟨mem_of_pick (congrArg Prod.fst hp), [], rfl, by simp⟩

theorem Chooses.breaker (h : Chooses now request policy g located asks chosen g') :
    ∀ e id, chosen = some (e, some id) → ∃ b : Breaker, (b.tryAcquire now).1 = true ∧
      g'.breakers.breakers[id]? = some (b.tryAcquire now).2 := by
  cases h with
  | admitted _ ha =>
    intro e id hc
    obtain ⟨⟨e', id'⟩, hr, hc⟩ := Option.map_eq_some_iff.1 hc
    cases hc
    exact ha.breaker e id hr
  | picked => simp

theorem Chooses.breakers_eq (h : Chooses now request policy g located asks chosen g') :
    ∀ e, chosen = some (e, none) → g'.breakers = g.breakers := by
  cases h with
  | admitted _ ha =>
    intro e hc
    obtain ⟨_, _, hc⟩ := Option.map_eq_some_iff.1 hc
    cases hc
  | picked _ hp =>
    intro _ _
    rw [frame_pick hp]

omit [LoadBalancer β] in
theorem settle_release {id : BreakerId} {b : Breaker} (hb : (b.tryAcquire now).1 = true)
    (h : g.breakers.breakers[id]? = some (b.tryAcquire now).2) :
    g.settle now id .release = { g with
      breakers := g.breakers.put id { b with state := (b.tryAcquire now).2.state } } := by
  unfold settle BreakerBank.settle BreakerBank.put
  rw [← Breaker.release_of_tryAcquire hb]
  congr 2
  apply Array.ext_getElem?
  intro k
  rw [Array.getElem?_modify, Array.getElem?_setIfInBounds]
  split
  · subst k
    rw [h, if_pos (Array.getElem?_eq_some_iff.1 h).1]
    rfl
  · rfl

theorem select_of_inaccessible (h : candidates.filter (·.isAccessible) = []) :
    g.select now i candidates = (.error (.noProvider i.service), g) := by
  simp [select, h]

theorem select_of_ungoverned {e : Endpoint} (hne : candidates.filter (·.isAccessible) ≠ [])
    (h : g.inForce i = none)
    (hp : g.pick i.request (candidates.filter (·.isAccessible)) = (some e, g')) :
    g.select now i candidates = (.ok (e, none), g') := by
  unfold inForce at h
  unfold select
  rw [if_neg (by simpa [List.isEmpty_iff] using hne)]
  simp only [hp]
  split
  · simp_all
  · rfl

theorem select_of_governed (hne : candidates.filter (·.isAccessible) ≠ [])
    (h : g.inForce i = some policy) : g.select now i candidates =
      g.selectUnder now i.request policy (candidates.filter (·.isAccessible)) := by
  unfold inForce at h
  unfold select
  rw [if_neg (by simpa [List.isEmpty_iff] using hne)]
  split at h
  · rename_i hg
    rw [h, hg]
  · cases h

theorem selectUnder_of_mislocated (hl : policy.routing.locate accessible = none) :
    g.selectUnder now request policy accessible = (.error (.noProvider request.service), g) := by
  simp only [selectUnder, hl]

theorem selectUnder_of_none (hl : policy.routing.locate accessible = some located)
    (h : Chooses now request policy g located asks none g') :
    g.selectUnder now request policy accessible =
      (.error (.rejected (BreakerBank.rejection policy.service)), g') := by
  simp only [selectUnder, hl, h.eq_balanced]
  rfl

section Chosen

variable {e : Endpoint} {admission : Option BreakerId} {limit : RateLimitPolicy}
  {limiters : LimiterBank} (hl : policy.routing.locate accessible = some located)
  (h : Chooses now request policy g located asks (some (e, admission)) g')
include hl h

theorem selectUnder_of_unlimited (hlimit : policy.rateLimit = none) :
    g.selectUnder now request policy accessible = (.ok (e, admission), g') := by
  simp only [selectUnder, hl, h.eq_balanced, hlimit]
  rfl

theorem selectUnder_of_permitted (hlimit : policy.rateLimit = some limit)
    (ht : g.limiters.tryAcquire now request.limitKey limit policy.version.toNat =
      (true, limiters)) :
    g.selectUnder now request policy accessible =
      (.ok (e, admission), { g' with limiters }) := by
  rw [← show g'.limiters = g.limiters by rw [h.frame]] at ht
  simp only [selectUnder, hl, h.eq_balanced, hlimit, Option.elim_some, ht]
  rfl

theorem selectUnder_of_limited (hlimit : policy.rateLimit = some limit)
    (ht : g.limiters.tryAcquire now request.limitKey limit policy.version.toNat =
      (false, limiters)) :
    g.selectUnder now request policy accessible =
      (.error (.rejected (LimiterBank.rejection request.limitKey)),
        admission.elim { g' with limiters } fun id =>
          { g' with limiters }.settle now id .release) := by
  rw [← show g'.limiters = g.limiters by rw [h.frame]] at ht
  simp only [selectUnder, hl, h.eq_balanced, hlimit, Option.elim_some, ht]
  rfl

end Chosen

theorem exists_selectUnder_of_limited {e : Endpoint} {admission : Option BreakerId}
    {limit : RateLimitPolicy} {limiters : LimiterBank}
    (hl : policy.routing.locate accessible = some located)
    (h : Chooses now request policy g located asks (some (e, admission)) g')
    (hlimit : policy.rateLimit = some limit)
    (ht : g.limiters.tryAcquire now request.limitKey limit policy.version.toNat =
      (false, limiters)) :
    ∃ breakers, g.selectUnder now request policy accessible =
        (.error (.rejected (LimiterBank.rejection request.limitKey)),
          { g' with limiters, breakers }) ∧
      (admission = none → breakers = g.breakers) ∧
      ∀ id, admission = some id → ∃ b b' : Breaker, b.tryAcquire now = (true, b') ∧
        g'.breakers.breakers[id]? = some b' ∧
        breakers = g'.breakers.put id { b with state := b'.state } := by
  rw [selectUnder_of_limited hl h hlimit ht]
  cases admission with
  | none =>
    exact ⟨g'.breakers, rfl, fun _ => h.breakers_eq e rfl, by simp⟩
  | some id =>
    obtain ⟨b, hb, hid⟩ := h.breaker e id rfl
    refine ⟨g'.breakers.put id { b with state := (b.tryAcquire now).2.state }, ?_, by simp, ?_⟩
    · rw [Option.elim_some, settle_release (g := { g' with limiters }) hb hid]
    · rintro _ ⟨⟩
      exact ⟨b, _, Prod.ext hb rfl, hid, rfl⟩

theorem selectUnder_eq_circuitOpen_iff (hl : policy.routing.locate accessible = some located)
    (h : Chooses now request policy g located asks chosen g') :
    (g.selectUnder now request policy accessible).1 =
      .error (.rejected (BreakerBank.rejection policy.service)) ↔ chosen = none := by
  rcases chosen with _ | ⟨e, admission⟩
  · simp [selectUnder_of_none hl h]
  · cases hlimit : policy.rateLimit with
    | none => simp [selectUnder_of_unlimited hl h hlimit]
    | some limit =>
      rcases ht : g.limiters.tryAcquire now request.limitKey limit policy.version.toNat with
        ⟨_ | _, limiters⟩
      · simp [selectUnder_of_limited hl h hlimit ht, LimiterBank.rejection, BreakerBank.rejection]
      · simp [selectUnder_of_permitted hl h hlimit ht]

end Governance

end Turnpike
