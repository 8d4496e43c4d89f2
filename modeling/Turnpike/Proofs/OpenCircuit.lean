import Turnpike.Proofs.Origins

namespace Turnpike

namespace Breaker

structure OpenSince (policy : BreakerPolicy) (opening : Nat) (x : Breaker) : Prop where
  state_eq : x.state = .opened
  policy_eq : x.policy = policy
  openedAt_eq : x.openedAt = opening

variable {x x' : Breaker} {policy : BreakerPolicy} {opening now : Nat} {c : Call} {a : c.Answer}

theorem Responds.openSince (h : Responds x now c a x') (hne : x.state ≠ .opened)
    (hs : x'.state = .opened) : OpenSince x.policy now x' where
  state_eq := hs
  policy_eq := h.policy_eq
  openedAt_eq := by
    have hopening : (Passage.opening? ⟨now, ⟨c, a⟩, x.state, x'.state⟩).or none =
        some x'.openedAt := h.opening_eq (fun hs => absurd hs hne) hs
    simpa [Passage.opening?, hne, hs, eq_comm] using hopening

namespace OpenSince

theorem hasWaited_eq_false (h : x.OpenSince policy opening) (hle : opening ≤ now)
    (hnow : now < opening + policy.waitInOpenMs.toNat) : x.hasWaited now = false := by
  obtain ⟨-, rfl, rfl⟩ := h
  exact decide_eq_false (by omega)

theorem answer (h : x.OpenSince policy opening) (hle : opening ≤ now)
    (hnow : now < opening + policy.waitInOpenMs.toNat) (c : Call) :
    (x.answer now c).2 = x ∧ x.tryAcquire now = (false, x) := by
  have hrefused := tryAcquire_of_waiting h.state_eq (h.hasWaited_eq_false hle hnow)
  refine ⟨?_, hrefused⟩
  cases c with
  | tryAcquire => exact congrArg Prod.snd hrefused
  | settle report => exact settle_of_opened h.state_eq now report
  | stateAt => rfl

end OpenSince

end Breaker

namespace BreakerBank

structure Opens (b : BreakerBank) (now : Nat) (key : String) (id : BreakerId)
    (c : Breaker.Call) : Prop where
  leads : ∃ s, b.keyed.slot? key = some s ∧ s.value.value = id
  opens : ∃ x, b.breakers[id]? = some x ∧ x.state ≠ .opened ∧ (x.answer now c).2.state = .opened

variable {b b' : BreakerBank} {now last opening version : Nat} {key : String}
  {policy : BreakerPolicy} {id : BreakerId} {x : Breaker} {past part log : List (Nat × Record)}
  {event : Breaker.Event} {granted : Bool}

/-- An open breaker admits no one before its wait is over, whatever becomes of its key. -/
theorem Runs.refuses_open (h : b.Runs log) (hx : b.breakers[id]? = some x)
    (ho : x.OpenSince policy opening) (hordered : (opening :: log.map (·.1)).Pairwise (· ≤ ·))
    (hmem : (now, .used id ⟨.tryAcquire, granted⟩) ∈ log)
    (hnow : now < opening + policy.waitInOpenMs.toNat) : granted = false := by
  induction h generalizing x with
  | nil => cases hmem
  | handed hb h ih =>
    have hlater := hordered.sublist ((List.sublist_cons_self _ _).cons_cons _)
    have hlt : id < _ := (Array.getElem?_eq_some_iff.1 hx).1
    rcases List.mem_cons.1 hmem with heq | hmem
    · cases heq
    · exact ih ((getElem?_breaker_of_lt hb hlt).trans hx) ho hlater hmem
  | swept h ih =>
    have hlater := hordered.sublist ((List.sublist_cons_self _ _).cons_cons _)
    rcases List.mem_cons.1 hmem with heq | hmem
    · cases heq
    · exact ih hx ho hlater hmem
  | @used b b' t held c a log hlt ha h ih =>
    have hlater := hordered.sublist ((List.sublist_cons_self _ _).cons_cons _)
    have hle : opening ≤ t := List.rel_of_pairwise_cons hordered List.mem_cons_self
    -- It is asked later, and the wait is not over even then.
    have ht : t < opening + policy.waitInOpenMs.toNat := by
      refine Nat.lt_of_le_of_lt ?_ hnow
      rcases List.mem_cons.1 hmem with heq | hmem
      · exact Nat.le_of_eq (congrArg Prod.fst heq).symm
      · exact List.rel_of_pairwise_cons hordered.tail (List.mem_map_of_mem hmem)
    obtain ⟨hkept, hrefused⟩ := ho.answer hle ht c
    rcases List.mem_cons.1 hmem with heq | hmem
    · cases heq
      have hanswer : (b.answer now id .tryAcquire).1 = (x.answer now .tryAcquire).1 :=
        (answer_of_some .tryAcquire hx).1
      rw [ha] at hanswer
      exact hanswer.trans (congrArg Prod.fst hrefused)
    · refine ih ?_ ho hlater hmem
      obtain rfl : (b.answer t held c).2 = b' := congrArg Prod.snd ha
      by_cases hid : held = id
      · subst hid
        rw [(answer_of_some c hx).2, hkept]
      · rw [answer_of_ne c hid, hx]

theorem lastAccess_after {before : Option Nat} (hordered : (log.map (·.1)).Pairwise (· ≤ ·))
    (hb : ∀ s, b.keyed.slot? key = some s →
      before = some s.lastAccess ∧ ∀ r ∈ log, s.lastAccess ≤ r.1)
    {s : Slot (Versioned BreakerId)} (hs : (b.after log).keyed.slot? key = some s) :
    (uses key log).getLast?.or before = some s.lastAccess := by
  -- A hand-out of the key is what was before, for the rest of the run.
  induction log generalizing b before with
  | nil => exact (hb s hs).1
  | cons r log ih =>
    have hlater : ∀ s, b.keyed.slot? key = some s →
        before = some s.lastAccess ∧ ∀ r ∈ log, s.lastAccess ≤ r.1 := fun s hs =>
      ⟨(hb s hs).1, fun r hr => (hb s hs).2 r (List.mem_cons_of_mem _ hr)⟩
    obtain ⟨now, r⟩ := r
    cases r with
    | used id event =>
      exact ih hordered.tail (by rwa [keyed_answer]) hs
    | swept =>
      exact ih hordered.tail (fun s hs => hlater s (Expiring.of_slot?_sweep hs)) hs
    | handed other policy version id =>
      rcases hb' : b.breaker now other policy version with ⟨held, b'⟩
      rw [after, hb'] at hs
      by_cases hother : other = key
      · subst hother
        have hnow : ∀ s, b'.keyed.slot? other = some s → s.lastAccess = now := by
          intro s hs
          rw [(breaker_cases hb').1, Expiring.slot?_fetch fun s hs =>
            (hb s hs).2 _ List.mem_cons_self] at hs
          cases hs
          rfl
        have hlast : (uses other log).getLast?.or (some now) = some s.lastAccess :=
          ih hordered.tail (fun s hs => ?_) hs
        · rw [uses_handed, List.getLast?_cons]
          cases h : (uses other log).getLast? <;> simpa [h] using hlast
        · rw [hnow s hs]
          exact ⟨rfl, fun r hr => List.rel_of_pairwise_cons hordered (List.mem_map_of_mem hr)⟩
      · rw [uses_handed_of_ne hother]
        refine ih hordered.tail (fun s hs => ?_) hs
        rw [slot?_breaker_of_ne hb' (Ne.symm hother)] at hs
        exact hlater s (Expiring.of_slot?_sweepIfDue hs)

@[simp] theorem expireTime_after : (b.after log).keyed.expireTime = b.keyed.expireTime := by
  induction log generalizing b with
  | nil => rfl
  | cons r log ih =>
    obtain ⟨now, r⟩ := r
    cases r with
    | handed key policy version id => exact ih.trans (expireTime_breaker rfl)
    | used id event => exact ih.trans (by rw [keyed_answer])
    | swept => exact ih

theorem getLast?_uses (hempty : b.isEmpty = true) (hordered : (log.map (·.1)).Pairwise (· ≤ ·))
    {s : Slot (Versioned BreakerId)} (hs : (b.after log).keyed.slot? key = some s) :
    (uses key log).getLast? = some s.lastAccess := by
  have hlast : (uses key log).getLast?.or none = some s.lastAccess :=
    lastAccess_after hordered (fun s hs => by
      rw [Expiring.slot?_of_isEmpty hempty key] at hs
      cases hs) hs
  rwa [Option.or_none] at hlast

theorem Alike.of_subset (h : Alike key policy version log) (hsubset : part ⊆ log) :
    Alike key policy version part :=
  fun now policy' version' id hmem => h now policy' version' id (hsubset hmem)

theorem Runs.handed_again
    (h : b.Runs (log ++ [(now, .handed key policy version id)])) {own : BreakerId}
    (howns : Owns b key own x) (hs : b.keyed.slot? key = some ⟨⟨version, own⟩, last⟩)
    (halike : Alike key policy version (log ++ [(now, .handed key policy version id)]))
    (hordered : (last :: log.map (·.1) ++ [now]).Pairwise (· ≤ ·))
    (hclose : (last :: uses key log ++ [now]).IsChain fun t t' => t' < t + b.keyed.expireTime) :
    id = own := by
  have hsteady : Expiring.Steady b.keyed.expireTime last (·.isFor key)
      (log ++ [(now, .handed key policy version id)]) := by
    constructor
    · simpa using hordered
    · simpa [uses, Expiring.readings, Record.isFor] using hclose
  have hreserved := (h.of_held halike hsteady howns fun _ => hs).1
  exact (hreserved now key policy version id (List.mem_append_right _ List.mem_cons_self)).1 rfl

theorem owns_after (hempty : b.isEmpty = true) (halike : Alike key policy version past)
    {s : Slot (Versioned BreakerId)} (hs : (b.after past).keyed.slot? key = some s)
    (hx : (b.after past).breakers[s.value.value]? = some x) :
    x.policy = policy ∧ s.value.version = version ∧
      Owns (b.after past) key s.value.value x := by
  let P (k : String) (v : Nat) (p : BreakerPolicy) := k = key → p = policy ∧ v = version
  have hmade : (b.after past).MadeFor P :=
    MadeFor.after (MadeFor.of_isEmpty hempty) fun now k p v id hmem hk =>
      halike now p v id (hk ▸ hmem)
  have hapart : (b.after past).Apart :=
    Apart.after (.of_isEmpty hempty) (MadeFor.of_isEmpty (P := P) hempty).led
  obtain ⟨x', hx', hpolicy⟩ := hmade key s hs
  cases hx.symm.trans hx'
  exact ⟨(hpolicy rfl).1, (hpolicy rfl).2, hmade.led,
    fun other s' hs' heq => hapart other key s' s hs' hs heq, hx⟩

theorem of_ofConfig {config : KeyedConfig} {start : Nat} (h : ofConfig config start = .ok b) :
    b.isEmpty = true ∧ b.keyed.expireTime = config.expireTime.toNat := by
  unfold ofConfig at h
  cases hfallback : builtin.require config.strategy with
  | error e =>
    rw [hfallback] at h
    cases h
  | ok fallback =>
    rw [hfallback] at h
    cases h
    exact ⟨rfl, rfl⟩

/--
A breaker that a call opens admits no one before its wait is over, whoever holds it. Its key is
handed that breaker for as long as no two hand-outs in a row, from the last one before the opening
on, lie as far apart as the expiry time.
-/
theorem open_circuit_waits {config : KeyedConfig} {start : Nat}
    (hb : ofConfig config start = .ok b)
    (hruns : b.Runs (past ++ (opening, .used id event) :: part))
    (hordered : ((past ++ (opening, .used id event) :: part).map (·.1)).Pairwise (· ≤ ·))
    (halike : Alike key policy version (past ++ (opening, .used id event) :: part))
    (hopens : (b.after past).Opens opening key id event.call) :
    (∀ now granted, (now, .used id ⟨.tryAcquire, granted⟩) ∈ part →
      now < opening + policy.waitInOpenMs.toNat → granted = false) ∧
    ∀ mid now id' later, part = mid ++ (now, .handed key policy version id') :: later →
      ((uses key past).getLast?.toList ++ uses key mid ++ [now]).IsChain
        (fun t t' => t' < t + config.expireTime.toNat) → id' = id := by
  obtain ⟨hempty, hexpireTime⟩ := of_ofConfig hb
  obtain ⟨⟨s, hs, rfl⟩, x, hx, hclosed, hopened⟩ := hopens
  have hpast : Alike key policy version past := halike.of_subset (List.subset_append_left _ _)
  obtain ⟨rfl, rfl, howns⟩ := owns_after hempty hpast hs hx
  have hpart : Runs ((b.after past).answer opening s.value.value event.call).2 part := by
    cases (runs_append_iff.1 hruns).2 with
    | used _ ha h => exact ha ▸ h
  rw [List.map_append, List.pairwise_append] at hordered
  have howns : Owns ((b.after past).answer opening s.value.value event.call).2 key s.value.value
      (x.answer opening event.call).2 := howns.answer event.call
  have hopen := (Breaker.responds_answer x opening event.call).openSince hclosed hopened
  refine ⟨fun now granted hmem hnow =>
    hpart.refuses_open howns.breaker hopen hordered.2.1 hmem hnow, ?_⟩
  rintro mid now id' later rfl hclose
  rw [List.append_cons mid] at hpart hordered halike
  have hlast := getLast?_uses hempty hordered.1 hs
  have hmem : s.lastAccess ∈ past.map (·.1) :=
    Expiring.mem_of_mem_readings (List.mem_of_getLast? hlast)
  have hstretch : (mid ++ [(now, Record.handed key x.policy s.value.version id')]).Sublist
      ((opening, .used s.value.value event) ::
        (mid ++ [(now, .handed key x.policy s.value.version id')] ++ later)) :=
    (List.sublist_append_left _ _).cons _
  refine (runs_append_iff.1 hpart).1.handed_again howns (by rwa [keyed_answer]) ?_ ?_ ?_
  · exact halike.of_subset (List.subset_append_of_subset_right _ hstretch.subset)
  · have hreadings := hstretch.map (·.1)
    rw [List.map_append, List.map_singleton] at hreadings
    exact List.pairwise_cons.2
      ⟨fun t ht => hordered.2.2 _ hmem t (hreadings.mem ht), hordered.2.1.sublist hreadings⟩
  · rw [keyed_answer, expireTime_after, hexpireTime]
    rwa [hlast] at hclose

theorem open_circuit_of_key_in_use :
    let config : KeyedConfig := { strategy := "count", cleanInterval := 5, expireTime := 50 }
    let policy : BreakerPolicy :=
      { slidingWindowSize := 1, minimumCalls := 1, waitInOpenMs := 1000 }
    let past := [(0, .handed "a" policy 1 0)]
    let part := [(40, .swept), (45, .handed "a" policy 1 0), (45, .used 0 ⟨.tryAcquire, false⟩)]
    ∃ b, config.validate "circuitBreaker" = .ok () ∧ ofConfig config 0 = .ok b ∧
      policy.validate "s" = .ok () ∧
      b.Runs (past ++ (0, .used 0 ⟨.settle .error, ()⟩) :: part) ∧
      Alike "a" policy 1 (past ++ (0, .used 0 ⟨.settle .error, ()⟩) :: part) ∧
      (b.after past).Opens 0 "a" 0 (.settle .error) ∧
      ∀ now granted, (now, .used 0 ⟨.tryAcquire, granted⟩) ∈ part →
        now < 0 + policy.waitInOpenMs.toNat → granted = false := by
  intro config policy past part
  have halike : Alike "a" policy 1 (past ++ (0, .used 0 ⟨.settle .error, ()⟩) :: part) := by
    simp only [Alike, past, part]
    grind
  obtain ⟨b, hb, hruns, hopens⟩ : ∃ b, ofConfig config 0 = .ok b ∧
      b.Runs (past ++ (0, .used 0 ⟨.settle .error, ()⟩) :: part) ∧
      (b.after past).Opens 0 "a" 0 (.settle .error) := by
    refine ⟨_, rfl, ?_, ⟨_, rfl, by decide +kernel⟩, _, rfl, by decide +kernel⟩
    refine .handed (Prod.fst_eq_iff.1 (by decide +kernel)) ?_
    refine .used (by decide +kernel) rfl (.swept ?_)
    refine .handed (Prod.fst_eq_iff.1 (by decide +kernel)) ?_
    refine .used (by decide +kernel) (Prod.fst_eq_iff.1 (by decide +kernel)) ?_
    exact .nil
  exact ⟨b, by decide, hb, by decide +kernel, hruns, halike, hopens,
    (open_circuit_waits hb hruns (by decide) halike hopens).1⟩

/-- An open circuit with a wait of a thousand readings is forgotten after two. -/
theorem open_circuit_forgotten :
    let config : KeyedConfig := { strategy := "count", cleanInterval := 1, expireTime := 1 }
    let policy : BreakerPolicy :=
      { slidingWindowSize := 1, minimumCalls := 1, waitInOpenMs := 1000 }
    let past := [(0, .handed "a" policy 1 0)]
    let part := [(2, .handed "a" policy 1 1), (2, .used 1 ⟨.tryAcquire, true⟩)]
    ∃ b, config.validate "circuitBreaker" = .ok () ∧ ofConfig config 0 = .ok b ∧
      policy.validate "s" = .ok () ∧
      b.Runs (past ++ (0, .used 0 ⟨.settle .error, ()⟩) :: part) ∧
      Alike "a" policy 1 (past ++ (0, .used 0 ⟨.settle .error, ()⟩) :: part) ∧
      (b.after past).Opens 0 "a" 0 (.settle .error) ∧
      2 < 0 + policy.waitInOpenMs.toNat := by
  intro config policy past part
  refine ⟨_, by decide, rfl, by decide +kernel, ?_, ?_, ?_, by decide⟩
  · refine .handed (Prod.fst_eq_iff.1 (by decide +kernel)) ?_
    refine .used (by decide +kernel) rfl ?_
    refine .handed (Prod.fst_eq_iff.1 (by decide +kernel)) ?_
    refine .used (by decide +kernel) (Prod.fst_eq_iff.1 (by decide +kernel)) ?_
    exact .nil
  · simp only [Alike, past, part]
    grind
  · exact ⟨⟨_, rfl, by decide +kernel⟩, _, rfl, by decide +kernel⟩

end BreakerBank

end Turnpike
