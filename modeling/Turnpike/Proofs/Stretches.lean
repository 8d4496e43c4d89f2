import Turnpike.Proofs.Permits
import Turnpike.Proofs.PrivateState

/-!
Calls for one key under several versions of its policy, in any order, as a call in flight makes them
after an update. A bank holds one limiter for a key: each stretch of calls under one version starts
with a new one, whether the version before it was older or newer.
-/

namespace Turnpike

namespace LimiterBank

def Record.version? (key : String) : Record → Option Nat
  | .asked other _ version _ => if other = key then some version else none
  | .swept => none

def versions (key : String) (log : List (Nat × Record)) : List Nat :=
  log.filterMap (·.2.version? key)

def admittedUnder (key : String) (version : Nat) (log : List (Nat × Record)) : Nat :=
  log.countP fun (_, r) => r.version? key = some version ∧ r.answer? key = some true

def stretches (key : String) (version : Nat) (log : List (Nat × Record)) : Nat :=
  ((versions key log).destutter (· ≠ ·)).count version

variable {b b' : LimiterBank} {now last version version' : Nat} {key other : String}
  {policy policy' : RateLimitPolicy} {l : Limiter} {log past part : List (Nat × Record)}
  {admitted : Bool}

@[simp] theorem versions_asked :
    versions key ((now, .asked key policy version admitted) :: log) =
      version :: versions key log := by
  simp [versions, Record.version?]

theorem versions_asked_of_ne (h : other ≠ key) :
    versions key ((now, .asked other policy version admitted) :: log) = versions key log := by
  simp [versions, Record.version?, h]

@[simp] theorem versions_swept : versions key ((now, .swept) :: log) = versions key log := rfl

theorem admittedUnder_asked :
    admittedUnder key version ((now, .asked key policy version' admitted) :: log) =
      (if version' = version then admitted.toNat else 0) + admittedUnder key version log := by
  cases admitted <;>
    simp [admittedUnder, Record.version?, Record.answer?, List.countP_cons, Nat.add_comm]

theorem admittedUnder_of_other {r : Record} (h : r.version? key = none) :
    admittedUnder key version ((now, r) :: log) = admittedUnder key version log := by
  simp [admittedUnder, h]

/-! ### What a bank remembers of a key -/

structure Remembers (b₀ : LimiterBank) (key : String) (log : List (Nat × Record))
    (b : LimiterBank) : Prop where
  strategies_eq : b.strategies = b₀.strategies
  fallback_eq : b.fallback = b₀.fallback
  expireTime_eq : b.keyed.expireTime = b₀.keyed.expireTime
  version_eq : ∀ s, b.keyed.slot? key = some s →
    (versions key log).getLast? = some s.value.version
  made_for : ∀ s, b.keyed.slot? key = some s → ∃ t policy admitted,
    (t, .asked key policy s.value.version admitted) ∈ log ∧ s.value.value.policy = policy ∧
      s.value.value.strategy = b₀.strategies.choose policy.strategy b₀.fallback

namespace Remembers

variable {b₀ : LimiterBank}

theorem start (hempty : b.isEmpty = true) : Remembers b key [] b where
  strategies_eq := rfl
  fallback_eq := rfl
  expireTime_eq := rfl
  version_eq := by simp [Expiring.slot?, Dict.get?_of_isEmpty hempty key]
  made_for := by simp [Expiring.slot?, Dict.get?_of_isEmpty hempty key]

theorem create_eq (h : Remembers b₀ key log b) (policy : RateLimitPolicy) (now : Nat) :
    b.create policy now = b₀.create policy now := by
  unfold create
  rw [h.strategies_eq, h.fallback_eq]

theorem versions_concat (r : Record) :
    versions key (log ++ [(now, r)]) = versions key log ++ (r.version? key).toList := by
  unfold versions
  rw [List.filterMap_append]
  cases h : r.version? key <;> simp [h]

theorem of_other (h : Remembers b₀ key log b) {r : Record} (hr : r.version? key = none)
    (hstrategies : b'.strategies = b.strategies) (hfallback : b'.fallback = b.fallback)
    (hexpireTime : b'.keyed.expireTime = b.keyed.expireTime)
    (hslot : ∀ s, b'.keyed.slot? key = some s → b.keyed.slot? key = some s) :
    Remembers b₀ key (log ++ [(now, r)]) b' where
  strategies_eq := hstrategies.trans h.strategies_eq
  fallback_eq := hfallback.trans h.fallback_eq
  expireTime_eq := hexpireTime.trans h.expireTime_eq
  version_eq s hs := by
    rw [versions_concat, hr, Option.toList_none, List.append_nil]
    exact h.version_eq s (hslot s hs)
  made_for s hs := by
    obtain ⟨t, policy, admitted, hmem, hmade⟩ := h.made_for s (hslot s hs)
    exact ⟨t, policy, admitted, List.mem_append_left _ hmem, hmade⟩

theorem asked (h : Remembers b₀ key log b)
    (ha : b.tryAcquire now other policy version = (admitted, b')) :
    Remembers b₀ key (log ++ [(now, .asked other policy version admitted)]) b' := by
  have hb' : (b.tryAcquire now other policy version).2 = b' := congrArg Prod.snd ha
  have hexpireTime : b'.keyed.expireTime = b.keyed.expireTime := hb' ▸ expireTime_tryAcquire
  by_cases hother : other = key
  · subst hother
    obtain ⟨l, last, hserves, -, hslot⟩ := exists_serves b now other policy version
    rw [hb'] at hslot
    refine ⟨hb' ▸ h.strategies_eq, hb' ▸ h.fallback_eq, hexpireTime.trans h.expireTime_eq,
      fun s hs => ?_, fun s hs => ?_⟩
    · cases hslot.symm.trans hs
      simp [versions_concat, Record.version?]
    · cases hslot.symm.trans hs
      simp only [Limiter.policy_tryAcquire, Limiter.strategy_tryAcquire]
      cases hserves with
      | held hheld =>
        obtain ⟨t, policy', admitted', hmem, hmade⟩ :=
          h.made_for _ (Expiring.of_slot?_sweepIfDue hheld)
        exact ⟨t, policy', admitted', List.mem_append_left _ hmem, hmade⟩
      | made =>
        rw [h.create_eq]
        exact ⟨now, policy, admitted, List.mem_append_right _ List.mem_cons_self,
          Limiter.policy_create .., Limiter.strategy_create ..⟩
  · refine h.of_other (by simp [Record.version?, hother]) (hb' ▸ rfl) (hb' ▸ rfl) hexpireTime ?_
    intro s hs
    rw [← hb', slot?_tryAcquire_of_ne (Ne.symm hother)] at hs
    exact Expiring.of_slot?_sweepIfDue hs

theorem swept (h : Remembers b₀ key log b) (now : Nat) :
    Remembers b₀ key (log ++ [(now, .swept)]) (b.sweep now).2 :=
  h.of_other rfl rfl rfl rfl fun _ hs => Expiring.of_slot?_sweep hs

end Remembers

theorem Runs.exists_remembers {b₀ : LimiterBank} {before : List (Nat × Record)}
    (h : Runs b (past ++ part)) (hb : Remembers b₀ key before b) :
    ∃ b', Remembers b₀ key (before ++ past) b' ∧ Runs b' part := by
  induction past generalizing b before with
  | nil => exact ⟨b, by rwa [List.append_nil], h⟩
  | cons x past ih =>
    rw [List.append_cons]
    cases h with
    | asked ha h => exact ih h (hb.asked ha)
    | swept h => exact ih h (hb.swept _)

/-! ### At one reading -/

def AlikeUnder (key : String) (policy : RateLimitPolicy) (version : Nat)
    (log : List (Nat × Record)) : Prop :=
  ∀ now policy' admitted, (now, .asked key policy' version admitted) ∈ log → policy' = policy

/--
What may still be admitted under a version before it is turned to again: what its own limiter holds,
and by convention a whole lot of permits if another limiter is held.
-/
def Allows (policy : RateLimitPolicy) (version now : Nat) (v : Versioned Limiter) (n : Nat) :
    Prop :=
  if v.version = version then v.value.Holds now n else n = policy.permits.toNat

theorem AlikeUnder.tail {x : Nat × Record} (h : AlikeUnder key policy version (x :: log)) :
    AlikeUnder key policy version log :=
  fun now policy' admitted hmem => h now policy' admitted (List.mem_cons_of_mem x hmem)

variable {n : Nat} {v : Versioned Limiter}

theorem tryAcquire_at (hexpire : 0 < b.keyed.expireTime)
    (hslot : b.keyed.slot? key = some ⟨v, last⟩) (hlast : now ≤ last) :
    ∃ l last', now ≤ last' ∧
      (b.tryAcquire now key policy version).1 = (l.tryAcquire now).1 ∧
      (b.tryAcquire now key policy version).2.keyed.slot? key =
        some ⟨⟨version, (l.tryAcquire now).2⟩, last'⟩ ∧
      l = if v.version = version then v.value else b.create policy now := by
  have hkept := Expiring.slot?_sweepIfDue_of_idle hslot (Slot.idle_lt_of_le hlast hexpire)
  obtain ⟨l, last', hserves, hanswer, hnext⟩ := exists_serves b now key policy version
  cases hserves with
  | held hheld =>
    cases hkept.symm.trans hheld
    exact ⟨l, _, Nat.le_max_right .., hanswer, hnext, (if_pos rfl).symm⟩
  | made hstale => exact ⟨_, now, Nat.le_refl now, hanswer, hnext, (if_neg (hstale _ hkept)).symm⟩

theorem count_destutter' (version version' v : Nat) (rest : List Nat) :
    ((version' :: rest).destutter' (· ≠ ·) v).count version =
      (if v = version ∧ version' ≠ version then 1 else 0) +
        (rest.destutter' (· ≠ ·) version').count version := by
  rw [List.destutter'_cons]
  by_cases hsame : v = version'
  · subst hsame
    simp
  · rw [if_pos hsame, List.count_cons, Nat.add_comm]
    by_cases hv : v = version
    · subst hv
      simp [Ne.symm hsame]
    · simp [hv]

theorem exists_allows (hl : version' = version →
      l.policy = policy ∧ Limiter.Counts l.strategy policy) :
    ∃ k, Allows policy version now ⟨version', (l.tryAcquire now).2⟩ k ∧
      (if version' = version then (l.tryAcquire now).1.toNat else 0) + k ≤
        policy.permits.toNat := by
  unfold Allows
  by_cases hversion' : version' = version
  · obtain ⟨rfl, hcounts⟩ := hl hversion'
    obtain ⟨k, hk, hholds⟩ := Limiter.exists_holds_tryAcquire hcounts
    simp only [if_pos hversion']
    exact ⟨k, hholds, hk⟩
  · simp only [if_neg hversion']
    exact ⟨policy.permits.toNat, rfl, Nat.le_of_eq (Nat.zero_add _)⟩

theorem Allows.tryAcquire (h : Allows policy version now v n)
    (hheld : v.version = version' → l = v.value)
    (hmade : v.version ≠ version' → version' = version →
      l.policy = policy ∧ Limiter.Counts l.strategy policy) :
    ∃ k, Allows policy version now ⟨version', (l.tryAcquire now).2⟩ k ∧
      (if version' = version then (l.tryAcquire now).1.toNat else 0) + k ≤
        n + policy.permits.toNat * (if v.version = version ∧ version' ≠ version then 1 else 0) := by
  by_cases hsame : v.version = version'
  · obtain rfl := hheld hsame
    subst hsame
    unfold Allows at h ⊢
    by_cases hversion : v.version = version
    · simp only [if_pos hversion] at h ⊢
      obtain ⟨k, hk, hholds⟩ := h.tryAcquire
      exact ⟨k, hholds, Nat.le_add_right_of_le hk⟩
    · simp only [if_neg hversion] at h ⊢
      exact ⟨n, h, Nat.le_add_right_of_le (Nat.le_of_eq (Nat.zero_add n))⟩
  · obtain ⟨k, hallows, hle⟩ := exists_allows (hmade hsame)
    refine ⟨k, hallows, Nat.le_trans hle ?_⟩
    unfold Allows at h
    by_cases hversion : v.version = version
    · have hversion' : version' ≠ version := fun he => hsame (hversion.trans he.symm)
      rw [if_pos ⟨hversion, hversion'⟩, Nat.mul_one]
      exact Nat.le_add_left ..
    · rw [if_neg hversion] at h
      exact h ▸ Nat.le_add_right ..

theorem Runs.admittedUnder_le (h : Runs b log) (hexpire : 0 < b.keyed.expireTime)
    (hnow : ∀ x ∈ log, x.1 = now) (hsame : AlikeUnder key policy version log)
    (hcounts : Limiter.Counts (b.strategies.choose policy.strategy b.fallback) policy)
    (hslot : b.keyed.slot? key = some ⟨v, last⟩) (hlast : now ≤ last)
    (hallows : Allows policy version now v n) :
    admittedUnder key version log + policy.permits.toNat ≤
      n + policy.permits.toNat *
        ((versions key log).destutter' (· ≠ ·) v.version).count version := by
  induction h generalizing v last n with
  | nil =>
    unfold Allows at hallows
    split at hallows
    · simp [admittedUnder, versions, *]
    · simp [admittedUnder, versions, *]
  | @swept b now' log h ih =>
    obtain rfl : now' = now := hnow _ List.mem_cons_self
    rw [admittedUnder_of_other rfl, versions_swept]
    exact ih hexpire (fun x hx => hnow x (List.mem_cons_of_mem _ hx)) hsame.tail hcounts
      (Expiring.slot?_sweep_of_idle hslot (Slot.idle_lt_of_le hlast hexpire)) hlast hallows
  | @asked b b' now' version' other policy' admitted log ha h ih =>
    obtain rfl : now' = now := hnow _ List.mem_cons_self
    have hb' : (b.tryAcquire now' other policy' version').2 = b' := congrArg Prod.snd ha
    have hexpire' : 0 < b'.keyed.expireTime := hb' ▸ expireTime_tryAcquire.symm ▸ hexpire
    have hcounts' : Limiter.Counts (b'.strategies.choose policy.strategy b'.fallback) policy :=
      hb' ▸ hcounts
    have hnow' : ∀ x ∈ log, x.1 = now' := fun x hx => hnow x (List.mem_cons_of_mem _ hx)
    by_cases hother : other = key
    · subst hother
      obtain ⟨l, last', hlast', hanswer, hnext, hl⟩ := tryAcquire_at hexpire hslot hlast
      rw [ha] at hanswer hnext
      obtain rfl : admitted = (l.tryAcquire now').1 := hanswer
      obtain ⟨k, hnextAllows, hle⟩ := hallows.tryAcquire (fun hv => hl.trans (if_pos hv))
        fun hv hversion => by
          subst hversion
          obtain rfl := hsame now' policy' _ List.mem_cons_self
          rw [hl, if_neg hv]
          exact ⟨Limiter.policy_create .., by rwa [create, Limiter.strategy_create]⟩
      have hrest := ih hexpire' hnow' hsame.tail hcounts' hnext hlast' hnextAllows
      rw [admittedUnder_asked, versions_asked, count_destutter', Nat.mul_add]
      simp only at hrest hle ⊢
      omega
    · rw [admittedUnder_of_other (by simp [Record.version?, hother]), versions_asked_of_ne hother]
      refine ih hexpire' hnow' hsame.tail hcounts' ?_ hlast hallows
      rw [← hb', slot?_tryAcquire_of_ne (Ne.symm hother)]
      exact Expiring.slot?_sweepIfDue_of_idle hslot (Slot.idle_lt_of_le hlast hexpire)

theorem Runs.admittedUnder_le_stretches (h : Runs b log) (hexpire : 0 < b.keyed.expireTime)
    (hnow : ∀ x ∈ log, x.1 = now) (hsame : AlikeUnder key policy version log)
    (hcounts : Limiter.Counts (b.strategies.choose policy.strategy b.fallback) policy)
    (hheld : ∀ l last, b.keyed.slot? key = some ⟨⟨version, l⟩, last⟩ →
      l.policy = policy ∧ l.strategy = b.strategies.choose policy.strategy b.fallback) :
    admittedUnder key version log ≤ policy.permits.toNat * stretches key version log := by
  induction h with
  | nil => exact Nat.zero_le _
  | swept h ih =>
    rw [admittedUnder_of_other rfl, stretches, versions_swept]
    exact ih hexpire (fun x hx => hnow x (List.mem_cons_of_mem _ hx)) hsame.tail hcounts
      fun l last hs => hheld l last (Expiring.of_slot?_sweep hs)
  | @asked b b' now' version' other policy' admitted log ha h ih =>
    obtain rfl : now' = now := hnow _ List.mem_cons_self
    have hb' : (b.tryAcquire now' other policy' version').2 = b' := congrArg Prod.snd ha
    have hexpire' : 0 < b'.keyed.expireTime := hb' ▸ expireTime_tryAcquire.symm ▸ hexpire
    have hcounts' : Limiter.Counts (b'.strategies.choose policy.strategy b'.fallback) policy :=
      hb' ▸ hcounts
    have hnow' : ∀ x ∈ log, x.1 = now' := fun x hx => hnow x (List.mem_cons_of_mem _ hx)
    by_cases hother : other = key
    · subst hother
      obtain ⟨l, last, hserves, hanswer, hnext⟩ := exists_serves b now' other policy' version'
      rw [ha] at hanswer hnext
      obtain rfl : admitted = (l.tryAcquire now').1 := hanswer
      have hl : now' ≤ last ∧ (version' = version →
          l.policy = policy ∧ Limiter.Counts l.strategy policy) := by
        cases hserves with
        | held hs =>
          refine ⟨Nat.le_max_right .., fun hversion => ?_⟩
          obtain ⟨hpolicy, hstrategy⟩ :=
            hheld _ _ (hversion ▸ Expiring.of_slot?_sweepIfDue hs)
          exact ⟨hpolicy, hstrategy ▸ hcounts⟩
        | made =>
          refine ⟨Nat.le_refl now', fun hversion => ?_⟩
          subst hversion
          obtain rfl := hsame now' policy' _ List.mem_cons_self
          exact ⟨Limiter.policy_create .., by rwa [create, Limiter.strategy_create]⟩
      obtain ⟨k, hallows, hle⟩ := exists_allows hl.2
      have hrest := h.admittedUnder_le hexpire' hnow' hsame.tail hcounts' hnext hl.1 hallows
      rw [admittedUnder_asked, stretches, versions_asked, List.destutter_cons']
      simp only at hrest
      omega
    · rw [admittedUnder_of_other (by simp [Record.version?, hother]), stretches,
        versions_asked_of_ne hother]
      refine ih hexpire' hnow' hsame.tail hcounts' fun l last hs => ?_
      rw [← hb', slot?_tryAcquire_of_ne (Ne.symm hother)] at hs
      exact hb' ▸ hheld l last (Expiring.of_slot?_sweepIfDue hs)

/--
A stretch of calls for a key under one version is answered by one limiter, made when the stretch
begins, whatever versions came before, newer or older. So at one reading of the clock, as many calls
are admitted under a version as its policy has permits, for each time that the calls turn to it.
-/
theorem stretches_admit_anew (hempty : b.isEmpty = true) (hexpire : 0 < b.keyed.expireTime)
    (hruns : b.Runs (past ++ part)) :
    ((∀ u, (versions key past).getLast? = some u → u ≠ version) →
      Alike key policy version part → (part.map (·.1)).Pairwise (· ≤ ·) →
      ((uses key part).IsChain fun t t' => t' < t + b.keyed.expireTime) →
      ∀ first later, uses key part = first :: later →
        answers key part =
          ((b.strategies.choose policy.strategy b.fallback).create policy first).answers
            (first :: later)) ∧
    ∀ now, (∀ x ∈ part, x.1 = now) → AlikeUnder key policy version (past ++ part) →
      Limiter.Counts (b.strategies.choose policy.strategy b.fallback) policy →
      admittedUnder key version part ≤ policy.permits.toNat * stretches key version part := by
  have hstart : Remembers b key [] b := .start hempty
  obtain ⟨b', hb', hpart⟩ := hruns.exists_remembers hstart
  rw [List.nil_append] at hb'
  refine ⟨fun hversion halike hordered hclose first later huses => ?_,
    fun now hnow hsame hcounts => ?_⟩
  · have hstale : ∀ s, b'.keyed.slot? key = some s → s.value.version ≠ version := fun s hs =>
      hversion _ (hb'.version_eq s hs)
    have hanswers := hpart.of_stale hstale halike hordered (hb'.expireTime_eq ▸ hclose) huses
    rw [hb'.create_eq] at hanswers
    rw [← huses]
    exact hanswers
  · have hchoose : b'.strategies.choose policy.strategy b'.fallback =
        b.strategies.choose policy.strategy b.fallback := by
      rw [hb'.strategies_eq, hb'.fallback_eq]
    refine hpart.admittedUnder_le_stretches (hb'.expireTime_eq ▸ hexpire) hnow
      (fun t policy' admitted hmem => hsame t policy' admitted (List.mem_append_right _ hmem))
      (hchoose ▸ hcounts) fun l last hs => ?_
    obtain ⟨t, policy', admitted, hmem, hpolicy, hstrategy⟩ := hb'.made_for _ hs
    obtain rfl := hsame t policy' admitted (List.mem_append_left _ hmem)
    exact ⟨hpolicy, hstrategy.trans hchoose.symm⟩

theorem stretches_of_two_versions :
    let policy : RateLimitPolicy := { permits := 1, windowMs := 1000 }
    let b : LimiterBank := {
      strategies := builtin
      fallback := .fixedWindow
      keyed := { cleanInterval := 5, expireTime := 50, lastSweep := 0 } }
    (let past := [(0, .asked "a" policy 2 true)]
      let part := [(5, .asked "a" policy 1 true), (6, .asked "a" policy 1 false)]
      b.Runs (past ++ part) ∧
        answers "a" part = (LimiterStrategy.fixedWindow.create policy 5).answers [5, 6]) ∧
    (let past := [(0, .asked "a" policy 2 true)]
      let part := [(5, .asked "a" policy 2 false), (5, .asked "a" policy 1 true),
        (5, .asked "a" policy 2 true)]
      b.Runs (past ++ part) ∧ stretches "a" 2 part = 2 ∧
        admittedUnder "a" 2 part ≤ policy.permits.toNat * stretches "a" 2 part) := by
  intro policy b
  constructor
  · intro past part
    have hruns : b.Runs (past ++ part) := by
      refine .asked (Prod.fst_eq_iff.1 (by decide +kernel)) ?_
      refine .asked (Prod.fst_eq_iff.1 (by decide +kernel)) ?_
      refine .asked (Prod.fst_eq_iff.1 (by decide +kernel)) ?_
      exact .nil
    have halike : Alike "a" policy 1 part := by
      simp only [Alike, part]
      grind
    exact ⟨hruns, (stretches_admit_anew (by decide) (by decide) hruns).1 (by decide) halike
      (by decide) (.cons_cons (by decide) (.singleton 6)) 5 [6] (by decide)⟩
  · intro past part
    have hruns : b.Runs (past ++ part) := by
      refine .asked (Prod.fst_eq_iff.1 (by decide +kernel)) ?_
      refine .asked (Prod.fst_eq_iff.1 (by decide +kernel)) ?_
      refine .asked (Prod.fst_eq_iff.1 (by decide +kernel)) ?_
      refine .asked (Prod.fst_eq_iff.1 (by decide +kernel)) ?_
      exact .nil
    have hsame : AlikeUnder "a" policy 2 (past ++ part) := by
      simp only [AlikeUnder, past, part]
      grind
    exact ⟨hruns, by decide, (stretches_admit_anew (by decide) (by decide) hruns).2 5 (by decide)
      hsame (by unfold Limiter.Counts; decide +kernel)⟩

theorem tryAcquire_of_vast :
    let policy : RateLimitPolicy := { permits := 9007199254740995, windowMs := 1000 }
    (TokenBucket.create policy 0).tryAcquire 0 = (true, .create policy 0) := by
  decide +kernel

theorem Runs.of_vast (n : Nat) (hexpire : 0 < b.keyed.expireTime)
    (hslot : b.keyed.slot? key = some ⟨⟨version, .tokenBucket
      (.create { permits := 9007199254740995, windowMs := 1000 } 0)⟩, 0⟩) :
    b.Runs (List.replicate n (0, .asked key policy version true)) := by
  induction n generalizing b with
  | zero => exact .nil
  | succ n ih =>
    obtain ⟨hanswer, hnext⟩ := tryAcquire_of_held policy hslot (Nat.le_refl 0) hexpire
    rw [Limiter.tryAcquire_tokenBucket, tryAcquire_of_vast] at hanswer hnext
    exact .asked (Prod.ext hanswer rfl) (ih (expireTime_tryAcquire.symm ▸ hexpire) hnext)

/--
At one reading, a call under an older version lets one more call be admitted under the newer; and a
bucket with more permits than doubles can count is never empty, under one version.
-/
theorem permits_exceeded_at_one_reading :
    (let policy : RateLimitPolicy := { permits := 1, windowMs := 1000 }
      let b : LimiterBank := {
        strategies := builtin
        fallback := .fixedWindow
        keyed := { cleanInterval := 5, expireTime := 50, lastSweep := 0 } }
      let log := [(0, .asked "a" policy 2 true), (0, .asked "a" policy 1 true),
        (0, .asked "a" policy 2 true)]
      b.Runs log ∧ policy.permits.toNat < admittedUnder "a" 2 log) ∧
    (let policy : RateLimitPolicy := { permits := 9007199254740995, windowMs := 1000 }
      let b : LimiterBank := {
        strategies := builtin
        fallback := .tokenBucket
        keyed := { cleanInterval := 5, expireTime := 50, lastSweep := 0 } }
      ∀ n, let log := List.replicate n (0, .asked "a" policy 1 true)
        b.Runs log ∧ admittedUnder "a" 1 log = n) := by
  constructor
  · intro policy b log
    refine ⟨?_, by decide⟩
    refine .asked (Prod.fst_eq_iff.1 (by decide +kernel)) ?_
    refine .asked (Prod.fst_eq_iff.1 (by decide +kernel)) ?_
    refine .asked (Prod.fst_eq_iff.1 (by decide +kernel)) ?_
    exact .nil
  · intro policy b n log
    refine ⟨?_, ?_⟩
    · cases n with
      | zero => exact .nil
      | succ n =>
        have hvast : (b.create policy 0).tryAcquire 0 =
            (true, .tokenBucket (.create policy 0)) := by
          have hcreate : b.create policy 0 = .tokenBucket (.create policy 0) := rfl
          rw [hcreate, Limiter.tryAcquire_tokenBucket, tryAcquire_of_vast]
        have habsent : b.keyed.slot? "a" = none := by decide
        obtain ⟨hanswer, hnext⟩ := @tryAcquire_of_absent b 0 "a" policy 1 habsent
        rw [hvast] at hanswer hnext
        have hexpire : 0 < (b.tryAcquire 0 "a" policy 1).2.keyed.expireTime := by
          rw [expireTime_tryAcquire]
          decide
        exact .asked (Prod.ext hanswer rfl) (Runs.of_vast n hexpire hnext)
    · simp [admittedUnder, log, Record.version?, Record.answer?, List.countP_replicate]

end LimiterBank

end Turnpike
