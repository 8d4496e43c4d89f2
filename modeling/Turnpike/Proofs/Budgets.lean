import Turnpike.Proofs.Permits
import Turnpike.Proofs.PrivateState

/-!
What a key's window admits in an interval as long as the window. A window that is over is renewed,
and so is one that is dropped because its key was idle; a dropped window is forgotten with the calls
that it admitted. The potential is what the window has left and what the renewals may still bring
that fit the rest of the interval.
-/

namespace Turnpike

namespace Expiring

variable {α : Type} {m : Expiring α} {now : Nat} {key : String}

inductive Ages (expireTime now : Nat) : Option (Slot α) → Option (Slot α) → Prop
  | kept {slot : Option (Slot α)} : Ages expireTime now slot slot
  | dropped {s : Slot α} : expireTime ≤ s.idle now → Ages expireTime now (some s) none

theorem ages_filter (expireTime now : Nat) (slot : Option (Slot α)) :
    Ages expireTime now slot (slot.filter (·.idle now < expireTime)) := by
  cases slot with
  | none => exact .kept
  | some s =>
    rw [Option.filter_some]
    split
    · exact .kept
    · rename_i hidle
      exact .dropped (by simpa using hidle)

theorem ages_sweep : Ages m.expireTime now (m.slot? key) ((m.sweep now).2.slot? key) := by
  rw [slot?_sweep]
  exact ages_filter ..

theorem ages_sweepIfDue : Ages m.expireTime now (m.slot? key) ((m.sweepIfDue now).slot? key) := by
  rw [slot?_sweepIfDue]
  split
  · exact .kept
  · exact ages_filter ..

end Expiring

namespace LimiterBank

/-! ### Runs -/

inductive Act
  | asked (times : CallTimes) (key : String) (policy : RateLimitPolicy) (version : Nat)
    (admitted : Bool)
  | swept (now : Nat)

inductive Acts : LimiterBank → List Act → Prop
  | nil {b : LimiterBank} : Acts b []
  | asked {b b' : LimiterBank} {times : CallTimes} {version : Nat} {key : String}
    {policy : RateLimitPolicy} {admitted : Bool} {log : List Act} :
    b.tryAcquireAt times key policy version = (admitted, b') → Acts b' log →
    Acts b (.asked times key policy version admitted :: log)
  | swept {b : LimiterBank} {now : Nat} {log : List Act} :
    Acts (b.sweep now).2 log → Acts b (.swept now :: log)

namespace Act

def readings : Act → List Nat
  | .asked times .. => [times.lookup, times.creation, times.decision]
  | .swept now => [now]

def admission? (key : String) : Act → Option Nat
  | .asked times other _ _ admitted =>
    if other = key ∧ admitted = true then some times.decision else none
  | .swept _ => none

end Act

def admittedWithin (key : String) (t stop : Nat) (log : List Act) : Nat :=
  (log.filterMap (·.admission? key)).countP fun now => t ≤ now ∧ now < stop

def Uniform (key : String) (policy : RateLimitPolicy) (version : Nat) (log : List Act) : Prop :=
  ∀ times policy' version' admitted,
    .asked times key policy' version' admitted ∈ log → policy' = policy ∧ version' = version

section Counts

variable {key other : String} {policy : RateLimitPolicy} {version t stop : Nat}
  {times : CallTimes} {admitted : Bool} {act : Act} {log : List Act}

theorem admittedWithin_asked :
    admittedWithin key t stop (.asked times key policy version admitted :: log) =
      (if t ≤ times.decision ∧ times.decision < stop then admitted.toNat else 0) +
        admittedWithin key t stop log := by
  unfold admittedWithin
  cases admitted with
  | false => simp [Act.admission?]
  | true => simp [Act.admission?, List.countP_cons, Nat.add_comm]

theorem admittedWithin_of_other (h : act.admission? key = none) :
    admittedWithin key t stop (act :: log) = admittedWithin key t stop log := by
  simp [admittedWithin, h]

theorem Uniform.tail (h : Uniform key policy version (act :: log)) :
    Uniform key policy version log :=
  fun times policy' version' admitted hmem =>
    h times policy' version' admitted (List.mem_cons_of_mem _ hmem)

end Counts

/-! ### Renewals -/

variable {policy : RateLimitPolicy} {version expireTime t cur now later creation room : Nat}

/--
What renewals may still bring from a reading on, an expiry time apart, in the interval as long as
the window that starts at `t`.
-/
def brings (policy : RateLimitPolicy) (expireTime t now : Nat) : Nat :=
  policy.permits.toNat * ((t + policy.length - now) ⌈/⌉ expireTime)

theorem brings_anti (hexpire : 0 < expireTime) (h : now ≤ later) :
    brings policy expireTime t later ≤ brings policy expireTime t now := by
  apply Nat.mul_le_mul_left
  apply (ceilDiv_le_iff_le_mul hexpire).2
  calc
    t + policy.length - later ≤ t + policy.length - now := Nat.sub_le_sub_left h _
    _ ≤ expireTime * ((t + policy.length - now) ⌈/⌉ expireTime) := le_smul_ceilDiv hexpire

theorem add_brings_le (hexpire : 0 < expireTime) (hnow : now < t + policy.length) :
    policy.permits.toNat + brings policy expireTime t (now + expireTime) ≤
      brings policy expireTime t now := by
  unfold brings
  have hle : t + policy.length - now ≤ expireTime * ((t + policy.length - now) ⌈/⌉ expireTime) :=
    le_smul_ceilDiv hexpire
  generalize (t + policy.length - now) ⌈/⌉ expireTime = count at *
  cases count with
  | zero => omega
  | succ count =>
    rw [Nat.mul_succ, Nat.add_comm]
    apply Nat.add_le_add_right
    apply Nat.mul_le_mul_left
    apply (ceilDiv_le_iff_le_mul hexpire).2
    rw [Nat.mul_succ] at hle
    omega

/-! ### A window through an interval -/

variable {slot slot' : Option (Slot (Versioned Limiter))} {w : FixedWindow}

def Keeps (policy : RateLimitPolicy) (version now : Nat)
    (slot : Option (Slot (Versioned Limiter))) : Prop :=
  ∀ s, slot = some s → ∃ w last, s = ⟨⟨version, .fixedWindow w⟩, last⟩ ∧ w.policy = policy ∧
    last ≤ now

/--
The slot of a key at a reading, from which at most `room` more calls will be admitted in the
interval that starts at `t`. A window that was there before may be renewed at any time; one that
was renewed within the interval only an expiry time after it was last looked up.
-/
inductive Fits (policy : RateLimitPolicy) (version expireTime t now room : Nat) :
    Option (Slot (Versioned Limiter)) → Prop
  | ahead {slot : Option (Slot (Versioned Limiter))} : Keeps policy version now slot →
    policy.permits.toNat + brings policy expireTime t t ≤ room →
    Fits policy version expireTime t now room slot
  | absent : t ≤ now → brings policy expireTime t now ≤ room →
    Fits policy version expireTime t now room none
  | entered {w : FixedWindow} {last : Nat} : w.policy = policy → t ≤ now → last ≤ now →
    t ≤ w.start + policy.length → w.left + brings policy expireTime t now ≤ room →
    Fits policy version expireTime t now room (some ⟨⟨version, .fixedWindow w⟩, last⟩)
  | renewed {w : FixedWindow} {last : Nat} : w.policy = policy → t ≤ now → last ≤ now →
    t ≤ w.start → w.left + brings policy expireTime t (last + expireTime) ≤ room →
    Fits policy version expireTime t now room (some ⟨⟨version, .fixedWindow w⟩, last⟩)
  | past {slot : Option (Slot (Versioned Limiter))} : t + policy.length ≤ now →
    Fits policy version expireTime t now room slot

namespace Fits

theorem ages (hf : Fits policy version expireTime t cur room slot) (hexpire : 0 < expireTime)
    (hages : Expiring.Ages expireTime now slot slot') (hle : cur ≤ now) :
    Fits policy version expireTime t now room slot' := by
  cases hf with
  | ahead hkeeps hroom =>
    refine .ahead (fun s hs => ?_) hroom
    cases hages with
    | dropped => cases hs
    | kept =>
      obtain ⟨w, last, rfl, hpolicy, hlast⟩ := hkeeps s hs
      exact ⟨w, last, rfl, hpolicy, Nat.le_trans hlast hle⟩
  | absent ht hroom =>
    cases hages
    exact .absent (Nat.le_trans ht hle) (Nat.le_trans (brings_anti hexpire hle) hroom)
  | entered hpolicy ht hlast hstart hroom =>
    have hbrings : brings policy expireTime t now ≤ brings policy expireTime t cur :=
      brings_anti hexpire hle
    cases hages with
    | kept =>
      exact .entered hpolicy (Nat.le_trans ht hle) (Nat.le_trans hlast hle) hstart
        (Nat.le_trans (Nat.add_le_add_left hbrings _) hroom)
    | dropped =>
      exact .absent (Nat.le_trans ht hle)
        (Nat.le_trans hbrings (Nat.le_trans (Nat.le_add_left ..) hroom))
  | @renewed w last hpolicy ht hlast hstart hroom =>
    cases hages with
    | kept => exact .renewed hpolicy (Nat.le_trans ht hle) (Nat.le_trans hlast hle) hstart hroom
    | dropped hidle =>
      have hdue : last + expireTime ≤ now := by
        have hle : expireTime ≤ now - last := hidle
        omega
      exact .absent (Nat.le_trans ht hle)
        (Nat.le_trans (brings_anti hexpire hdue) (Nat.le_trans (Nat.le_add_left ..) hroom))
  | past hpast => exact .past (Nat.le_trans hpast hle)

theorem keeps (hf : Fits policy version expireTime t now room slot)
    (hnow : now < t + policy.length) : Keeps policy version now slot := by
  cases hf with
  | ahead hkeeps => exact hkeeps
  | absent => exact nofun
  | entered hpolicy _ hlast | renewed hpolicy _ hlast =>
    intro s hs
    cases hs
    exact ⟨_, _, rfl, hpolicy, hlast⟩
  | past hpast => exact absurd hpast (Nat.not_le_of_lt hnow)

end Fits

inductive Opens (policy : RateLimitPolicy) (version creation : Nat) :
    Option (Slot (Versioned Limiter)) → FixedWindow → Prop
  | held {w : FixedWindow} {last : Nat} : w.policy = policy →
    Opens policy version creation (some ⟨⟨version, .fixedWindow w⟩, last⟩) w
  | made : Opens policy version creation none (.create policy creation)

theorem Keeps.serves {b : LimiterBank} {key : String} {l : Limiter} {last : Nat}
    (hk : Keeps policy version now ((b.keyed.sweepIfDue now).slot? key))
    (hcreate : b.create policy creation = .fixedWindow (.create policy creation))
    (hs : Serves b now creation key policy version l last) :
    ∃ w, l = .fixedWindow w ∧ last = now ∧
      Opens policy version creation ((b.keyed.sweepIfDue now).slot? key) w := by
  cases hs with
  | held hs =>
    obtain ⟨w, last, heq, hpolicy, hlast⟩ := hk _ hs
    cases heq
    exact ⟨w, rfl, Nat.max_eq_right hlast, hs.symm ▸ .held hpolicy⟩
  | made hs =>
    cases hslot : (b.keyed.sweepIfDue now).slot? key with
    | none => exact ⟨_, hcreate, rfl, .made⟩
    | some s =>
      obtain ⟨w, last, rfl, -, -⟩ := hk _ hslot
      exact absurd rfl (hs _ hslot)

theorem Opens.policy_eq (h : Opens policy version creation slot w) : w.policy = policy := by
  cases h with
  | held hpolicy => exact hpolicy
  | made => rfl

theorem Fits.tryAcquire (hf : Fits policy version expireTime t now room slot)
    (hexpire : 0 < expireTime) (ho : Opens policy version creation slot w)
    (hcreation : now ≤ creation) (hlater : creation ≤ later) (ht : t ≤ later)
    (hin : later < t + policy.length) :
    ∃ rest, (w.tryAcquire later).1.toNat + rest ≤ room ∧
      Fits policy version expireTime t later rest
        (some ⟨⟨version, .fixedWindow (w.tryAcquire later).2⟩, now⟩) := by
  have hpolicy : (w.tryAcquire later).2.policy = policy :=
    FixedWindow.policy_tryAcquire.trans ho.policy_eq
  have hstart : (w.tryAcquire later).2.start = (w.moveTo later).start :=
    FixedWindow.start_tryAcquire
  have htaken := w.left_tryAcquire later
  generalize (w.tryAcquire later).1.toNat = taken at htaken ⊢
  generalize (w.tryAcquire later).2 = w' at hpolicy hstart htaken ⊢
  have hlast : now ≤ later := Nat.le_trans hcreation hlater
  have hend : later < (w.moveTo later).start + policy.length :=
    ho.policy_eq ▸ FixedWindow.lt_moveTo
  have hleft : (w.moveTo later).left ≤ policy.permits.toNat :=
    ho.policy_eq ▸ FixedWindow.left_moveTo_le
  -- A renewal at the look-up takes its share of what was to come from there on.
  have hshare : policy.permits.toNat + brings policy expireTime t (now + expireTime) ≤
      brings policy expireTime t now :=
    add_brings_le hexpire (Nat.lt_of_le_of_lt hlast hin)
  have hanti : brings policy expireTime t later ≤ brings policy expireTime t now :=
    brings_anti hexpire hlast
  refine ⟨room - taken, ?_⟩
  cases hf with
  | ahead _ hroom =>
    have hfirst : brings policy expireTime t later ≤ brings policy expireTime t t :=
      brings_anti hexpire ht
    exact ⟨by omega, .entered hpolicy ht hlast (by omega) (by omega)⟩
  | absent hpast hroom =>
    cases ho
    have hmade : creation ≤ ((FixedWindow.create policy creation).moveTo later).start :=
      FixedWindow.start_le_moveTo (w := .create policy creation)
    exact ⟨by omega, .renewed hpolicy ht hlast (by omega) (by omega)⟩
  | @entered _ last hw hpast _ hbefore hroom =>
    cases ho
    rcases Nat.lt_or_ge later (w.start + w.policy.length) with hsame | hover
    · rw [FixedWindow.moveTo_of_lt hsame] at hstart htaken
      exact ⟨by omega, .entered hpolicy ht hlast (hstart ▸ hbefore) (by omega)⟩
    · have hnext := (FixedWindow.moveTo_of_le hover).2
      rw [hw] at hnext
      exact ⟨by omega, .renewed hpolicy ht hlast (by omega) (by omega)⟩
  | @renewed _ last hw hpast hheld hbegun hroom =>
    cases ho
    have hsame : later < w.start + w.policy.length := by
      rw [hw]
      omega
    have hkept : brings policy expireTime t (now + expireTime) ≤
        brings policy expireTime t (last + expireTime) :=
      brings_anti hexpire (Nat.add_le_add_right hheld _)
    rw [FixedWindow.moveTo_of_lt hsame] at hstart htaken
    exact ⟨by omega, .renewed hpolicy ht hlast (hstart ▸ hbegun) (by omega)⟩
  | past hpast => omega

/-! ### A key through an interval -/

variable {b b' : LimiterBank} {key : String} {times : CallTimes} {log : List Act}

theorem Keeps.tryAcquireAt
    (hk : Keeps policy version times.lookup ((b.keyed.sweepIfDue times.lookup).slot? key))
    (hcreate : ∀ now, b.create policy now = .fixedWindow (.create policy now)) :
    ∃ w, Opens policy version times.creation ((b.keyed.sweepIfDue times.lookup).slot? key) w ∧
      (b.tryAcquireAt times key policy version).1 = (w.tryAcquire times.decision).1 ∧
      (b.tryAcquireAt times key policy version).2.keyed.slot? key =
        some ⟨⟨version, .fixedWindow (w.tryAcquire times.decision).2⟩, times.lookup⟩ := by
  obtain ⟨l, last, -, hserves, hanswer, hslot⟩ := exists_serves_fetched b times key policy version
  obtain ⟨w, rfl, rfl, ho⟩ := hk.serves (hcreate _) hserves
  exact ⟨w, ho, hanswer, hslot⟩

theorem Fits.tryAcquireAt
    (hf : Fits policy version expireTime t times.lookup room
      ((b.keyed.sweepIfDue times.lookup).slot? key))
    (hexpire : 0 < expireTime)
    (hcreate : ∀ now, b.create policy now = .fixedWindow (.create policy now))
    (hcreation : times.lookup ≤ times.creation) (hdecision : times.creation ≤ times.decision) :
    ∃ rest, (if t ≤ times.decision ∧ times.decision < t + policy.length then
        (b.tryAcquireAt times key policy version).1.toNat else 0) + rest ≤ room ∧
      Fits policy version expireTime t times.decision rest
        ((b.tryAcquireAt times key policy version).2.keyed.slot? key) := by
  rcases Nat.lt_or_ge times.decision (t + policy.length) with hin | hpast
  · have hlast : times.lookup ≤ times.decision := Nat.le_trans hcreation hdecision
    obtain ⟨w, ho, hanswer, hslot⟩ :=
      (hf.keeps (Nat.lt_of_le_of_lt hlast hin)).tryAcquireAt hcreate
    rw [hanswer, hslot]
    rcases Nat.lt_or_ge times.decision t with hbefore | ht
    · refine ⟨room, by simp [Nat.not_le_of_lt hbefore], ?_⟩
      generalize (b.keyed.sweepIfDue times.lookup).slot? key = slot at hf
      cases hf with
      | ahead _ hroom =>
        refine .ahead (fun s hs => ?_) hroom
        cases hs
        exact ⟨_, _, rfl, FixedWindow.policy_tryAcquire.trans ho.policy_eq, hlast⟩
      | _ => omega
    · rw [if_pos ⟨ht, hin⟩]
      exact hf.tryAcquire hexpire ho hcreation hdecision ht hin
  · exact ⟨room, by simp [Nat.not_lt_of_le hpast], .past hpast⟩

theorem Acts.admittedWithin_le (h : Acts b log) (hexpire : 0 < b.keyed.expireTime)
    (hcreate : ∀ now, b.create policy now = .fixedWindow (.create policy now))
    (huniform : Uniform key policy version log)
    (hordered : (cur :: log.flatMap Act.readings).Pairwise (· ≤ ·))
    (hf : Fits policy version b.keyed.expireTime t cur room (b.keyed.slot? key)) :
    admittedWithin key t (t + policy.length) log ≤ room := by
  induction h generalizing cur room with
  | nil => exact Nat.zero_le room
  | @swept b now log h ih =>
    have hle : cur ≤ now := List.rel_of_pairwise_cons hordered List.mem_cons_self
    rw [admittedWithin_of_other rfl]
    exact ih hexpire hcreate huniform.tail hordered.tail (hf.ages hexpire Expiring.ages_sweep hle)
  | @asked b b' times version' other policy' admitted log ha h ih =>
    obtain ⟨hle, hcreation, hdecision, hlater⟩ : cur ≤ times.lookup ∧
        times.lookup ≤ times.creation ∧ times.creation ≤ times.decision ∧
        (times.decision :: log.flatMap Act.readings).Pairwise (· ≤ ·) := by
      have hafter := hordered.tail
      exact ⟨List.rel_of_pairwise_cons hordered List.mem_cons_self,
        List.rel_of_pairwise_cons hafter List.mem_cons_self,
        List.rel_of_pairwise_cons hafter.tail List.mem_cons_self, hafter.tail.tail⟩
    have hb' : (b.tryAcquireAt times other policy' version').2 = b' := congrArg Prod.snd ha
    have hkept : b'.keyed.expireTime = b.keyed.expireTime := hb' ▸ expireTime_tryAcquireAt times
    have haged := hf.ages hexpire Expiring.ages_sweepIfDue hle
    rw [← hkept] at hexpire haged
    have ih {rest : Nat}
        (hf : Fits policy version b'.keyed.expireTime t times.decision rest
          (b'.keyed.slot? key)) :
        admittedWithin key t (t + policy.length) log ≤ rest :=
      ih hexpire (fun now => hb' ▸ hcreate now) huniform.tail hlater hf
    by_cases hother : other = key
    · subst hother
      obtain ⟨rfl, rfl⟩ := huniform times policy' version' admitted List.mem_cons_self
      obtain ⟨rest, hcount, hnext⟩ := haged.tryAcquireAt hexpire hcreate hcreation hdecision
      rw [ha] at hcount hnext
      rw [admittedWithin_asked]
      exact Nat.le_trans (Nat.add_le_add_left (ih hnext) _) hcount
    · rw [admittedWithin_of_other (by simp [Act.admission?, hother])]
      apply ih
      rw [← hb', slot?_tryAcquireAt_of_ne times (Ne.symm hother)]
      exact hb' ▸ haged.ages hexpire .kept (Nat.le_trans hcreation hdecision)

theorem of_ofConfig {config : KeyedConfig} {start : Nat} (h : ofConfig config start = .ok b) :
    b.isEmpty = true ∧ b.keyed.expireTime = config.expireTime.toNat := by
  unfold ofConfig at h
  cases hfallback : builtin.require config.strategy with
  | error e =>
    rw [hfallback] at h
    cases h
  | ok fallback =>
    rw [hfallback] at h
    cases h
    exact ⟨rfl, rfl⟩

/--
In an interval as long as the window, a key is admitted its permits once, and once more for every
expiry time that begins within it: a window that expired is forgotten. That is twice the permits if
the expiry time is no shorter than the window. A call counts by the reading that decided it.
-/
theorem rate_budget_under_expiry {config : KeyedConfig} {field service : String} {start : Nat}
    (hconfig : config.validate field = .ok ()) (hb : ofConfig config start = .ok b)
    (hpolicy : policy.validate service = .ok ())
    (hstrategy : b.strategies.choose policy.strategy b.fallback = .fixedWindow)
    (hacts : b.Acts log) (hordered : (log.flatMap Act.readings).Pairwise (· ≤ ·))
    (huniform : Uniform key policy version log) (t : Nat) :
    admittedWithin key t (t + policy.windowMs.toNat) log ≤
      (1 + policy.windowMs.toNat ⌈/⌉ config.expireTime.toNat) * policy.permits.toNat ∧
    (policy.windowMs.toNat ≤ config.expireTime.toNat →
      admittedWithin key t (t + policy.windowMs.toNat) log ≤ 2 * policy.permits.toNat) := by
  obtain ⟨hempty, hexpireTime⟩ := of_ofConfig hb
  have hexpire : 0 < config.expireTime.toNat := by
    obtain ⟨-, -, hne⟩ := KeyedConfig.validate_eq_ok_iff.1 hconfig
    exact Nat.pos_of_ne_zero fun h => hne (UInt64.toNat_inj.1 h)
  have hlength : policy.length = policy.windowMs.toNat := by
    have hne := RateLimitPolicy.validate_eq_ok_iff.1 hpolicy
    exact Nat.max_eq_left (Nat.pos_of_ne_zero fun h => hne (UInt64.toNat_inj.1 h))
  have hcreate (now : Nat) : b.create policy now = .fixedWindow (.create policy now) := by
    unfold create
    rw [hstrategy]
    rfl
  have habsent : b.keyed.slot? key = none := Dict.get?_of_isEmpty hempty key
  have hahead : Fits policy version b.keyed.expireTime t 0
      (policy.permits.toNat + brings policy b.keyed.expireTime t t) (b.keyed.slot? key) := by
    rw [habsent]
    exact .ahead nofun (Nat.le_refl _)
  have hcount := hacts.admittedWithin_le (hexpireTime.symm ▸ hexpire) hcreate huniform
    (List.pairwise_cons.2 ⟨fun _ _ => Nat.zero_le _, hordered⟩) hahead
  rw [brings, hexpireTime, hlength, Nat.add_sub_cancel_left] at hcount
  have hbound : admittedWithin key t (t + policy.windowMs.toNat) log ≤
      (1 + policy.windowMs.toNat ⌈/⌉ config.expireTime.toNat) * policy.permits.toNat :=
    calc
      _ ≤ _ := hcount
      _ = _ := by ring
  refine ⟨hbound, fun hle => Nat.le_trans hbound (Nat.mul_le_mul_right _ ?_)⟩
  have hone : policy.windowMs.toNat ⌈/⌉ config.expireTime.toNat ≤ 1 :=
    (ceilDiv_le_iff_le_mul hexpire).2 (by omega)
  omega

theorem budget_of_expired_window :
    let config : KeyedConfig := { strategy := "fixedWindow", cleanInterval := 1, expireTime := 2 }
    let policy : RateLimitPolicy := { permits := 1, windowMs := 2 }
    let log := [.asked ⟨0, 0, 1⟩ "a" policy 1 true, .asked ⟨2, 2, 2⟩ "a" policy 1 true]
    ∃ b, config.validate "rateLimiter" = .ok () ∧ ofConfig config 0 = .ok b ∧
      policy.validate "s" = .ok () ∧
      b.strategies.choose policy.strategy b.fallback = .fixedWindow ∧ b.Acts log ∧
      Uniform "a" policy 1 log ∧ admittedWithin "a" 1 3 log = 2 ∧
      admittedWithin "a" 1 (1 + policy.windowMs.toNat) log ≤ 2 * policy.permits.toNat := by
  intro config policy log
  have hconfig : config.validate "rateLimiter" = .ok () := by decide
  have hpolicy : policy.validate "s" = .ok () := by decide
  have huniform : Uniform "a" policy 1 log := by
    simp only [Uniform, log]
    grind
  obtain ⟨b, hb, hstrategy, hacts⟩ : ∃ b, ofConfig config 0 = .ok b ∧
      b.strategies.choose policy.strategy b.fallback = .fixedWindow ∧ b.Acts log := by
    refine ⟨_, rfl, by decide +kernel, ?_⟩
    refine .asked (Prod.fst_eq_iff.1 (by decide +kernel)) ?_
    refine .asked (Prod.fst_eq_iff.1 (by decide +kernel)) ?_
    exact .nil
  exact ⟨b, hconfig, hb, hpolicy, hstrategy, hacts, huniform, by decide,
    (rate_budget_under_expiry hconfig hb hpolicy hstrategy hacts (by decide) huniform 1).2
      (by decide)⟩

/-- A window of a thousand readings that expires after one is renewed at each call. -/
theorem budget_exceeded_by_expiry :
    let config : KeyedConfig := { strategy := "fixedWindow", cleanInterval := 1, expireTime := 1 }
    let policy : RateLimitPolicy := { permits := 1, windowMs := 1000 }
    let log := [.asked ⟨0, 0, 0⟩ "a" policy 1 true, .asked ⟨2, 2, 2⟩ "a" policy 1 true,
      .asked ⟨4, 4, 4⟩ "a" policy 1 true]
    ∃ b, config.validate "rateLimiter" = .ok () ∧ ofConfig config 0 = .ok b ∧
      policy.validate "s" = .ok () ∧
      b.strategies.choose policy.strategy b.fallback = .fixedWindow ∧ b.Acts log ∧
      2 * policy.permits.toNat < admittedWithin "a" 0 (0 + policy.windowMs.toNat) log := by
  intro config policy log
  refine ⟨_, by decide, rfl, by decide, by decide +kernel, ?_, by decide⟩
  refine .asked (Prod.fst_eq_iff.1 (by decide +kernel)) ?_
  refine .asked (Prod.fst_eq_iff.1 (by decide +kernel)) ?_
  refine .asked (Prod.fst_eq_iff.1 (by decide +kernel)) ?_
  exact .nil

end LimiterBank

end Turnpike
