import Turnpike.Admission.Bank
import Turnpike.Proofs.BreakerCycle
import Turnpike.Proofs.Slots
import Mathlib.Data.Prod.Basic

/-!
A key in steady use has its limiter, and its breaker, to itself: a bank answers for it as one
limiter does that knows of no other key, and hands out for it one breaker that it hands out for no
other.
-/

namespace Turnpike

/-! ### Limiters -/

def Limiter.answers (l : Limiter) : List Nat → List Bool
  | [] => []
  | now :: readings => (l.tryAcquire now).1 :: (l.tryAcquire now).2.answers readings

namespace LimiterBank

inductive Record
  | asked (key : String) (policy : RateLimitPolicy) (version : Nat) (admitted : Bool)
  | swept

inductive Runs : LimiterBank → List (Nat × Record) → Prop
  | nil {b : LimiterBank} : Runs b []
  | asked {b b' : LimiterBank} {now version : Nat} {key : String} {policy : RateLimitPolicy}
    {admitted : Bool} {log : List (Nat × Record)} :
    b.tryAcquire now key policy version = (admitted, b') → Runs b' log →
    Runs b ((now, .asked key policy version admitted) :: log)
  | swept {b : LimiterBank} {now : Nat} {log : List (Nat × Record)} :
    Runs (b.sweep now).2 log → Runs b ((now, .swept) :: log)

def Record.isFor (key : String) : Record → Bool
  | .asked other .. => other = key
  | .swept => false

def Record.answer? (key : String) : Record → Option Bool
  | .asked other _ _ admitted => if other = key then some admitted else none
  | .swept => none

def answers (key : String) (log : List (Nat × Record)) : List Bool :=
  log.filterMap (·.2.answer? key)

def uses (key : String) (log : List (Nat × Record)) : List Nat :=
  Expiring.readings (·.isFor key) log

def Alike (key : String) (policy : RateLimitPolicy) (version : Nat)
    (log : List (Nat × Record)) : Prop :=
  ∀ now policy' version' admitted,
    (now, .asked key policy' version' admitted) ∈ log → policy' = policy ∧ version' = version

variable {b b' : LimiterBank} {now last version : Nat} {key other : String}
  {policy : RateLimitPolicy} {l : Limiter}

@[simp] theorem expireTime_tryAcquireAt (times : CallTimes) :
    (b.tryAcquireAt times key policy version).2.keyed.expireTime = b.keyed.expireTime := by
  unfold tryAcquireAt
  simp

@[simp] theorem expireTime_tryAcquire :
    (b.tryAcquire now key policy version).2.keyed.expireTime = b.keyed.expireTime :=
  expireTime_tryAcquireAt _

theorem slot?_tryAcquireAt_of_ne (times : CallTimes) (h : other ≠ key) :
    (b.tryAcquireAt times key policy version).2.keyed.slot? other =
      (b.keyed.sweepIfDue times.lookup).slot? other := by
  unfold tryAcquireAt
  simp [h, Expiring.slot?_fetch_of_ne]

theorem slot?_tryAcquire_of_ne (h : other ≠ key) :
    (b.tryAcquire now key policy version).2.keyed.slot? other =
      (b.keyed.sweepIfDue now).slot? other :=
  slot?_tryAcquireAt_of_ne _ h

theorem tryAcquire_of_fetch
    (h : (b.keyed.fetch now key (·.version == version) ⟨version, b.create policy now⟩).1 =
        ⟨version, l⟩ ∧
      (b.keyed.fetch now key (·.version == version) ⟨version, b.create policy now⟩).2.slot? key =
        some ⟨⟨version, l⟩, now⟩) :
    (b.tryAcquire now key policy version).1 = (l.tryAcquire now).1 ∧
      (b.tryAcquire now key policy version).2.keyed.slot? key =
        some ⟨⟨version, (l.tryAcquire now).2⟩, now⟩ := by
  unfold tryAcquire tryAcquireAt
  simp [h.1, h.2]

theorem tryAcquire_of_held (policy : RateLimitPolicy)
    (hs : b.keyed.slot? key = some ⟨⟨version, l⟩, last⟩) (hle : last ≤ now)
    (hidle : now - last < b.keyed.expireTime) :
    (b.tryAcquire now key policy version).1 = (l.tryAcquire now).1 ∧
      (b.tryAcquire now key policy version).2.keyed.slot? key =
        some ⟨⟨version, (l.tryAcquire now).2⟩, now⟩ :=
  tryAcquire_of_fetch (Expiring.fetch_again _ hs hle hidle (beq_self_eq_true version))

theorem tryAcquire_of_absent (policy : RateLimitPolicy) (version : Nat)
    (hs : b.keyed.slot? key = none) :
    (b.tryAcquire now key policy version).1 = ((b.create policy now).tryAcquire now).1 ∧
      (b.tryAcquire now key policy version).2.keyed.slot? key =
        some ⟨⟨version, ((b.create policy now).tryAcquire now).2⟩, now⟩ :=
  tryAcquire_of_fetch (Expiring.fetch_first _ hs)

inductive Serves (b : LimiterBank) (now creation : Nat) (key : String) (policy : RateLimitPolicy)
    (version : Nat) : Limiter → Nat → Prop
  | held {l : Limiter} {last : Nat} :
    (b.keyed.sweepIfDue now).slot? key = some ⟨⟨version, l⟩, last⟩ →
    Serves b now creation key policy version l (max last now)
  | made : (∀ s, (b.keyed.sweepIfDue now).slot? key = some s → s.value.version ≠ version) →
    Serves b now creation key policy version (b.create policy creation) now

def decider (b : LimiterBank) (now : Nat) (key : String) (policy : RateLimitPolicy)
    (version : Nat) : Limiter :=
  (b.keyed.fetch now key (·.version == version) ⟨version, b.create policy now⟩).1.value

theorem exists_serves_fetched (b : LimiterBank) (times : CallTimes) (key : String)
    (policy : RateLimitPolicy) (version : Nat) :
    ∃ l last, l = (b.keyed.fetch times.lookup key (·.version == version)
        ⟨version, b.create policy times.creation⟩).1.value ∧
      Serves b times.lookup times.creation key policy version l last ∧
      (b.tryAcquireAt times key policy version).1 = (l.tryAcquire times.decision).1 ∧
      (b.tryAcquireAt times key policy version).2.keyed.slot? key =
        some ⟨⟨version, (l.tryAcquire times.decision).2⟩, last⟩ := by
  unfold tryAcquireAt
  rw [Expiring.fetch_eq]
  cases hs : (b.keyed.sweepIfDue times.lookup).slot? key with
  | none => exact ⟨_, _, rfl, .made (by simp [hs]), rfl, by simp⟩
  | some s =>
    obtain ⟨⟨version', l⟩, last⟩ := s
    by_cases hfresh : version' = version
    · subst hfresh
      simp only [beq_self_eq_true, if_true]
      exact ⟨_, _, rfl, .held hs, rfl, by simp⟩
    · simp only [beq_eq_false_iff_ne.2 hfresh, Bool.false_eq_true, if_false]
      exact ⟨_, _, rfl, .made (by simpa [hs] using hfresh), rfl, by simp⟩

theorem exists_serves_decider (b : LimiterBank) (now : Nat) (key : String)
    (policy : RateLimitPolicy) (version : Nat) :
    ∃ last, Serves b now now key policy version (b.decider now key policy version) last ∧
      (b.tryAcquire now key policy version).1 =
        ((b.decider now key policy version).tryAcquire now).1 ∧
      (b.tryAcquire now key policy version).2.keyed.slot? key =
        some ⟨⟨version, ((b.decider now key policy version).tryAcquire now).2⟩, last⟩ := by
  obtain ⟨_, last, rfl, h⟩ := exists_serves_fetched b ⟨now, now, now⟩ key policy version
  exact ⟨last, h⟩

theorem exists_serves (b : LimiterBank) (now : Nat) (key : String) (policy : RateLimitPolicy)
    (version : Nat) : ∃ l last, Serves b now now key policy version l last ∧
      (b.tryAcquire now key policy version).1 = (l.tryAcquire now).1 ∧
      (b.tryAcquire now key policy version).2.keyed.slot? key =
        some ⟨⟨version, (l.tryAcquire now).2⟩, last⟩ :=
  ⟨_, exists_serves_decider b now key policy version⟩

section

variable {log : List (Nat × Record)} {admitted : Bool}

@[simp] theorem uses_asked :
    uses key ((now, .asked key policy version admitted) :: log) = now :: uses key log :=
  Expiring.readings_cons_of_pos (decide_eq_true rfl)

@[simp] theorem answers_asked :
    answers key ((now, .asked key policy version admitted) :: log) =
      admitted :: answers key log := by
  simp [answers, Record.answer?]

theorem uses_asked_of_ne (h : other ≠ key) :
    uses key ((now, .asked other policy version admitted) :: log) = uses key log :=
  Expiring.readings_cons_of_neg (decide_eq_false h)

theorem answers_asked_of_ne (h : other ≠ key) :
    answers key ((now, .asked other policy version admitted) :: log) = answers key log := by
  simp [answers, Record.answer?, h]

@[simp] theorem uses_swept : uses key ((now, .swept) :: log) = uses key log := rfl

theorem Alike.tail {r : Nat × Record} (h : Alike key policy version (r :: log)) :
    Alike key policy version log :=
  fun now policy' version' admitted hmem =>
    h now policy' version' admitted (List.mem_cons_of_mem r hmem)

theorem Runs.of_held (h : Runs b log) (halike : Alike key policy version log)
    (hsteady : Expiring.Steady b.keyed.expireTime last (·.isFor key) log)
    (hheld : uses key log ≠ [] → b.keyed.slot? key = some ⟨⟨version, l⟩, last⟩) :
    answers key log = l.answers (uses key log) := by
  -- a key that is not used again may be dropped, so the slot is only promised if it is
  induction h generalizing last l with
  | nil => rfl
  | swept h ih =>
    exact ih halike.tail (hsteady.of_other rfl) fun hne =>
      Expiring.slot?_sweep_of_idle (hheld hne) (hsteady.idle_lt hne)
  | @asked b b' now version' other policy' admitted log ha h ih =>
    have hb' : (b.tryAcquire now other policy' version').2 = b' := congrArg Prod.snd ha
    have hexpire : b'.keyed.expireTime = b.keyed.expireTime := hb' ▸ expireTime_tryAcquire
    by_cases hother : other = key
    · subst hother
      obtain ⟨rfl, rfl⟩ := halike now policy' version' admitted List.mem_cons_self
      have hnext : uses other ((now, .asked other policy' version' admitted) :: log) ≠ [] := by
        simp
      have hle : last ≤ now := hsteady.le
      obtain ⟨hanswer, hslot⟩ :=
        tryAcquire_of_held policy' (hheld hnext) hle (hsteady.idle_lt hnext)
      rw [ha] at hanswer hslot
      have hlater := ih halike.tail (hexpire ▸ hsteady.of_use (decide_eq_true rfl)) fun _ => hslot
      rw [answers_asked, uses_asked, hlater, Limiter.answers, ← hanswer]
    · rw [answers_asked_of_ne hother, uses_asked_of_ne hother]
      have hlater := hsteady.of_other (decide_eq_false hother)
      refine ih halike.tail (hexpire ▸ hlater) fun hne => ?_
      rw [← uses_asked_of_ne hother] at hne
      rw [← hb', slot?_tryAcquire_of_ne (Ne.symm hother)]
      exact Expiring.slot?_sweepIfDue_of_idle (hheld hne) (hsteady.idle_lt hne)

theorem Runs.of_stale (h : Runs b log)
    (hstale : ∀ s, b.keyed.slot? key = some s → s.value.version ≠ version)
    (halike : Alike key policy version log) (hordered : (log.map (·.1)).Pairwise (· ≤ ·))
    (hclose : (uses key log).IsChain fun t t' => t' < t + b.keyed.expireTime) {t : Nat}
    {ts : List Nat} (huses : uses key log = t :: ts) :
    answers key log = (b.create policy t).answers (uses key log) := by
  induction h with
  | nil => cases huses
  | @swept b now log h ih =>
    rw [uses_swept] at hclose huses ⊢
    exact ih (fun s hs => hstale s (Expiring.of_slot?_sweep hs)) halike.tail hordered.tail hclose
      huses
  | @asked b b' now version' other policy' admitted log ha h ih =>
    have hb' : (b.tryAcquire now other policy' version').2 = b' := congrArg Prod.snd ha
    have hexpire : b'.keyed.expireTime = b.keyed.expireTime := hb' ▸ expireTime_tryAcquire
    by_cases hother : other = key
    · subst hother
      obtain ⟨rfl, rfl⟩ := halike now policy' version' admitted List.mem_cons_self
      rw [uses_asked] at hclose huses ⊢
      obtain ⟨rfl, rfl⟩ := List.cons_eq_cons.1 huses
      obtain ⟨l, last, hserves, hanswer, hslot⟩ := exists_serves b now other policy' version'
      cases hserves with
      | held hs => exact absurd rfl (hstale _ (Expiring.of_slot?_sweepIfDue hs))
      | made =>
        rw [ha] at hanswer hslot
        have hsteady : Expiring.Steady b'.keyed.expireTime now (·.isFor other) log :=
          ⟨hordered, hexpire ▸ hclose⟩
        have hlater := h.of_held halike.tail hsteady fun _ => hslot
        rw [answers_asked, hlater, Limiter.answers, ← hanswer]
    · rw [uses_asked_of_ne hother] at hclose huses ⊢
      rw [answers_asked_of_ne hother]
      have hcreate : b'.create policy t = b.create policy t := hb' ▸ rfl
      rw [← hcreate]
      refine ih (fun s hs => ?_) halike.tail hordered.tail (hexpire ▸ hclose) huses
      rw [← hb', slot?_tryAcquire_of_ne (Ne.symm hother)] at hs
      exact hstale s (Expiring.of_slot?_sweepIfDue hs)

theorem Runs.of_absent (h : Runs b log) (habsent : b.keyed.slot? key = none)
    (halike : Alike key policy version log) (hordered : (log.map (·.1)).Pairwise (· ≤ ·))
    (hclose : (uses key log).IsChain fun t t' => t' < t + b.keyed.expireTime) {t : Nat}
    {ts : List Nat} (huses : uses key log = t :: ts) :
    answers key log = (b.create policy t).answers (uses key log) :=
  h.of_stale (by simp [habsent]) halike hordered hclose huses

end

end LimiterBank

/-! ### Breakers -/

namespace BreakerBank

def answer (b : BreakerBank) (now : Nat) (id : BreakerId) :
    (c : Breaker.Call) → c.Answer × BreakerBank
  | .tryAcquire => b.tryAcquire now id
  | .settle report => ((), b.settle now id report)
  | .stateAt => (b.stateAt now id, b)

inductive Record
  | handed (key : String) (policy : BreakerPolicy) (version : Nat) (id : BreakerId)
  | used (id : BreakerId) (event : Breaker.Event)
  | swept

inductive Runs : BreakerBank → List (Nat × Record) → Prop
  | nil {b : BreakerBank} : Runs b []
  | handed {b b' : BreakerBank} {now version : Nat} {key : String} {policy : BreakerPolicy}
    {id : BreakerId} {log : List (Nat × Record)} :
    b.breaker now key policy version = (id, b') → Runs b' log →
    Runs b ((now, .handed key policy version id) :: log)
  | used {b b' : BreakerBank} {now : Nat} {id : BreakerId} {c : Breaker.Call} {a : c.Answer}
    {log : List (Nat × Record)} :
    id < b.breakers.size → b.answer now id c = (a, b') → Runs b' log →
    Runs b ((now, .used id ⟨c, a⟩) :: log)
  | swept {b : BreakerBank} {now : Nat} {log : List (Nat × Record)} :
    Runs (b.sweep now).2 log → Runs b ((now, .swept) :: log)

def Record.event? (id : BreakerId) : Record → Option Breaker.Event
  | .used other event => if other = id then some event else none
  | .handed .. | .swept => none

def Record.isFor (key : String) : Record → Bool
  | .handed other .. => other = key
  | .used .. | .swept => false

def events (id : BreakerId) (log : List (Nat × Record)) : List Breaker.Event :=
  log.filterMap (·.2.event? id)

def calls (id : BreakerId) (log : List (Nat × Record)) : List (Nat × Breaker.Call) :=
  log.filterMap fun (now, r) => (r.event? id).map (now, ·.call)

def uses (key : String) (log : List (Nat × Record)) : List Nat :=
  Expiring.readings (·.isFor key) log

def Alike (key : String) (policy : BreakerPolicy) (version : Nat)
    (log : List (Nat × Record)) : Prop :=
  ∀ now policy' version' id,
    (now, .handed key policy' version' id) ∈ log → policy' = policy ∧ version' = version

def Reserved (key : String) (id : BreakerId) (log : List (Nat × Record)) : Prop :=
  ∀ now key' policy version id',
    (now, .handed key' policy version id') ∈ log → (key' = key ↔ id' = id)

/-- Every key leads to a breaker that there is. -/
def Led (b : BreakerBank) : Prop :=
  ∀ key s, b.keyed.slot? key = some s → s.value.value < b.breakers.size

/-- A breaker is there, and no other key than one leads to it. -/
structure Owns (b : BreakerBank) (key : String) (id : BreakerId) (x : Breaker) : Prop where
  led : b.Led
  alone : ∀ other s, b.keyed.slot? other = some s → s.value.value = id → other = key
  breaker : b.breakers[id]? = some x

variable {b b' : BreakerBank} {now last version : Nat} {key other : String}
  {policy : BreakerPolicy} {id held : BreakerId} {x : Breaker}

section

variable (b : BreakerBank) (now : Nat) (id : BreakerId) (c : Breaker.Call)

@[simp] theorem keyed_answer : (b.answer now id c).2.keyed = b.keyed := by
  cases c with
  | tryAcquire =>
    simp only [answer, tryAcquire]
    split <;> rfl
  | settle | stateAt => rfl

@[simp] theorem size_answer : (b.answer now id c).2.breakers.size = b.breakers.size := by
  cases c with
  | tryAcquire =>
    simp only [answer, tryAcquire]
    split <;> simp
  | settle => simp [answer, settle]
  | stateAt => rfl

theorem create_answer : (b.answer now id c).2.create = b.create := by
  cases c with
  | tryAcquire =>
    simp only [answer, tryAcquire]
    split <;> rfl
  | settle | stateAt => rfl

variable {b now id}

theorem answer_of_some (h : b.breakers[id]? = some x) :
    (b.answer now id c).1 = (x.answer now c).1 ∧
      (b.answer now id c).2.breakers[id]? = some (x.answer now c).2 := by
  cases c with
  | tryAcquire =>
    obtain ⟨hlt, rfl⟩ := Array.getElem?_eq_some_iff.1 h
    simp [answer, tryAcquire, Breaker.answer, hlt]
  | settle report => simp [answer, settle, Breaker.answer, Array.getElem?_modify, h]
  | stateAt => simp [answer, stateAt, h, Breaker.answer]

theorem answer_of_ne (h : held ≠ id) :
    (b.answer now held c).2.breakers[id]? = b.breakers[id]? := by
  cases c with
  | tryAcquire =>
    simp only [answer, tryAcquire]
    split
    · rfl
    · simp [h]
  | settle => simp [answer, settle, Array.getElem?_modify, h]
  | stateAt => rfl

end

theorem breaker_cases (h : b.breaker now key policy version = (id, b')) :
    b'.keyed = (b.keyed.fetch now key (·.version == version) ⟨version, b.breakers.size⟩).2 ∧
    (b.keyed.fetch now key (·.version == version) ⟨version, b.breakers.size⟩).1.value = id ∧
    (id = b.breakers.size ∧ b'.breakers = b.breakers.push (b.create policy) ∨
      id ≠ b.breakers.size ∧ b'.breakers = b.breakers) := by
  unfold breaker at h
  simp only at h
  split at h
  · cases h
    exact ⟨rfl, ‹_›, .inl ⟨rfl, rfl⟩⟩
  · cases h
    exact ⟨rfl, rfl, .inr ⟨‹_›, rfl⟩⟩

theorem getElem?_breaker_of_lt (h : b.breaker now key policy version = (id, b'))
    (hheld : held < b.breakers.size) : b'.breakers[held]? = b.breakers[held]? := by
  obtain ⟨-, -, ⟨-, hbreakers⟩ | ⟨-, hbreakers⟩⟩ := breaker_cases h
  · rw [hbreakers, Array.getElem?_push, if_neg (Nat.ne_of_lt hheld)]
  · rw [hbreakers]

theorem of_slot?_breaker (h : b.breaker now key policy version = (id, b'))
    {s : Slot (Versioned BreakerId)} (hs : b'.keyed.slot? other = some s) :
    s.value.value = id ∧ other = key ∨ b.keyed.slot? other = some s ∧ other ≠ key := by
  obtain ⟨hkeyed, rfl, -⟩ := breaker_cases h
  rw [hkeyed] at hs
  exact (Expiring.of_slot?_fetch hs).imp_left (And.imp_left (congrArg Versioned.value))

theorem slot?_breaker_of_ne (h : b.breaker now key policy version = (id, b'))
    (hne : other ≠ key) : b'.keyed.slot? other = (b.keyed.sweepIfDue now).slot? other := by
  rw [(breaker_cases h).1, Expiring.slot?_fetch_of_ne hne]

theorem expireTime_breaker (h : b.breaker now key policy version = (id, b')) :
    b'.keyed.expireTime = b.keyed.expireTime := by
  rw [(breaker_cases h).1, Expiring.expireTime_fetch]

theorem create_breaker (h : b.breaker now key policy version = (id, b')) :
    b'.create = b.create := by
  unfold breaker at h
  simp only at h
  split at h <;> cases h <;> rfl

theorem Led.found (hled : b.Led) (h : b.breaker now key policy version = (id, b')) :
    id = b.breakers.size ∧ b'.breakers = b.breakers.push (b.create policy) ∨
      id < b.breakers.size ∧ b'.breakers = b.breakers ∧
        ∃ s, b.keyed.slot? key = some s ∧ s.value.value = id := by
  obtain ⟨-, rfl, hid | ⟨hid, hbreakers⟩⟩ := breaker_cases h
  · exact .inl hid
  · rcases Expiring.fetch_cases b.keyed now key (·.version == version)
      ⟨version, b.breakers.size⟩ with hmake | ⟨s, hs, -, hvalue⟩
    · exact absurd (congrArg Versioned.value hmake) hid
    · have hvalue := congrArg Versioned.value hvalue
      exact .inr ⟨hvalue ▸ hled key s hs, hbreakers, s, hs, hvalue⟩

theorem Led.breaker (hled : b.Led) (h : b.breaker now key policy version = (id, b')) :
    b'.Led ∧ id < b'.breakers.size ∧ b.breakers.size ≤ b'.breakers.size := by
  have hid : id < b'.breakers.size ∧ b.breakers.size ≤ b'.breakers.size := by
    rcases hled.found h with ⟨rfl, hbreakers⟩ | ⟨hlt, hbreakers, -⟩
    · simp [hbreakers]
    · simp [hbreakers, hlt]
  refine ⟨fun other s hs => ?_, hid⟩
  rcases of_slot?_breaker h hs with ⟨rfl, -⟩ | ⟨hs, -⟩
  · exact hid.1
  · exact Nat.lt_of_lt_of_le (hled other s hs) hid.2

theorem Led.answer (hled : b.Led) (c : Breaker.Call) : (b.answer now id c).2.Led := by
  intro key s hs
  rw [keyed_answer] at hs
  rw [size_answer]
  exact hled key s hs

theorem Led.sweep (hled : b.Led) : (b.sweep now).2.Led :=
  fun key s hs => hled key s (Expiring.of_slot?_sweep hs)

namespace Owns

theorem sweep (h : Owns b key id x) : Owns (b.sweep now).2 key id x where
  led := h.led.sweep
  alone other s hs := h.alone other s (Expiring.of_slot?_sweep hs)
  breaker := h.breaker

theorem answer (h : Owns b key id x) (c : Breaker.Call) :
    Owns (b.answer now id c).2 key id (x.answer now c).2 where
  led := h.led.answer c
  alone := by simpa using h.alone
  breaker := (answer_of_some c h.breaker).2

theorem answer_of_ne (h : Owns b key id x) (hne : held ≠ id) (c : Breaker.Call) :
    Owns (b.answer now held c).2 key id x where
  led := h.led.answer c
  alone := by simpa using h.alone
  breaker := (BreakerBank.answer_of_ne c hne).trans h.breaker

theorem lt (h : Owns b key id x) : id < b.breakers.size :=
  (Array.getElem?_eq_some_iff.1 h.breaker).1

theorem breaker_of_ne (h : Owns b key id x) (hne : other ≠ key)
    (hb : b.breaker now other policy version = (held, b')) :
    held ≠ id ∧ Owns b' key id x := by
  have hlt := h.lt
  have hheld : held ≠ id ∧ b'.breakers[id]? = some x := by
    rcases h.led.found hb with ⟨rfl, hbreakers⟩ | ⟨-, hbreakers, s, hs, rfl⟩
    · rw [hbreakers, Array.getElem?_push, if_neg (Nat.ne_of_lt hlt)]
      exact ⟨Nat.ne_of_gt hlt, h.breaker⟩
    · exact ⟨fun he => hne (h.alone other s hs he), hbreakers ▸ h.breaker⟩
  refine ⟨hheld.1, (h.led.breaker hb).1, fun k s hs hid => ?_, hheld.2⟩
  rcases of_slot?_breaker hb hs with ⟨rfl, -⟩ | ⟨hs, -⟩
  · exact absurd hid hheld.1
  · exact h.alone k s hs hid

theorem breaker_of_held (h : Owns b key id x)
    (hs : b.keyed.slot? key = some ⟨⟨version, id⟩, last⟩) (hle : last ≤ now)
    (hidle : now - last < b.keyed.expireTime)
    (hb : b.breaker now key policy version = (held, b')) :
    held = id ∧ Owns b' key id x ∧ b'.keyed.slot? key = some ⟨⟨version, id⟩, now⟩ := by
  obtain ⟨hkeyed, hvalue, hbreakers⟩ := breaker_cases hb
  have hfetch : (b.keyed.fetch now key (·.version == version) ⟨version, b.breakers.size⟩).1 =
      ⟨version, id⟩ ∧
    (b.keyed.fetch now key (·.version == version) ⟨version, b.breakers.size⟩).2.slot? key =
      some ⟨⟨version, id⟩, now⟩ :=
    Expiring.fetch_again _ hs hle hidle (beq_self_eq_true version)
  obtain rfl : id = held := (congrArg Versioned.value hfetch.1).symm.trans hvalue
  refine ⟨rfl, ⟨(h.led.breaker hb).1, fun k s hs hid => ?_, ?_⟩, hkeyed ▸ hfetch.2⟩
  · rcases of_slot?_breaker hb hs with ⟨-, rfl⟩ | ⟨hs, -⟩
    · rfl
    · exact h.alone k s hs hid
  · rcases hbreakers with ⟨hid, -⟩ | ⟨-, hbreakers⟩
    · exact absurd hid (Nat.ne_of_lt h.lt)
    · exact hbreakers ▸ h.breaker

theorem breaker_of_absent (hled : b.Led) (hs : b.keyed.slot? key = none)
    (hb : b.breaker now key policy version = (id, b')) :
    id = b.breakers.size ∧ Owns b' key id (b.create policy) ∧
      b'.keyed.slot? key = some ⟨⟨version, id⟩, now⟩ := by
  obtain ⟨hkeyed, hvalue, hbreakers⟩ := breaker_cases hb
  have hfetch : (b.keyed.fetch now key (·.version == version) ⟨version, b.breakers.size⟩).1 =
      ⟨version, b.breakers.size⟩ ∧
    (b.keyed.fetch now key (·.version == version) ⟨version, b.breakers.size⟩).2.slot? key =
      some ⟨⟨version, b.breakers.size⟩, now⟩ :=
    Expiring.fetch_first _ hs
  obtain rfl : b.breakers.size = id := (congrArg Versioned.value hfetch.1).symm.trans hvalue
  refine ⟨rfl, ⟨(hled.breaker hb).1, fun k s hs hid => ?_, ?_⟩, hkeyed ▸ hfetch.2⟩
  · rcases of_slot?_breaker hb hs with ⟨-, rfl⟩ | ⟨hs, -⟩
    · rfl
    · exact absurd hid (Nat.ne_of_lt (hled k s hs))
  · rcases hbreakers with ⟨-, hbreakers⟩ | ⟨hid, -⟩
    · simp [hbreakers]
    · exact absurd rfl hid

end Owns

section

variable {log : List (Nat × Record)} {e : Breaker.Event}

@[simp] theorem uses_handed :
    uses key ((now, .handed key policy version id) :: log) = now :: uses key log :=
  Expiring.readings_cons_of_pos (decide_eq_true rfl)

theorem uses_handed_of_ne (h : other ≠ key) :
    uses key ((now, .handed other policy version id) :: log) = uses key log :=
  Expiring.readings_cons_of_neg (decide_eq_false h)

@[simp] theorem uses_used : uses key ((now, .used id e) :: log) = uses key log := rfl

@[simp] theorem uses_swept : uses key ((now, .swept) :: log) = uses key log := rfl

@[simp] theorem events_used : events id ((now, .used id e) :: log) = e :: events id log := by
  simp [events, Record.event?]

@[simp] theorem calls_used :
    calls id ((now, .used id e) :: log) = (now, e.call) :: calls id log := by
  simp [calls, Record.event?]

theorem events_used_of_ne (h : held ≠ id) :
    events id ((now, .used held e) :: log) = events id log := by
  simp [events, Record.event?, h]

theorem calls_used_of_ne (h : held ≠ id) :
    calls id ((now, .used held e) :: log) = calls id log := by
  simp [calls, Record.event?, h]

theorem Alike.tail {r : Nat × Record} (h : Alike key policy version (r :: log)) :
    Alike key policy version log :=
  fun now policy' version' id hmem =>
    h now policy' version' id (List.mem_cons_of_mem r hmem)

theorem Reserved.cons (h : Reserved key id log) {now : Nat} {r : Record}
    (hr : ∀ other policy version held, r = .handed other policy version held →
      (other = key ↔ held = id)) : Reserved key id ((now, r) :: log) := by
  intro t other policy version held hmem
  rcases List.mem_cons.1 hmem with heq | hmem
  · exact hr other policy version held (congrArg Prod.snd heq).symm
  · exact h t other policy version held hmem

theorem Runs.of_held (h : Runs b log) (halike : Alike key policy version log)
    (hsteady : Expiring.Steady b.keyed.expireTime last (·.isFor key) log)
    (howns : Owns b key id x)
    (hheld : uses key log ≠ [] → b.keyed.slot? key = some ⟨⟨version, id⟩, last⟩) :
    Reserved key id log ∧ events id log = x.answers (calls id log) := by
  induction h generalizing last x with
  | nil => exact ⟨nofun, rfl⟩
  | @swept b now log h ih =>
    obtain ⟨hreserved, hevents⟩ := ih halike.tail (hsteady.of_other rfl) howns.sweep
      fun hne => Expiring.slot?_sweep_of_idle (hheld hne) (hsteady.idle_lt hne)
    exact ⟨hreserved.cons nofun, hevents⟩
  | @used b b' now held c a log hlt ha h ih =>
    rw [uses_used] at hheld
    have hb' : (b.answer now held c).2 = b' := congrArg Prod.snd ha
    have hkeyed : b'.keyed = b.keyed := hb' ▸ keyed_answer b now held c
    have hlater : Expiring.Steady b'.keyed.expireTime last (·.isFor key) log :=
      hkeyed ▸ hsteady.of_other rfl
    by_cases hid : held = id
    · subst hid
      have hanswer : (b.answer now held c).1 = (x.answer now c).1 :=
        (answer_of_some c howns.breaker).1
      obtain ⟨hreserved, hevents⟩ :=
        ih halike.tail hlater (hb' ▸ howns.answer c) (hkeyed ▸ hheld)
      refine ⟨hreserved.cons nofun, ?_⟩
      rw [ha] at hanswer
      rw [events_used, calls_used, hevents, Breaker.answers, ← hanswer]
    · obtain ⟨hreserved, hevents⟩ :=
        ih halike.tail hlater (hb' ▸ howns.answer_of_ne hid c) (hkeyed ▸ hheld)
      refine ⟨hreserved.cons nofun, ?_⟩
      rw [events_used_of_ne hid, calls_used_of_ne hid, hevents]
  | @handed b b' now version' other policy' held log hb h ih =>
    have hexpire := expireTime_breaker hb
    by_cases hother : other = key
    · subst hother
      obtain ⟨rfl, rfl⟩ := halike now policy' version' held List.mem_cons_self
      have hnext : uses other ((now, .handed other policy' version' held) :: log) ≠ [] := by simp
      have hle : last ≤ now := hsteady.le
      obtain ⟨rfl, howns, hslot⟩ :=
        howns.breaker_of_held (hheld hnext) hle (hsteady.idle_lt hnext) hb
      obtain ⟨hreserved, hevents⟩ :=
        ih halike.tail (hexpire ▸ hsteady.of_use (decide_eq_true rfl)) howns fun _ => hslot
      refine ⟨hreserved.cons fun _ _ _ _ heq => ?_, hevents⟩
      cases heq
      simp
    · obtain ⟨hne, howns⟩ := howns.breaker_of_ne hother hb
      have hlater := hsteady.of_other (decide_eq_false hother)
      obtain ⟨hreserved, hevents⟩ := ih halike.tail
        (hexpire ▸ hlater) howns fun hnext => by
          rw [← uses_handed_of_ne hother] at hnext
          rw [slot?_breaker_of_ne hb (Ne.symm hother)]
          exact Expiring.slot?_sweepIfDue_of_idle (hheld hnext) (hsteady.idle_lt hnext)
      refine ⟨hreserved.cons fun _ _ _ _ heq => ?_, hevents⟩
      cases heq
      simp [hother, hne]

theorem Runs.of_absent (h : Runs b log) (hled : b.Led) (habsent : b.keyed.slot? key = none)
    (halike : Alike key policy version log) (hordered : (log.map (·.1)).Pairwise (· ≤ ·))
    (hclose : (uses key log).IsChain fun t t' => t' < t + b.keyed.expireTime)
    (huses : uses key log ≠ []) :
    ∃ id, b.breakers.size ≤ id ∧ Reserved key id log ∧
      events id log = (b.create policy).answers (calls id log) := by
  induction h with
  | nil => exact absurd rfl huses
  | swept h ih =>
    rw [uses_swept] at hclose huses
    obtain ⟨id, hle, hreserved, hevents⟩ := ih hled.sweep
      (Expiring.slot?_sweep_of_absent habsent) halike.tail hordered.tail hclose huses
    exact ⟨id, hle, hreserved.cons nofun, hevents⟩
  | @used b b' now held c a log hlt ha h ih =>
    rw [uses_used] at hclose huses
    have hb' : (b.answer now held c).2 = b' := congrArg Prod.snd ha
    have hkeyed : b'.keyed = b.keyed := hb' ▸ keyed_answer b now held c
    have hsize : b'.breakers.size = b.breakers.size := hb' ▸ size_answer b now held c
    obtain ⟨id, hle, hreserved, hevents⟩ := ih (hb' ▸ hled.answer c) (hkeyed ▸ habsent)
      halike.tail hordered.tail (hkeyed ▸ hclose) huses
    rw [hsize] at hle
    -- whoever uses a breaker now holds an older one than the key will be given
    have hid : held ≠ id := Nat.ne_of_lt (Nat.lt_of_lt_of_le hlt hle)
    refine ⟨id, hle, hreserved.cons nofun, ?_⟩
    rw [events_used_of_ne hid, calls_used_of_ne hid, hevents, ← hb', create_answer]
  | @handed b b' now version' other policy' held log hb h ih =>
    have hexpire := expireTime_breaker hb
    by_cases hother : other = key
    · subst hother
      obtain ⟨rfl, rfl⟩ := halike now policy' version' held List.mem_cons_self
      rw [uses_handed] at hclose
      obtain ⟨rfl, howns, hslot⟩ := Owns.breaker_of_absent hled habsent hb
      have hsteady : Expiring.Steady b'.keyed.expireTime now (·.isFor other) log :=
        ⟨hordered, hexpire ▸ hclose⟩
      obtain ⟨hreserved, hevents⟩ := h.of_held halike.tail hsteady howns fun _ => hslot
      refine ⟨_, Nat.le_refl _, hreserved.cons fun _ _ _ _ heq => ?_, hevents⟩
      cases heq
      simp
    · rw [uses_handed_of_ne hother] at hclose huses
      obtain ⟨hled', hlt, hsize⟩ := hled.breaker hb
      have habsent' : b'.keyed.slot? key = none := by
        rw [slot?_breaker_of_ne hb (Ne.symm hother)]
        exact Expiring.slot?_sweepIfDue_of_absent habsent
      obtain ⟨id, hle, hreserved, hevents⟩ :=
        ih hled' habsent' halike.tail hordered.tail (hexpire ▸ hclose) huses
      have hid : held ≠ id := Nat.ne_of_lt (Nat.lt_of_lt_of_le hlt hle)
      rw [create_breaker hb] at hevents
      refine ⟨id, Nat.le_trans hsize hle, hreserved.cons fun _ _ _ _ heq => ?_, hevents⟩
      cases heq
      simp [hother, hid]

end

end BreakerBank

/--
In any run of a bank that starts empty, a key that is used under one version of one policy, and
never left alone for as long as the expiry time, is answered as one limiter is that was made when
the key was first used and serves no other; and it is handed one breaker, which no other key is
handed, and whose answers are those of a breaker that only its own calls have reached.
-/
theorem key_in_use_has_private_state :
    (∀ (b : LimiterBank) (key : String) (policy : RateLimitPolicy) (version : Nat)
      (log : List (Nat × LimiterBank.Record)), b.isEmpty = true → b.Runs log →
      (log.map (·.1)).Pairwise (· ≤ ·) → LimiterBank.Alike key policy version log →
      ((LimiterBank.uses key log).IsChain fun t t' => t' < t + b.keyed.expireTime) →
      ∀ first later, LimiterBank.uses key log = first :: later →
        LimiterBank.answers key log =
          ((b.strategies.choose policy.strategy b.fallback).create policy first).answers
            (first :: later)) ∧
    (∀ (b : BreakerBank) (key : String) (policy : BreakerPolicy) (version : Nat)
      (log : List (Nat × BreakerBank.Record)), b.isEmpty = true → b.Runs log →
      (log.map (·.1)).Pairwise (· ≤ ·) → BreakerBank.Alike key policy version log →
      ((BreakerBank.uses key log).IsChain fun t t' => t' < t + b.keyed.expireTime) →
      BreakerBank.uses key log ≠ [] →
        ∃ id, BreakerBank.Reserved key id log ∧
          BreakerBank.events id log =
            ((b.strategies.choose policy.strategy b.fallback).create policy).answers
              (BreakerBank.calls id log)) := by
  refine ⟨fun b key policy version log hempty hruns hordered halike hclose first later huses => ?_,
    fun b key policy version log hempty hruns hordered halike hclose huses => ?_⟩
  · have habsent : b.keyed.slot? key = none := Dict.get?_of_isEmpty hempty key
    rw [← huses]
    exact hruns.of_absent habsent halike hordered hclose huses
  · have habsent (other : String) : b.keyed.slot? other = none := Dict.get?_of_isEmpty hempty other
    have hled : b.Led := fun other s hs => by
      rw [habsent other] at hs
      cases hs
    obtain ⟨id, -, h⟩ := hruns.of_absent hled (habsent key) halike hordered hclose huses
    exact ⟨id, h⟩

theorem private_state_of_two_keys :
    (let policy : RateLimitPolicy := { permits := 1, windowMs := 1000 }
      let b : LimiterBank := {
        strategies := LimiterBank.builtin
        fallback := .fixedWindow
        keyed := { cleanInterval := 5, expireTime := 50, lastSweep := 0 } }
      let log := [(0, .asked "a" policy 1 true), (10, .asked "b" policy 2 true), (20, .swept),
        (30, .asked "a" policy 1 false)]
      b.Runs log ∧ LimiterBank.answers "a" log =
        (LimiterStrategy.fixedWindow.create policy 0).answers [0, 30]) ∧
    (let policy : BreakerPolicy := { slidingWindowSize := 1, minimumCalls := 1 }
      let b : BreakerBank := {
        strategies := BreakerBank.builtin
        fallback := .count
        keyed := { cleanInterval := 5, expireTime := 50, lastSweep := 0 } }
      let log := [(0, .handed "a" policy 1 0), (10, .handed "b" policy 1 1),
        (10, .used 1 ⟨.settle .error, ()⟩), (20, .swept), (30, .handed "a" policy 1 0),
        (30, .used 0 ⟨.tryAcquire, true⟩)]
      b.Runs log ∧ ∃ id, BreakerBank.Reserved "a" id log ∧ BreakerBank.events id log =
        (BreakerStrategy.count.create policy).answers (BreakerBank.calls id log)) := by
  constructor
  · intro policy b log
    have hruns : b.Runs log := by
      refine .asked (Prod.fst_eq_iff.1 (by decide +kernel)) ?_
      refine .asked (Prod.fst_eq_iff.1 (by decide +kernel)) (.swept ?_)
      refine .asked (Prod.fst_eq_iff.1 (by decide +kernel)) ?_
      exact .nil
    have halike : LimiterBank.Alike "a" policy 1 log := by simp [LimiterBank.Alike, log]
    exact ⟨hruns, key_in_use_has_private_state.1 b "a" policy 1 log (by decide) hruns (by decide)
      halike (.cons_cons (by decide) (.singleton 30)) 0 [30] (by decide)⟩
  · intro policy b log
    have hruns : b.Runs log := by
      refine .handed (Prod.fst_eq_iff.1 (by decide +kernel)) ?_
      refine .handed (Prod.fst_eq_iff.1 (by decide +kernel)) ?_
      refine .used (by decide +kernel) rfl (.swept ?_)
      refine .handed (Prod.fst_eq_iff.1 (by decide +kernel)) ?_
      refine .used (by decide +kernel) (Prod.fst_eq_iff.1 (by decide +kernel)) ?_
      exact .nil
    have halike : BreakerBank.Alike "a" policy 1 log := by
      simp only [BreakerBank.Alike, log]
      grind
    exact ⟨hruns, key_in_use_has_private_state.2 b "a" policy 1 log (by decide) hruns (by decide)
      halike (.cons_cons (by decide) (.singleton 30)) (by decide)⟩

end Turnpike
