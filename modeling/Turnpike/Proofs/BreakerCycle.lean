import Turnpike.Admission.Breaker
import Mathlib.Data.List.Induction

namespace Turnpike

namespace Breaker

/-! ### Runs -/

inductive Call
  | tryAcquire
  | settle (report : Report)
  | stateAt
  deriving DecidableEq

abbrev Call.Answer : Call → Type
  | .tryAcquire => Bool
  | .settle _ => Unit
  | .stateAt => CircuitState

structure Event where
  call : Call
  answer : call.Answer

def answer (b : Breaker) (now : Nat) : (c : Call) → c.Answer × Breaker
  | .tryAcquire => b.tryAcquire now
  | .settle report => ((), b.settle now report)
  | .stateAt => (b.stateAt now, b)

def after (b : Breaker) : List (Nat × Call) → Breaker
  | [] => b
  | (now, c) :: calls => (b.answer now c).2.after calls

def answers (b : Breaker) : List (Nat × Call) → List Event
  | [] => []
  | (now, c) :: calls => ⟨c, (b.answer now c).1⟩ :: (b.answer now c).2.answers calls

structure Passage where
  now : Nat
  event : Event
  before : CircuitState
  after : CircuitState

def passage (b : Breaker) (now : Nat) (c : Call) : Passage :=
  ⟨now, ⟨c, (b.answer now c).1⟩, b.state, (b.answer now c).2.state⟩

def history (b : Breaker) : List (Nat × Call) → List Passage
  | [] => []
  | (now, c) :: calls => b.passage now c :: (b.answer now c).2.history calls

section Concat

variable (b : Breaker) (calls later : List (Nat × Call)) (now : Nat) (c : Call)

theorem after_append : b.after (calls ++ later) = (b.after calls).after later := by
  induction calls generalizing b with
  | nil => rfl
  | cons _ _ ih => exact ih _

theorem answers_append :
    b.answers (calls ++ later) = b.answers calls ++ (b.after calls).answers later := by
  induction calls generalizing b with
  | nil => rfl
  | cons _ _ ih => exact congrArg _ (ih _)

theorem after_concat : b.after (calls ++ [(now, c)]) = ((b.after calls).answer now c).2 :=
  after_append ..

theorem history_concat :
    b.history (calls ++ [(now, c)]) = b.history calls ++ [(b.after calls).passage now c] := by
  induction calls generalizing b with
  | nil => rfl
  | cons _ _ ih => exact congrArg _ (ih _)

end Concat

/-! ### What a call can do -/

def OnTrial (b : Breaker) (now : Nat) : Prop :=
  b.state = .halfOpen ∨ b.state = .opened ∧ b.hasWaited now

inductive Responds (b : Breaker) (now : Nat) : (c : Call) → c.Answer → Breaker → Prop
  | admitted : b.state = .closed → Responds b now .tryAcquire true b
  | refused : b.state = .opened → b.hasWaited now = false → Responds b now .tryAcquire false b
  | granted : b.OnTrial now → b.granted < b.policy.permittedCallsInHalfOpen.toNat →
    Responds b now .tryAcquire true { b with state := .halfOpen, granted := b.granted + 1 }
  | exhausted : b.OnTrial now → b.policy.permittedCallsInHalfOpen.toNat ≤ b.granted →
    Responds b now .tryAcquire false { b with state := .halfOpen }
  | succeeded : b.state = .closed → Responds b now (.settle .success) () (b.record false)
  | failed : b.state = .closed → (b.record true).trips = false →
    Responds b now (.settle .error) () (b.record true)
  | tripped : b.state = .closed → (b.record true).trips = true →
    Responds b now (.settle .error) () ((b.record true).opened now)
  | passed : b.state = .halfOpen → b.passed + 1 < b.policy.permittedCallsInHalfOpen.toNat →
    Responds b now (.settle .success) () { b with passed := b.passed + 1 }
  | closed : b.state = .halfOpen → b.policy.permittedCallsInHalfOpen.toNat ≤ b.passed + 1 →
    Responds b now (.settle .success) () b.closed
  | reopened : b.state = .halfOpen → Responds b now (.settle .error) () (b.opened now)
  | released : b.state = .halfOpen →
    Responds b now (.settle .release) () { b with granted := b.granted - 1 }
  | ignored {report : Report} : b.state = .opened ∨ b.state = .closed ∧ report = .release →
    Responds b now (.settle report) () b
  | seen : Responds b now .stateAt (b.stateAt now) b

theorem responds_grantTrial {b : Breaker} {now : Nat} (h : b.OnTrial now) :
    Responds b now .tryAcquire { b with state := .halfOpen }.grantTrial.1
      { b with state := .halfOpen }.grantTrial.2 := by
  unfold grantTrial
  split
  · exact .granted h ‹_›
  · exact .exhausted h (Nat.le_of_not_lt ‹_›)

theorem responds_answer (b : Breaker) (now : Nat) (c : Call) :
    Responds b now c (b.answer now c).1 (b.answer now c).2 := by
  cases c with
  | stateAt => exact .seen
  | tryAcquire =>
    simp only [answer, tryAcquire]
    split
    · exact .admitted ‹_›
    · rename_i h
      have := responds_grantTrial (.inl h : b.OnTrial now)
      rwa [← h] at this
    · rename_i h
      split
      · exact responds_grantTrial (.inr ⟨h, ‹_›⟩)
      · exact .refused h (eq_false_of_ne_true ‹_›)
  | settle report =>
    cases report with
    | success =>
      simp only [answer, settle, onSuccess]
      split
      · exact .succeeded ‹_›
      · split
        · exact .closed ‹_› ‹_›
        · exact .passed ‹_› (Nat.lt_of_not_le ‹_›)
      · exact .ignored (.inl ‹_›)
    | error =>
      simp only [answer, settle, onError]
      split
      · split
        · exact .tripped ‹_› ‹_›
        · exact .failed ‹_› (eq_false_of_ne_true ‹_›)
      · exact .reopened ‹_›
      · exact .ignored (.inl ‹_›)
    | release =>
      simp only [answer, settle, release]
      split
      · exact .released ‹_›
      · rename_i h
        apply Responds.ignored
        cases hs : b.state with
        | closed => exact .inr ⟨rfl, rfl⟩
        | opened => exact .inl rfl
        | halfOpen => exact absurd hs h

theorem responds_tryAcquire {b b' : Breaker} {now : Nat} {granted : Bool}
    (h : b.tryAcquire now = (granted, b')) : Responds b now .tryAcquire granted b' := by
  have hr : Responds b now .tryAcquire (b.tryAcquire now).1 (b.tryAcquire now).2 :=
    responds_answer b now .tryAcquire
  rwa [h] at hr

/-! ### What a history says -/

def Event.trials (n : Nat) : Event → Nat
  | ⟨.tryAcquire, true⟩ => n + 1
  | ⟨.settle .release, _⟩ => n - 1
  | _ => n

namespace Passage

def opening? (p : Passage) : Option Nat :=
  if p.before ≠ .opened ∧ p.after = .opened then some p.now else none

def trials (n : Nat) (p : Passage) : Nat := if p.after = .halfOpen then p.event.trials n else 0

end Passage

def latestOpening? (past : List Passage) : Option Nat := (past.filterMap (·.opening?)).getLast?

/-- The grants of this half-open period less its releases, floored at zero at each release. -/
def trials (past : List Passage) : Nat := past.foldl Passage.trials 0

theorem latestOpening?_concat (past : List Passage) (p : Passage) :
    latestOpening? (past ++ [p]) = p.opening?.or (latestOpening? past) := by
  cases h : p.opening? <;> simp [latestOpening?, h]

theorem trials_concat (past : List Passage) (p : Passage) :
    trials (past ++ [p]) = p.trials (trials past) := by
  simp [trials]

def Elapsed (policy : BreakerPolicy) (opening now : Nat) : Prop :=
  policy.waitInOpenMs = 0 ∨ opening + policy.waitInOpenMs.toNat ≤ now

theorem hasWaited_iff {b : Breaker} {now : Nat} :
    b.hasWaited now = true ↔ Elapsed b.policy b.openedAt now := by
  have hzero : b.policy.waitInOpenMs = 0 ↔ b.policy.waitInOpenMs.toNat = 0 :=
    UInt64.toNat_inj.symm
  simp only [hasWaited, Elapsed, decide_eq_true_eq, hzero]
  omega

/-! ### What a call keeps -/

@[simp] theorem state_record (b : Breaker) (failed : Bool) :
    (b.record failed).state = b.state := rfl

@[simp] theorem granted_record (b : Breaker) (failed : Bool) :
    (b.record failed).granted = b.granted := rfl

def Resting (b : Breaker) : Prop := b.state ≠ .halfOpen → b.granted = 0 ∧ b.passed = 0

namespace Responds

variable {b b' : Breaker} {now : Nat} {c : Call} {a : c.Answer}

theorem policy_eq (h : Responds b now c a b') : b'.policy = b.policy := by
  cases h <;> rfl

theorem resting (h : Responds b now c a b') (hb : b.Resting) : b'.Resting := by
  cases h with
  | admitted | refused | ignored | seen => exact hb
  | succeeded hs | failed hs =>
    intro _
    exact hb (by simp [hs])
  | tripped | closed | reopened =>
    intro _
    exact ⟨rfl, rfl⟩
  | granted | exhausted =>
    intro hne
    exact absurd rfl hne
  | passed hs | released hs =>
    intro hne
    exact absurd hs hne

theorem granted_le (h : Responds b now c a b')
    (hb : b.granted ≤ b.policy.permittedCallsInHalfOpen.toNat) :
    b'.granted ≤ b.policy.permittedCallsInHalfOpen.toNat := by
  cases h with
  | granted _ hlt => exact hlt
  | released => exact Nat.le_trans (Nat.sub_le ..) hb
  | tripped | closed | reopened => exact Nat.zero_le _
  | admitted | refused | exhausted | succeeded | failed | passed | ignored | seen => exact hb

theorem granted_eq (h : Responds b now c a b') (hb : b.Resting) :
    b'.granted = Passage.trials b.granted ⟨now, ⟨c, a⟩, b.state, b'.state⟩ := by
  unfold Passage.trials
  cases h with
  | granted | exhausted | passed | released => simp [Event.trials, *]
  | tripped | closed | reopened => rfl
  | admitted hs | refused hs | succeeded hs | failed hs => simp [hs, (hb (by simp [hs])).1]
  | ignored hs =>
    have hne : b.state ≠ .halfOpen := by rcases hs with hs | ⟨hs, -⟩ <;> simp [hs]
    simp [hne, (hb hne).1]
  | seen =>
    split
    · rfl
    · exact (hb ‹_›).1

theorem opening_eq (h : Responds b now c a b') {opening : Option Nat}
    (hb : b.state = .opened → opening = some b.openedAt) (hs' : b'.state = .opened) :
    (Passage.opening? ⟨now, ⟨c, a⟩, b.state, b'.state⟩).or opening = some b'.openedAt := by
  unfold Passage.opening?
  cases h with
  | admitted | refused | ignored | seen => simp [hs', hb hs']
  | succeeded hs | failed hs | passed hs | released hs => simp [hs] at hs'
  | granted | exhausted | closed => simp [Breaker.closed] at hs'
  | tripped hs | reopened hs => simp [hs, opened]

end Responds

structure Tracks (policy : BreakerPolicy) (b : Breaker) (past : List Passage) : Prop where
  policy_eq : b.policy = policy
  opening : b.state = .opened → latestOpening? past = some b.openedAt
  granted : b.granted = trials past
  resting : b.Resting
  granted_le : b.granted ≤ policy.permittedCallsInHalfOpen.toNat

variable {policy : BreakerPolicy} {b : Breaker} {past : List Passage}

theorem Tracks.step (h : Tracks policy b past) (now : Nat) (c : Call) :
    Tracks policy (b.answer now c).2 (past ++ [b.passage now c]) := by
  obtain ⟨rfl, hopening, hgranted, hresting, hle⟩ := h
  have hr := responds_answer b now c
  constructor
  · exact hr.policy_eq
  · rw [latestOpening?_concat]
    exact hr.opening_eq hopening
  · rw [trials_concat, ← hgranted]
    exact hr.granted_eq hresting
  · exact hr.resting hresting
  · exact hr.granted_le hle

theorem tracks_history (policy : BreakerPolicy) (calls : List (Nat × Call)) :
    Tracks policy ((BreakerStrategy.count.create policy).after calls)
      ((BreakerStrategy.count.create policy).history calls) := by
  induction calls using List.reverseRecOn with
  | nil => exact ⟨rfl, nofun, rfl, fun _ => ⟨rfl, rfl⟩, Nat.zero_le _⟩
  | append_singleton calls x ih =>
    obtain ⟨now, c⟩ := x
    rw [after_concat, history_concat]
    exact ih.step now c

/-! ### The life cycle -/

inductive Turns (policy : BreakerPolicy) (past : List Passage) (now : Nat) :
    Call → CircuitState → CircuitState → Prop
  | opens : Turns policy past now (.settle .error) .closed .opened
  | tries {opening : Nat} : latestOpening? past = some opening → Elapsed policy opening now →
    Turns policy past now .tryAcquire .opened .halfOpen
  | closes : Turns policy past now (.settle .success) .halfOpen .closed
  | reopens : Turns policy past now (.settle .error) .halfOpen .opened

theorem Tracks.turns (h : Tracks policy b past) {now : Nat} {c : Call} {a : c.Answer} {b' : Breaker}
    (hr : Responds b now c a b') (hne : b'.state ≠ b.state) :
    Turns policy past now c b.state b'.state := by
  have htrial (ht : b.OnTrial now) (hne : .halfOpen ≠ b.state) :
      Turns policy past now .tryAcquire b.state .halfOpen := by
    rcases ht with hs | ⟨hs, hw⟩
    · exact absurd hs.symm hne
    · rw [hs]
      exact .tries (h.opening hs) (h.policy_eq ▸ hasWaited_iff.1 hw)
  cases hr with
  | admitted | refused | ignored | seen | succeeded | failed | passed | released =>
    exact absurd rfl hne
  | granted ht | exhausted ht => exact htrial ht hne
  | tripped hs => exact hs ▸ .opens
  | closed hs => exact hs ▸ .closes
  | reopened hs => exact hs ▸ .reopens

theorem settle_of_opened (h : b.state = .opened) (now : Nat) (report : Report) :
    b.settle now report = b := by
  cases report <;> simp [settle, onSuccess, onError, release, h]

theorem tryAcquire_of_waiting {now : Nat} (h : b.state = .opened) (hw : b.hasWaited now = false) :
    b.tryAcquire now = (false, b) := by
  simp [tryAcquire, h, hw]

theorem stateAt_eq_opened_iff {now : Nat} :
    b.stateAt now = .opened ↔ b.state = .opened ∧ b.hasWaited now = false := by
  unfold stateAt
  split
  · simp [*]
  · rename_i h
    rw [not_and, Bool.not_eq_true] at h
    exact ⟨fun hs => ⟨hs, h hs⟩, And.left⟩

theorem granted_iff_of_halfOpen {now : Nat} (h : (b.tryAcquire now).2.state = .halfOpen) :
    (b.tryAcquire now).1 = true ↔ b.granted < b.policy.permittedCallsInHalfOpen.toNat := by
  rcases ha : b.tryAcquire now with ⟨granted, b'⟩
  rw [ha] at h
  cases responds_tryAcquire ha with
  | admitted hs | refused hs => simp [hs] at h
  | granted _ hlt => simp [hlt]
  | exhausted _ hle => simp [hle]

theorem Tracks.hasWaited_iff (h : Tracks policy b past) (hs : b.state = .opened) {now opening : Nat}
    (ho : latestOpening? past = some opening) :
    b.hasWaited now = true ↔ Elapsed policy opening now := by
  obtain rfl : b.openedAt = opening := Option.some.inj ((h.opening hs).symm.trans ho)
  rw [← h.policy_eq]
  exact Breaker.hasWaited_iff

/-- How a breaker lives, whatever is asked of it and told to it, and whatever its clock shows. -/
theorem life_cycle (policy : BreakerPolicy) (calls : List (Nat × Call)) (now : Nat) :
    let b := (BreakerStrategy.count.create policy).after calls
    let past := (BreakerStrategy.count.create policy).history calls
    (∀ c, (b.answer now c).2.state ≠ b.state →
      Turns policy past now c b.state (b.answer now c).2.state) ∧
    (b.state = .opened → ∃ opening, latestOpening? past = some opening ∧
      (¬ Elapsed policy opening now →
        b.tryAcquire now = (false, b) ∧ ∀ report, b.settle now report = b)) ∧
    (b.state = .halfOpen →
      b.granted = trials past ∧ trials past ≤ policy.permittedCallsInHalfOpen.toNat) ∧
    ((b.tryAcquire now).2.state = .halfOpen →
      ((b.tryAcquire now).1 = true ↔ trials past < policy.permittedCallsInHalfOpen.toNat)) ∧
    (b.state ≠ .halfOpen → b.granted = 0 ∧ b.passed = 0) ∧
    (b.stateAt now = .opened ↔ b.state = .opened ∧
      ∃ opening, latestOpening? past = some opening ∧ ¬ Elapsed policy opening now) := by
  intro b past
  have h : Tracks policy b past := tracks_history policy calls
  refine ⟨fun c hne => h.turns (responds_answer b now c) hne, fun hs => ?_,
    fun _ => ⟨h.granted, h.granted ▸ h.granted_le⟩, fun hs => ?_, h.resting, ?_⟩
  · refine ⟨b.openedAt, h.opening hs, fun hwait => ⟨?_, settle_of_opened hs now⟩⟩
    rw [← h.hasWaited_iff hs (h.opening hs), Bool.not_eq_true] at hwait
    exact tryAcquire_of_waiting hs hwait
  · rw [← h.granted, ← h.policy_eq]
    exact granted_iff_of_halfOpen hs
  · rw [stateAt_eq_opened_iff]
    constructor
    · rintro ⟨hs, hw⟩
      refine ⟨hs, b.openedAt, h.opening hs, ?_⟩
      rw [← h.hasWaited_iff hs (h.opening hs), hw]
      exact Bool.false_ne_true
    · rintro ⟨hs, opening, ho, hwait⟩
      rw [← h.hasWaited_iff hs ho, Bool.not_eq_true] at hwait
      exact ⟨hs, hwait⟩

/-- A breaker without a wait grants a trial at a reading before its opening. -/
theorem trial_before_opening :
    let policy : BreakerPolicy := { slidingWindowSize := 1, minimumCalls := 1, waitInOpenMs := 0 }
    let b := (BreakerStrategy.count.create policy).after [(1000, .settle .error)]
    let past := (BreakerStrategy.count.create policy).history [(1000, .settle .error)]
    b.state = .opened ∧ latestOpening? past = some 1000 ∧
      ¬ 1000 + policy.waitInOpenMs.toNat ≤ 500 ∧
      (b.tryAcquire 500).1 = true ∧ (b.tryAcquire 500).2.state = .halfOpen := by
  decide

end Breaker

end Turnpike
