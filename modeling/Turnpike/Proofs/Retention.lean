import Turnpike.Proofs.Slots

/-!
How long an expiring map keeps a key. None is dropped before it has been idle for the expiry time,
and after a look-up none is left that has been idle for that time and a clean interval. The
invariant is that no key that is held was due at the last sweep.
-/

namespace Turnpike

namespace Expiring

variable {α : Type}

/-! ### Runs -/

def ofPeriods (cleanInterval expireTime start : Nat) : Expiring α :=
  { cleanInterval, expireTime, lastSweep := start }

inductive Call (α : Type)
  | fetch (key : String) (fresh : α → Bool) (make : α)
  | get (key : String)
  | contains (key : String)
  | remove (key : String)
  | sweep

inductive Event (α : Type)
  | swept
  | accessed (key : String) (value : α) (made : Bool)
  deriving DecidableEq

def lazySweep (m : Expiring α) (now : Nat) : List (Event α) :=
  if now - m.lastSweep < m.cleanInterval then [] else [.swept]

namespace Call

def access? : Call α → Option String
  | .fetch key .. | .get key => some key
  | .contains _ | .remove _ | .sweep => none

def swept (m : Expiring α) (now : Nat) : Call α → Expiring α
  | .fetch .. | .get _ => m.sweepIfDue now
  | .contains _ | .remove _ => m
  | .sweep => (m.sweep now).2

def after (m : Expiring α) (now : Nat) : Call α → Expiring α
  | .fetch key fresh make => (m.fetch now key fresh make).2
  | .get key => (m.get? now key).2
  | .contains _ => m
  | .remove key => (m.remove key).2
  | .sweep => (m.sweep now).2

def events (m : Expiring α) (now : Nat) : Call α → List (Event α)
  | .fetch key fresh make => m.lazySweep now ++
      [.accessed key (m.fetch now key fresh make).1 !m.finds now key fresh]
  | .get key => m.lazySweep now ++ (m.get? now key).1.toList.map (.accessed key · false)
  | .contains _ | .remove _ | .sweep => []

end Call

def run (m : Expiring α) : List (Nat × Call α) → Expiring α
  | [] => m
  | (now, c) :: calls => (c.after m now).run calls

def log (m : Expiring α) : List (Nat × Call α) → List (Nat × Event α)
  | [] => []
  | (now, c) :: calls => (c.events m now).map (now, ·) ++ (c.after m now).log calls

def access? (key : String) : Nat × Event α → Option Nat
  | (now, .accessed other _ _) => if other = key then some now else none
  | (_, .swept) => none

def lastAccess? (key : String) (log : List (Nat × Event α)) : Option Nat :=
  (log.filterMap (access? key)).getLast?

def lazySweeps (log : List (Nat × Event α)) : List Nat :=
  log.filterMap fun
    | (now, .swept) => some now
    | (_, .accessed ..) => none

theorem lazySweeps_append (log log' : List (Nat × Event α)) :
    lazySweeps (log ++ log') = lazySweeps log ++ lazySweeps log' :=
  List.filterMap_append

/-! ### What a run keeps -/

variable {m : Expiring α} {now : Nat} {key other : String} {a : α} {s : Slot α}

/-- The map remembers the accesses that the log tells of, and sweeps what is due. -/
structure Sound (m : Expiring α) (log : List (Nat × Event α)) (now : Nat) : Prop where
  access : ∀ key s, m.slot? key = some s → lastAccess? key log = some s.lastAccess
  past : ∀ key s, m.slot? key = some s → s.lastAccess ≤ now
  fresh : ∀ key s, m.slot? key = some s →
    m.lastSweep ≤ s.lastAccess ∨ m.lastSweep < s.lastAccess + m.expireTime
  lastSweep_le : m.lastSweep ≤ now
  lazy : ∀ t ∈ lazySweeps log, t ≤ m.lastSweep

namespace Sound

variable {log : List (Nat × Event α)} {later : Nat}

theorem mono (h : Sound m log now) (hle : now ≤ later) : Sound m log later where
  access := h.access
  past key s hs := Nat.le_trans (h.past key s hs) hle
  fresh := h.fresh
  lastSweep_le := Nat.le_trans h.lastSweep_le hle
  lazy := h.lazy

theorem evict (h : Sound m log now) : Sound ({ m with lastSweep := now }.evict now) log now := by
  have hslot {key : String} {s : Slot α}
      (hs : ({ m with lastSweep := now }.evict now).slot? key = some s) :
      m.slot? key = some s ∧ now < s.lastAccess + m.expireTime := by
    obtain ⟨hs, hidle⟩ := Option.filter_eq_some_iff.1 ((slot?_evict ..).symm.trans hs)
    have hle := h.past key s hs
    have hidle : now - s.lastAccess < m.expireTime := of_decide_eq_true hidle
    exact ⟨hs, by omega⟩
  exact {
    access := fun key s hs => h.access key s (hslot hs).1
    past := fun key s hs => h.past key s (hslot hs).1
    fresh := fun key s hs => .inr (hslot hs).2
    lastSweep_le := Nat.le_refl now
    lazy := fun t ht => Nat.le_trans (h.lazy t ht) h.lastSweep_le }

theorem sweep (h : Sound m log now) : Sound (m.sweep now).2 log now := by
  have hmax : max m.lastSweep now = now := Nat.max_eq_right h.lastSweep_le
  unfold Expiring.sweep
  rw [hmax]
  exact h.evict

theorem sweepIfDue (h : Sound m log now) :
    Sound (m.sweepIfDue now) (log ++ (m.lazySweep now).map (now, ·)) now := by
  unfold Expiring.sweepIfDue lazySweep
  split
  · simpa using h
  · have hs := h.evict
    exact { hs with
      access := fun key s hslot => by simpa [lastAccess?, access?] using hs.access key s hslot
      lazy := fun t ht => by
        rw [lazySweeps_append] at ht
        rcases List.mem_append.1 ht with ht | ht
        · exact hs.lazy t ht
        · exact Nat.le_of_eq (List.mem_singleton.1 ht) }

theorem store (h : Sound m log now) (key : String) (a : α) (made : Bool) :
    Sound (m.store key a now) (log ++ [(now, .accessed key a made)]) now := by
  have hslot {other : String} {s : Slot α} (hs : (m.store key a now).slot? other = some s) :
      other = key ∧ s = ⟨a, now⟩ ∨ other ≠ key ∧ m.slot? other = some s := by
    rw [slot?_store] at hs
    split at hs
    · exact .inl ⟨‹_›, (Option.some.inj hs).symm⟩
    · exact .inr ⟨‹_›, hs⟩
  refine ⟨fun other s hs => ?_, fun other s hs => ?_, fun other s hs => ?_, h.lastSweep_le,
    fun t ht => h.lazy t ?_⟩
  · rcases hslot hs with ⟨rfl, rfl⟩ | ⟨hne, hs⟩
    · simp [lastAccess?, access?]
    · simpa [lastAccess?, access?, Ne.symm hne] using h.access other s hs
  · rcases hslot hs with ⟨rfl, rfl⟩ | ⟨-, hs⟩
    · exact Nat.le_refl now
    · exact h.past other s hs
  · rcases hslot hs with ⟨rfl, rfl⟩ | ⟨-, hs⟩
    · exact .inl h.lastSweep_le
    · exact h.fresh other s hs
  · simpa [lazySweeps_append, lazySweeps] using ht

theorem remove (h : Sound m log now) (key : String) : Sound (m.remove key).2 log now := by
  have hslot {other : String} {s : Slot α} (hs : (m.remove key).2.slot? other = some s) :
      m.slot? other = some s := by
    rw [slot?_remove] at hs
    split at hs
    · cases hs
    · exact hs
  exact {
    access := fun other s hs => h.access other s (hslot hs)
    past := fun other s hs => h.past other s (hslot hs)
    fresh := fun other s hs => h.fresh other s (hslot hs)
    lastSweep_le := h.lastSweep_le
    lazy := h.lazy }

theorem call (h : Sound m log now) (c : Call α) :
    Sound (c.after m now) (log ++ (c.events m now).map (now, ·)) now := by
  cases c with
  | fetch key fresh make =>
    have hs := h.sweepIfDue.store key (m.fetch now key fresh make).1 (!m.finds now key fresh)
    rw [← snd_fetch (h.past key)] at hs
    simpa [Call.after, Call.events] using hs
  | get key =>
    have hs := h.sweepIfDue
    cases ha : (m.get? now key).1 with
    | none =>
      rw [← snd_get?_of_none ha] at hs
      simpa [Call.after, Call.events, ha] using hs
    | some a =>
      have hs := hs.store key a false
      rw [← snd_get?_of_some (h.past key) ha] at hs
      simpa [Call.after, Call.events, ha] using hs
  | contains => simpa [Call.after, Call.events] using h
  | remove key => simpa [Call.after, Call.events] using h.remove key
  | sweep => simpa [Call.after, Call.events] using h.sweep

theorem run (h : Sound m log now) {calls : List (Nat × Call α)}
    (hordered : (now :: calls.map (·.1) ++ [later]).Pairwise (· ≤ ·)) :
    Sound (m.run calls) (log ++ m.log calls) later := by
  induction calls generalizing m log now with
  | nil => simpa [Expiring.run, Expiring.log] using h.mono (by simpa using hordered)
  | cons call calls ih =>
    obtain ⟨t, c⟩ := call
    obtain ⟨hle, hordered⟩ := List.pairwise_cons.1 hordered
    have hs := ih ((h.mono (hle t (by simp))).call c) hordered
    simpa [Expiring.run, Expiring.log] using hs

theorem start (cleanInterval expireTime t : Nat) :
    Sound (ofPeriods cleanInterval expireTime t : Expiring α) [] t where
  access key s hs := by cases hs
  past key s hs := by cases hs
  fresh key s hs := by cases hs
  lastSweep_le := Nat.le_refl t
  lazy t ht := by cases ht

end Sound

@[simp] theorem Call.expireTime_after (m : Expiring α) (now : Nat) (c : Call α) :
    (c.after m now).expireTime = m.expireTime := by
  cases c with
  | fetch => exact expireTime_fetch ..
  | get => exact expireTime_get? ..
  | contains | remove | sweep => rfl

@[simp] theorem Call.cleanInterval_after (m : Expiring α) (now : Nat) (c : Call α) :
    (c.after m now).cleanInterval = m.cleanInterval := by
  cases c with
  | fetch => exact cleanInterval_fetch ..
  | get => exact cleanInterval_get? ..
  | contains | remove | sweep => rfl

@[simp] theorem expireTime_run (m : Expiring α) (calls : List (Nat × Call α)) :
    (m.run calls).expireTime = m.expireTime := by
  induction calls generalizing m with
  | nil => rfl
  | cons call calls ih => exact (ih _).trans (call.2.expireTime_after m call.1)

@[simp] theorem cleanInterval_run (m : Expiring α) (calls : List (Nat × Call α)) :
    (m.run calls).cleanInterval = m.cleanInterval := by
  induction calls generalizing m with
  | nil => rfl
  | cons call calls ih => exact (ih _).trans (call.2.cleanInterval_after m call.1)

/-! ### When a key goes -/

def Call.Evicts (m : Expiring α) (now : Nat) (key : String) (c : Call α) : Prop :=
  m.contains key = true ∧ (c.swept m now).contains key = false

instance (m : Expiring α) (now : Nat) (key : String) (c : Call α) :
    Decidable (c.Evicts m now key) :=
  inferInstanceAs (Decidable (_ ∧ _))

theorem Call.slot?_swept_of_idle (c : Call α) (h : m.slot? key = some s)
    (hidle : s.idle now < m.expireTime) : (c.swept m now).slot? key = some s := by
  cases c with
  | fetch | get => exact slot?_sweepIfDue_of_idle h hidle
  | contains | remove => exact h
  | sweep => exact slot?_sweep_of_idle h hidle

theorem Call.slot?_after_of_other {c : Call α} (haccess : c.access? ≠ some key)
    (hremove : c ≠ .remove key) : (c.after m now).slot? key = (c.swept m now).slot? key := by
  cases c with
  | fetch other => exact slot?_fetch_of_ne fun h => haccess (congrArg some h.symm)
  | get other => exact slot?_get?_of_ne fun h => haccess (congrArg some h.symm)
  | contains => rfl
  | remove other =>
    simp only [after, swept, slot?_remove]
    rw [if_neg fun h => hremove (congrArg Call.remove h.symm)]
  | sweep => rfl

theorem Call.contains_after {c : Call α} (hremove : c ≠ .remove key)
    (h : (c.swept m now).contains key = true) : (c.after m now).contains key = true := by
  obtain ⟨s, hs⟩ := contains_iff.1 h
  rw [contains_iff]
  by_cases haccess : c.access? = some key
  · cases c with
    | contains | remove | sweep => cases haccess
    | fetch =>
      cases haccess
      rw [swept] at hs
      simp only [after, fetch_eq, hs]
      split <;> exact ⟨_, (slot?_store ..).trans (if_pos rfl)⟩
    | get =>
      cases haccess
      rw [swept] at hs
      simp only [after, get?_eq, hs]
      exact ⟨_, (slot?_store ..).trans (if_pos rfl)⟩
  · exact ⟨s, (slot?_after_of_other haccess hremove).trans hs⟩

namespace Sound

variable {log : List (Nat × Event α)} {c : Call α}

theorem of_accessed (h : Sound m log now) {made : Bool}
    (hmem : .accessed key a made ∈ c.events m now) :
    (c.after m now).slot? key = some ⟨a, now⟩ ∧ (m.contains key = false → made = true) := by
  have hlazy : .accessed key a made ∉ m.lazySweep now := by
    unfold Expiring.lazySweep
    split <;> simp
  cases c with
  | contains | remove | sweep => cases hmem
  | fetch =>
    have heq := List.mem_singleton.1 ((List.mem_append.1 hmem).resolve_left hlazy)
    injection heq with hkey ha hmade
    subst hkey ha hmade
    rw [Call.after, snd_fetch (h.past key), slot?_store, if_pos rfl]
    refine ⟨rfl, fun habsent => ?_⟩
    rw [finds_of_absent (slot?_of_contains habsent), Bool.not_false]
  | get other =>
    have heq := (List.mem_append.1 hmem).resolve_left hlazy
    obtain ⟨v, hv, heq⟩ := List.mem_map.1 heq
    injection heq with hkey ha hmade
    subst hkey ha hmade
    have hget := Option.mem_toList.1 hv
    rw [Call.after, snd_get?_of_some (h.past other) hget, slot?_store, if_pos rfl]
    refine ⟨rfl, fun habsent => ?_⟩
    rw [get?_of_absent (slot?_of_contains habsent)] at hget
    cases hget

theorem evicts (h : Sound m log now) (hc : c.Evicts m now key) :
    ∃ last, lastAccess? key log = some last ∧ last + m.expireTime ≤ now := by
  obtain ⟨hheld, hgone⟩ := hc
  obtain ⟨s, hs⟩ := contains_iff.1 hheld
  refine ⟨s.lastAccess, h.access key s hs, Nat.le_of_not_lt fun hlt => ?_⟩
  have hle := h.past key s hs
  have hkept := c.slot?_swept_of_idle hs (show now - s.lastAccess < m.expireTime by omega)
  exact Bool.false_ne_true (hgone.symm.trans (contains_iff.2 ⟨s, hkept⟩))

theorem of_slot?_sweepIfDue (h : Sound m log now) (hs : (m.sweepIfDue now).slot? key = some s) :
    now < s.lastAccess + (m.cleanInterval + m.expireTime) := by
  rw [slot?_sweepIfDue] at hs
  have hlast := h.lastSweep_le
  split at hs
  · -- no sweep: the key was not due at the last one, which lies less than an interval back
    have hfresh := h.fresh key s hs
    omega
  · obtain ⟨hs, hidle⟩ := Option.filter_eq_some_iff.1 hs
    have hidle : now - s.lastAccess < m.expireTime := of_decide_eq_true hidle
    have hpast := h.past key s hs
    omega

theorem of_access (h : Sound m log now) (hc : c.access? ≠ none)
    (hs : (c.after m now).slot? other = some s) :
    now < s.lastAccess + (m.cleanInterval + m.expireTime) ∨
      c.access? = some other ∧ s.lastAccess = now := by
  by_cases haccess : c.access? = some other
  · cases c with
    | contains | remove | sweep => cases haccess
    | fetch key fresh make =>
      cases haccess
      rw [Call.after, snd_fetch (h.past other), slot?_store, if_pos rfl] at hs
      exact .inr ⟨rfl, (congrArg Slot.lastAccess (Option.some.inj hs)).symm⟩
    | get key =>
      cases haccess
      cases ha : (m.get? now other).1 with
      | some a =>
        rw [Call.after, snd_get?_of_some (h.past other) ha, slot?_store, if_pos rfl] at hs
        exact .inr ⟨rfl, (congrArg Slot.lastAccess (Option.some.inj hs)).symm⟩
      | none =>
        rw [Call.after, snd_get?_of_none ha] at hs
        exact .inl (h.of_slot?_sweepIfDue hs)
  · rw [Call.slot?_after_of_other haccess fun h => hc (h ▸ rfl)] at hs
    cases c with
    | contains | remove | sweep => exact absurd rfl hc
    | fetch | get => exact .inl (h.of_slot?_sweepIfDue hs)

theorem lazySweep (h : Sound m log now) (hc : .swept ∈ c.events m now) {t : Nat}
    (ht : t ∈ lazySweeps log) : t + m.cleanInterval ≤ now := by
  have hdue : ¬ now - m.lastSweep < m.cleanInterval := fun hdue => by
    cases c <;> simp [Call.events, Expiring.lazySweep, hdue] at hc
  have hlazy := h.lazy t ht
  have hlast := h.lastSweep_le
  omega

end Sound

/-! ### Keys in steady use -/

def about (key : String) (e : Nat × Event α) : Bool := (access? key e).isSome

def accesses (key : String) (calls : List (Nat × Call α)) : List Nat :=
  readings (·.access? = some key) calls

structure Retains (expireTime : Nat) (key : String) (a : α) (last : Nat)
    (calls : List (Nat × Call α)) : Prop where
  ordered : (last :: calls.map (·.1)).Pairwise (· ≤ ·)
  close : (last :: accesses key calls).IsChain fun t t' => t' < t + expireTime
  fresh : ∀ now fresh make, (now, .fetch key fresh make) ∈ calls → fresh a = true
  kept : ∀ now, (now, .remove key) ∉ calls

section

variable {c : Call α} {last : Nat}

theorem filter_about_lazySweep (m : Expiring α) (now : Nat) (key : String) :
    ((m.lazySweep now).map (now, ·)).filter (about key) = [] := by
  unfold lazySweep
  split <;> rfl

theorem filter_about_of_other (h : c.access? ≠ some key) :
    ((c.events m now).map (now, ·)).filter (about key) = [] := by
  have hlazy := filter_about_lazySweep m now key
  cases c with
  | contains | remove | sweep => rfl
  | fetch other =>
    have hne : other ≠ key := fun he => h (congrArg some he)
    simp [Call.events, hlazy, about, access?, hne]
  | get other =>
    have hne : other ≠ key := fun he => h (congrArg some he)
    cases ha : (m.get? now other).1 with
    | none => simp [Call.events, hlazy, ha]
    | some a => simp [Call.events, hlazy, ha, about, access?, hne]

theorem access_of_held (hs : m.slot? key = some ⟨a, last⟩) (hle : last ≤ now)
    (hidle : now - last < m.expireTime) (hc : c.access? = some key)
    (hfresh : ∀ fresh make, c = .fetch key fresh make → fresh a = true) :
    ((c.events m now).map (now, ·)).filter (about key) = [(now, .accessed key a false)] ∧
      (c.after m now).slot? key = some ⟨a, now⟩ := by
  have hlazy := filter_about_lazySweep m now key
  have hpast : ∀ s, m.slot? key = some s → s.lastAccess ≤ now := fun s h => by
    cases hs.symm.trans h
    exact hle
  cases c with
  | contains | remove | sweep => cases hc
  | fetch _ _ make =>
    cases hc
    obtain ⟨ha, hfinds⟩ := fetch_of_held make hs hidle (hfresh _ _ rfl)
    simp [Call.events, Call.after, hlazy, about, access?, snd_fetch hpast, ha, hfinds]
  | get =>
    cases hc
    have ha : (m.get? now key).1 = some a := by
      simp [get?_eq, slot?_sweepIfDue_of_idle hs hidle]
    simp [Call.events, Call.after, hlazy, about, access?, snd_get?_of_some hpast ha, ha]

namespace Retains

variable {calls : List (Nat × Call α)}

theorem steady (h : Retains m.expireTime key a last calls) :
    Steady m.expireTime last (·.access? = some key) calls :=
  ⟨h.ordered, h.close⟩

theorem of_steady (h : Retains m.expireTime key a last ((now, c) :: calls)) {t : Nat}
    (hsteady : Steady m.expireTime t (·.access? = some key) calls) :
    Retains m.expireTime key a t calls where
  ordered := hsteady.ordered
  close := hsteady.close
  fresh t fresh make hmem := h.fresh t fresh make (List.mem_cons_of_mem _ hmem)
  kept t hmem := h.kept t (List.mem_cons_of_mem _ hmem)

theorem log_eq (h : Retains m.expireTime key a last calls)
    (hheld : accesses key calls ≠ [] → m.slot? key = some ⟨a, last⟩) :
    (m.log calls).filter (about key) =
      (accesses key calls).map fun t => (t, .accessed key a false) := by
  -- nothing keeps the key once its last use is past, so `hheld` asks for a later one
  induction calls generalizing m last with
  | nil => rfl
  | cons call calls ih =>
    obtain ⟨now, c⟩ := call
    have hexpire := c.expireTime_after m now
    have hsteady := h.steady
    by_cases hc : c.access? = some key
    · have hnext : accesses key ((now, c) :: calls) = now :: accesses key calls :=
        readings_cons_of_pos (decide_eq_true hc)
      have hne : accesses key ((now, c) :: calls) ≠ [] := by simp [hnext]
      obtain ⟨hevents, hslot⟩ := access_of_held (hheld hne) hsteady.le (hsteady.idle_lt hne) hc
        fun fresh make hfetch => h.fresh now fresh make (hfetch ▸ List.mem_cons_self)
      have hlater := h.of_steady (hsteady.of_use (decide_eq_true hc))
      have hlog := ih (m := c.after m now) (hexpire ▸ hlater) fun _ => hslot
      simp [Expiring.log, hevents, hlog, hnext]
    · have hnext : accesses key ((now, c) :: calls) = accesses key calls :=
        readings_cons_of_neg (decide_eq_false hc)
      have hlater := h.of_steady (hsteady.of_other (decide_eq_false hc))
      have hlog := ih (m := c.after m now) (hexpire ▸ hlater) fun hne => by
        rw [← hnext] at hne
        rw [Call.slot?_after_of_other hc fun hr => h.kept now (hr ▸ List.mem_cons_self)]
        exact c.slot?_swept_of_idle (hheld hne) (hsteady.idle_lt hne)
      simp [Expiring.log, filter_about_of_other hc, hlog, hnext]

end Retains

end

end Expiring

end Turnpike
