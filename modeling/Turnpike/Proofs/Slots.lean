import Turnpike.Expiring
import Mathlib.Data.List.Chain

/-!
What the operations of an expiring map leave of a key: the key of a look-up is in the map
afterwards, accessed at its reading, and any other is dropped only when it is due. So a key that is
never left alone for as long as the expiry time is there whenever it is used.
-/

namespace Turnpike

namespace Expiring

variable {α : Type}

def slot? (m : Expiring α) (key : String) : Option (Slot α) := m.slots.get? key

def store (m : Expiring α) (key : String) (a : α) (now : Nat) : Expiring α :=
  { m with slots := m.slots.insert key ⟨a, now⟩ }

def finds (m : Expiring α) (now : Nat) (key : String) (fresh : α → Bool) : Bool :=
  ((m.sweepIfDue now).slot? key).any (fresh ·.value)

variable (m : Expiring α) (now : Nat) (key other : String) (a : α) (fresh : α → Bool)

theorem slot?_of_isEmpty {m : Expiring α} (h : m.isEmpty = true) (key : String) :
    m.slot? key = none :=
  Dict.get?_of_isEmpty h key

theorem contains_iff {m : Expiring α} {key : String} :
    m.contains key = true ↔ ∃ s, m.slot? key = some s :=
  Option.isSome_iff_exists

theorem slot?_of_contains {m : Expiring α} {key : String} (h : m.contains key = false) :
    m.slot? key = none :=
  Option.isSome_eq_false_iff.1 h |> Option.isNone_iff_eq_none.1

@[simp] theorem slot?_store :
    (m.store key a now).slot? other = if other = key then some ⟨a, now⟩ else m.slot? other := by
  simp [slot?, store]

@[simp] theorem slot?_remove :
    (m.remove key).2.slot? other = if other = key then none else m.slot? other := by
  simp [slot?, remove]

@[simp] theorem slot?_set :
    (m.set key a).slot? other =
      if other = key then (m.slot? key).map ({ · with value := a }) else m.slot? other := by
  unfold set slot?
  cases h : m.slots.get? key with
  | some s => simp
  | none =>
    by_cases hother : other = key
    · simp [hother, h]
    · simp [hother]

theorem slot?_evict :
    (m.evict now).slot? key = (m.slot? key).filter (·.idle now < m.expireTime) := by
  apply Option.ext
  intro s
  simp [slot?, evict, Dict.get?_eq_some_iff, Option.filter_eq_some_iff]

theorem slot?_sweep :
    (m.sweep now).2.slot? key = (m.slot? key).filter (·.idle now < m.expireTime) :=
  slot?_evict ..

theorem slot?_sweepIfDue :
    (m.sweepIfDue now).slot? key =
      if now - m.lastSweep < m.cleanInterval then m.slot? key
      else (m.slot? key).filter (·.idle now < m.expireTime) := by
  unfold sweepIfDue
  split
  · rfl
  · exact slot?_evict ..

theorem fetch_eq (make : α) : m.fetch now key fresh make =
    match (m.sweepIfDue now).slot? key with
    | some s =>
      if fresh s.value then
        (s.value, (m.sweepIfDue now).store key s.value (max s.lastAccess now))
      else (make, (m.sweepIfDue now).store key make now)
    | none => (make, (m.sweepIfDue now).store key make now) := rfl

theorem get?_eq : m.get? now key =
    match (m.sweepIfDue now).slot? key with
    | some s => (some s.value, (m.sweepIfDue now).store key s.value (max s.lastAccess now))
    | none => (none, m.sweepIfDue now) := rfl

theorem exists_snd_fetch (make : α) : ∃ t, (m.fetch now key fresh make).2 =
    (m.sweepIfDue now).store key (m.fetch now key fresh make).1 t := by
  rw [fetch_eq]
  split
  · split <;> exact ⟨_, rfl⟩
  · exact ⟨_, rfl⟩

@[simp] theorem expireTime_sweepIfDue : (m.sweepIfDue now).expireTime = m.expireTime := by
  unfold sweepIfDue
  split <;> rfl

@[simp] theorem cleanInterval_sweepIfDue :
    (m.sweepIfDue now).cleanInterval = m.cleanInterval := by
  unfold sweepIfDue
  split <;> rfl

@[simp] theorem expireTime_fetch (make : α) :
    (m.fetch now key fresh make).2.expireTime = m.expireTime := by
  obtain ⟨t, h⟩ := exists_snd_fetch m now key fresh make
  exact h ▸ expireTime_sweepIfDue m now

@[simp] theorem cleanInterval_fetch (make : α) :
    (m.fetch now key fresh make).2.cleanInterval = m.cleanInterval := by
  obtain ⟨t, h⟩ := exists_snd_fetch m now key fresh make
  exact h ▸ cleanInterval_sweepIfDue m now

@[simp] theorem expireTime_get? : (m.get? now key).2.expireTime = m.expireTime := by
  rw [get?_eq]
  split <;> exact expireTime_sweepIfDue m now

@[simp] theorem cleanInterval_get? :
    (m.get? now key).2.cleanInterval = m.cleanInterval := by
  rw [get?_eq]
  split <;> exact cleanInterval_sweepIfDue m now

@[simp] theorem expireTime_set : (m.set key a).expireTime = m.expireTime := by
  unfold set
  split <;> rfl

variable {m now key other a fresh} {s : Slot α} {make : α}

theorem of_slot?_sweepIfDue (h : (m.sweepIfDue now).slot? key = some s) :
    m.slot? key = some s := by
  rw [slot?_sweepIfDue] at h
  split at h
  · exact h
  · exact (Option.filter_eq_some_iff.1 h).1

theorem of_slot?_sweep (h : (m.sweep now).2.slot? key = some s) : m.slot? key = some s := by
  rw [slot?_sweep] at h
  exact (Option.filter_eq_some_iff.1 h).1

theorem slot?_sweepIfDue_of_idle (h : m.slot? key = some s) (hidle : s.idle now < m.expireTime) :
    (m.sweepIfDue now).slot? key = some s := by
  rw [slot?_sweepIfDue]
  split
  · exact h
  · exact Option.filter_eq_some_iff.2 ⟨h, by simpa using hidle⟩

theorem slot?_sweep_of_idle (h : m.slot? key = some s) (hidle : s.idle now < m.expireTime) :
    (m.sweep now).2.slot? key = some s := by
  rw [slot?_sweep]
  exact Option.filter_eq_some_iff.2 ⟨h, by simpa using hidle⟩

theorem slot?_fetch_of_ne (h : other ≠ key) :
    (m.fetch now key fresh make).2.slot? other = (m.sweepIfDue now).slot? other := by
  obtain ⟨t, hstore⟩ := exists_snd_fetch m now key fresh make
  rw [hstore, slot?_store, if_neg h]

theorem slot?_get?_of_ne (h : other ≠ key) :
    (m.get? now key).2.slot? other = (m.sweepIfDue now).slot? other := by
  rw [get?_eq]
  split <;> simp [h]

theorem fetch_cases (m : Expiring α) (now : Nat) (key : String) (fresh : α → Bool) (make : α) :
    (m.fetch now key fresh make).1 = make ∨
      ∃ s, m.slot? key = some s ∧ fresh s.value = true ∧
        s.value = (m.fetch now key fresh make).1 := by
  rw [fetch_eq]
  split
  · rename_i s hs
    split
    · exact .inr ⟨s, of_slot?_sweepIfDue hs, ‹_›, rfl⟩
    · exact .inl rfl
  · exact .inl rfl

theorem of_slot?_fetch (h : (m.fetch now key fresh make).2.slot? other = some s) :
    s.value = (m.fetch now key fresh make).1 ∧ other = key ∨
      m.slot? other = some s ∧ other ≠ key := by
  obtain ⟨t, hstore⟩ := exists_snd_fetch m now key fresh make
  rw [hstore, slot?_store] at h
  split at h
  · exact .inl ⟨(congrArg Slot.value (Option.some.inj h)).symm, ‹_›⟩
  · exact .inr ⟨of_slot?_sweepIfDue h, ‹_›⟩

theorem snd_fetch (h : ∀ s, m.slot? key = some s → s.lastAccess ≤ now) :
    (m.fetch now key fresh make).2 =
      (m.sweepIfDue now).store key (m.fetch now key fresh make).1 now := by
  rw [fetch_eq]
  split
  · rename_i s hs
    have hle := h s (of_slot?_sweepIfDue hs)
    split
    · rw [Nat.max_eq_right hle]
    · rfl
  · rfl

theorem snd_get?_of_some (h : ∀ s, m.slot? key = some s → s.lastAccess ≤ now)
    (ha : (m.get? now key).1 = some a) :
    (m.get? now key).2 = (m.sweepIfDue now).store key a now := by
  rw [get?_eq] at ha ⊢
  split at ha
  · rename_i s hs
    cases ha
    rw [Nat.max_eq_right (h s (of_slot?_sweepIfDue hs))]
  · cases ha

theorem snd_get?_of_none (ha : (m.get? now key).1 = none) :
    (m.get? now key).2 = m.sweepIfDue now := by
  rw [get?_eq] at ha ⊢
  split at ha
  · cases ha
  · simp only [*]

theorem fetch_of_held (make : α) (h : m.slot? key = some s) (hidle : s.idle now < m.expireTime)
    (hfresh : fresh s.value = true) :
    (m.fetch now key fresh make).1 = s.value ∧ m.finds now key fresh = true := by
  have hs := slot?_sweepIfDue_of_idle h hidle
  simp [fetch_eq, finds, hs, hfresh]

theorem slot?_sweepIfDue_of_absent (h : m.slot? key = none) :
    (m.sweepIfDue now).slot? key = none := by
  rw [slot?_sweepIfDue]
  simp [h]

theorem slot?_sweep_of_absent (h : m.slot? key = none) : (m.sweep now).2.slot? key = none := by
  rw [slot?_sweep]
  simp [h]

theorem fetch_of_absent (h : m.slot? key = none) : (m.fetch now key fresh make).1 = make := by
  simp [fetch_eq, slot?_sweepIfDue_of_absent h]

theorem finds_of_absent (h : m.slot? key = none) : m.finds now key fresh = false := by
  simp [finds, slot?_sweepIfDue_of_absent h]

theorem get?_of_absent (h : m.slot? key = none) : (m.get? now key).1 = none := by
  simp [get?_eq, slot?_sweepIfDue_of_absent h]

theorem slot?_fetch (h : ∀ s, m.slot? key = some s → s.lastAccess ≤ now) :
    (m.fetch now key fresh make).2.slot? key =
      some ⟨(m.fetch now key fresh make).1, now⟩ := by
  rw [snd_fetch h, slot?_store, if_pos rfl]

theorem fetch_again {last : Nat} (make : α) (h : m.slot? key = some ⟨a, last⟩)
    (hle : last ≤ now) (hidle : now - last < m.expireTime) (hfresh : fresh a = true) :
    (m.fetch now key fresh make).1 = a ∧
      (m.fetch now key fresh make).2.slot? key = some ⟨a, now⟩ := by
  have ha : (m.fetch now key fresh make).1 = a := (fetch_of_held make h hidle hfresh).1
  have hslot : (m.fetch now key fresh make).2.slot? key = some ⟨_, now⟩ :=
    slot?_fetch fun s hs => by
      cases h.symm.trans hs
      exact hle
  exact ⟨ha, hslot.trans (by rw [ha])⟩

theorem fetch_first (make : α) (h : m.slot? key = none) :
    (m.fetch now key fresh make).1 = make ∧
      (m.fetch now key fresh make).2.slot? key = some ⟨make, now⟩ := by
  have ha : (m.fetch now key fresh make).1 = make := fetch_of_absent h
  exact ⟨ha, (slot?_fetch (by simp [h])).trans (by rw [ha])⟩

/-! ### Keys in steady use -/

section

variable {ρ : Type} {p : ρ → Bool} {r : ρ} {log : List (Nat × ρ)} {expireTime last : Nat}

def readings (p : ρ → Bool) (log : List (Nat × ρ)) : List Nat := (log.filter (p ·.2)).map (·.1)

theorem readings_cons_of_pos (h : p r = true) :
    readings p ((now, r) :: log) = now :: readings p log := by
  simp [readings, h]

theorem readings_cons_of_neg (h : p r = false) : readings p ((now, r) :: log) = readings p log := by
  simp [readings, h]

theorem mem_of_mem_readings {t : Nat} (h : t ∈ readings p log) : t ∈ log.map (·.1) :=
  (List.filter_sublist.map _).mem h

structure Steady (expireTime last : Nat) (p : ρ → Bool) (log : List (Nat × ρ)) : Prop where
  ordered : (last :: log.map (·.1)).Pairwise (· ≤ ·)
  close : (last :: readings p log).IsChain fun t t' => t' < t + expireTime

namespace Steady

theorem le (h : Steady expireTime last p ((now, r) :: log)) : last ≤ now :=
  List.rel_of_pairwise_cons h.ordered List.mem_cons_self

theorem not_due (h : Steady expireTime last p ((now, r) :: log))
    (hnext : readings p ((now, r) :: log) ≠ []) : now < last + expireTime := by
  obtain ⟨t, later, hlater⟩ := List.exists_cons_of_ne_nil hnext
  have hclose : t < last + expireTime := by
    have hchain := h.close
    rw [hlater] at hchain
    exact (List.isChain_cons_cons.1 hchain).1
  have hle : now ≤ t := by
    rcases List.mem_cons.1 (mem_of_mem_readings (hlater ▸ List.mem_cons_self)) with rfl | hmem
    · exact Nat.le_refl t
    · exact List.rel_of_pairwise_cons h.ordered.tail hmem
  omega

theorem idle_lt (h : Steady expireTime last p ((now, r) :: log))
    (hnext : readings p ((now, r) :: log) ≠ []) : now - last < expireTime := by
  have hle := h.le
  have hdue := h.not_due hnext
  omega

theorem of_use (h : Steady expireTime last p ((now, r) :: log)) (hr : p r = true) :
    Steady expireTime now p log where
  ordered := h.ordered.tail
  close := readings_cons_of_pos hr ▸ h.close.tail

theorem of_other (h : Steady expireTime last p ((now, r) :: log)) (hr : p r = false) :
    Steady expireTime last p log where
  ordered := h.ordered.sublist ((List.sublist_cons_self _ _).cons_cons _)
  close := by
    have hclose := h.close
    rwa [readings_cons_of_neg hr] at hclose

end Steady

end

end Expiring

end Turnpike
