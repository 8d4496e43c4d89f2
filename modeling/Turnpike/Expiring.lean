import Turnpike.Dict

/-!
State by key that expires when it lies idle. An entry is dropped by the first sweep that finds it
idle for the expiry time; every look-up sweeps first when the last sweep lies a clean interval
back. Times are readings of a clock in milliseconds.
-/

namespace Turnpike

structure Slot (α : Type) where
  value : α
  lastAccess : Nat
  deriving DecidableEq

structure Expiring (α : Type) where
  cleanInterval : Nat
  expireTime : Nat
  lastSweep : Nat
  slots : Dict String (Slot α) := .empty

namespace Slot

variable {α : Type}

def touch (s : Slot α) (now : Nat) : Slot α := { s with lastAccess := max s.lastAccess now }

def idle (s : Slot α) (now : Nat) : Nat := now - s.lastAccess

theorem idle_lt_of_le {s : Slot α} {now n : Nat} (h : now ≤ s.lastAccess) (hpos : 0 < n) :
    s.idle now < n :=
  Nat.lt_of_le_of_lt (Nat.le_of_eq (Nat.sub_eq_zero_of_le h)) hpos

end Slot

namespace Expiring

variable {α : Type}

def size (m : Expiring α) : Nat := m.slots.size

def isEmpty (m : Expiring α) : Bool := m.slots.isEmpty

def contains (m : Expiring α) (key : String) : Bool := m.slots.contains key

def evict (m : Expiring α) (now : Nat) : Expiring α :=
  { m with slots :=
      ⟨m.slots.entries.filter fun (_, s) => s.idle now < m.expireTime, m.slots.ascending.filter _⟩ }

def sweep (m : Expiring α) (now : Nat) : Nat × Expiring α :=
  let swept := { m with lastSweep := max m.lastSweep now }.evict now
  (m.size - swept.size, swept)

def sweepIfDue (m : Expiring α) (now : Nat) : Expiring α :=
  if now - m.lastSweep < m.cleanInterval then m else { m with lastSweep := now }.evict now

/--
The value of a key. It is made anew when there is none, or none that is fresh; a fresh one is
touched.
-/
def fetch (m : Expiring α) (now : Nat) (key : String) (fresh : α → Bool) (make : α) :
    α × Expiring α :=
  let m := m.sweepIfDue now
  match m.slots.get? key with
  | some s =>
    if fresh s.value then (s.value, { m with slots := m.slots.insert key (s.touch now) })
    else (make, { m with slots := m.slots.insert key ⟨make, now⟩ })
  | none => (make, { m with slots := m.slots.insert key ⟨make, now⟩ })

/-- The value of a key if there is one. To look is to touch. -/
def get? (m : Expiring α) (now : Nat) (key : String) : Option α × Expiring α :=
  let m := m.sweepIfDue now
  match m.slots.get? key with
  | some s => (some s.value, { m with slots := m.slots.insert key (s.touch now) })
  | none => (none, m)

/-- Puts another value where a key is held, which is no access. -/
def set (m : Expiring α) (key : String) (a : α) : Expiring α :=
  match m.slots.get? key with
  | some s => { m with slots := m.slots.insert key { s with value := a } }
  | none => m

def remove (m : Expiring α) (key : String) : Option α × Expiring α :=
  ((m.slots.get? key).map (·.value), { m with slots := m.slots.erase key })

end Expiring

/--
A timer that sweeps at every multiple of its period, counted in time slept since it was started.
`sinceTick` is the time slept since its last sweep.
-/
structure Sweeper where
  period : Nat
  sinceTick : Nat := 0
  deriving DecidableEq

namespace Sweeper

def ofInterval (cleanInterval : Nat) : Sweeper := { period := max cleanInterval 1 }

/--
Lets the sweeper sleep. If sweeps fall due, the time between the last of them and the end of the
sleep is given: no access lies between them, so the last one does the work of all.
-/
def sleep (s : Sweeper) (ms : Nat) : Option Nat × Sweeper :=
  let slept := s.sinceTick + ms
  let rest := slept % s.period
  (if s.period ≤ slept then some rest else none, { s with sinceTick := rest })

end Sweeper

end Turnpike
