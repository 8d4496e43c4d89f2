import Turnpike.Expiring

namespace Turnpike

structure Timed (σ : Type) where
  /-- The reading of the clock in milliseconds, which wraps around. -/
  now : UInt64
  value : σ
  sweepers : List (Sweeper × (Nat → σ → σ)) := []

namespace Timed

variable {σ : Type}

def set (t : Timed σ) (now : UInt64) : Timed σ := { t with now }

def advance (t : Timed σ) (ms : UInt64) : Timed σ := { t with now := t.now + ms }

def spawn (t : Timed σ) (cleanInterval : Nat) (sweep : Nat → σ → σ) : Timed σ :=
  { t with sweepers := t.sweepers ++ [(.ofInterval cleanInterval, sweep)] }

/-- Sleeps. Each sweeper sweeps at the reading of the clock at which it falls due. -/
def sleep (t : Timed σ) (ms : UInt64) : Timed σ :=
  let now := t.now + ms
  let slept := t.sweepers.map fun (s, sweep) => (s.sleep ms.toNat, sweep)
  { now
    value := slept.foldl (fun v ((due, _), sweep) => match due with
      | some rest => sweep (now - UInt64.ofNat rest).toNat v
      | none => v) t.value
    sweepers := slept.map fun ((_, s), sweep) => (s, sweep) }

end Timed

end Turnpike
