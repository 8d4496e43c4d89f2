/-!
The fewest decimal digits that round back to a given double. A double is `m · 2^q`, and the reals
that round to it form an interval, whose ends belong to it exactly when `m` is even. Grids of 1,
2, … 17 digits are tried in turn: the value's two neighbours on a grid are compared with the
interval, and of two hits the nearer one wins, an exact tie going to the even digit.
-/

namespace Turnpike.Decimal

structure Scientific where
  digits : Nat
  exponent : Int
  deriving DecidableEq

def hiddenBit : Nat := 1 <<< 52

def parts (x : Float) : Nat × Int :=
  let bits := x.toBits.toNat
  let fraction := bits % hiddenBit
  match bits / hiddenBit % 2048 with
  | 0 => (fraction, -1074)
  | e + 1 => (hiddenBit + fraction, (e : Int) - 1074)

/-- The interval that rounds to `m · 2^q`, in quarters of the last place, and the value itself. -/
structure Target where
  low : Nat
  value : Nat
  high : Nat
  closed : Bool
  unit : Int

def Target.ofParts (m : Nat) (q : Int) : Target where
  low := if m = hiddenBit ∧ -1074 < q then 4 * m - 1 else 4 * m - 2
  value := 4 * m
  high := 4 * m + 2
  closed := m % 2 = 0
  unit := q - 2

def ratio (n : Nat) (unit e : Int) : Nat × Nat :=
  ((n <<< unit.toNat) * Nat.pow 10 (-e).toNat, (1 <<< (-unit).toNat) * Nat.pow 10 e.toNat)

def Target.holds (t : Target) (digits : Nat) (e : Int) : Bool :=
  let (low, d) := ratio t.low t.unit e
  let (high, _) := ratio t.high t.unit e
  if t.closed then low ≤ digits * d && digits * d ≤ high
  else low < digits * d && digits * d < high

def Target.onGrid (t : Target) (e : Int) : Option Scientific :=
  let (n, d) := ratio t.value t.unit e
  let below := n / d
  match t.holds below e, t.holds (below + 1) e with
  | true, true =>
    let rest := 2 * (n % d)
    some ⟨if rest < d || (rest == d && below % 2 == 0) then below else below + 1, e⟩
  | true, false => some ⟨below, e⟩
  | false, true => some ⟨below + 1, e⟩
  | false, false => none

def leadingExponent : Nat → Nat → Nat → Int
  | 0, _, _ => 0
  | steps + 1, n, d =>
    if d ≤ n then (Nat.toDigits 10 (n / d)).length - 1
    else leadingExponent steps (10 * n) d - 1

def shortest (x : Float) : Scientific :=
  let (m, q) := parts x
  if m = 0 then ⟨0, 0⟩
  else
    let t := Target.ofParts m q
    let (n, d) := ratio t.value t.unit 0
    let lead := leadingExponent 400 n d
    ((List.range 17).findSome? fun (k : Nat) => t.onGrid (lead - k)).getD ⟨m, q⟩

end Turnpike.Decimal
