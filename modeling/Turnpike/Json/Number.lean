/-!
Number literals and what they denote. A literal without fraction and exponent is a whole number
when it fits a 64-bit word; all others denote doubles, which are computed from a 64-bit
significand and one scaling by a power of ten.
-/

namespace Turnpike.Json

/-- A number literal, digit by digit. No fraction digit means that there is no point. -/
structure Literal where
  negative : Bool
  whole : List Nat
  fraction : List Nat
  exponent : Option Int
  deriving DecidableEq

inductive Number
  | whole (n : Int)
  | real (x : Float)
  deriving DecidableEq

namespace Literal

def leading : Nat → List Nat → Nat × Nat
  | acc, [] => (acc, 0)
  | acc, d :: ds =>
    if acc * 10 + d < UInt64.size then leading (acc * 10 + d) ds else (acc, ds.length + 1)

def extend : Nat → List Nat → Nat × Nat
  | acc, [] => (acc, 0)
  | acc, d :: ds =>
    if acc * 10 + d < UInt64.size then
      let (sum, taken) := extend (acc * 10 + d) ds
      (sum, taken + 1)
    else (acc, 0)

def pow10 (n : Nat) : Float := Float.ofScientific 1 false n

/--
`x · 10^e`, in steps that stay within the powers of ten a double can hold; `none` beyond the
largest double.
-/
def scale (x : Float) (e : Int) : Option Float :=
  if e.natAbs ≤ 308 then
    if 0 ≤ e then
      let y := x * pow10 e.natAbs
      if y.isInf then none else some y
    else some (x / pow10 e.natAbs)
  else if x == 0 then some x
  else if 0 ≤ e then none
  else scale (x / pow10 308) (e + 308)
termination_by e.natAbs
decreasing_by omega

def signed (negative : Bool) (x : Float) : Float := if negative then -x else x

def real? (l : Literal) : Option Float :=
  let (high, dropped) := leading 0 l.whole
  let (significand, taken) := extend high l.fraction
  let power := (dropped : Int) - taken + l.exponent.getD 0
  (scale (UInt64.ofNat significand).toFloat power).map (signed l.negative)

/--
The number that a literal denotes; `none` beyond the largest double. A whole literal outside the
64-bit words is a double, and so is `-0`.
-/
def number? (l : Literal) : Option Number :=
  let (n, dropped) := leading 0 l.whole
  if l.fraction.isEmpty && l.exponent.isNone && dropped == 0 then
    if !l.negative then some (.whole n)
    else if 0 < n && n ≤ UInt64.size / 2 then some (.whole (-n))
    else some (.real (-(UInt64.ofNat n).toFloat))
  else l.real?.map .real

end Literal

end Turnpike.Json
