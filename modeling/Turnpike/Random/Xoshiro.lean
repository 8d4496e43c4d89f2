import Turnpike.Random.Seeding

namespace Turnpike.Random

structure Xoshiro where
  s0 : UInt64
  s1 : UInt64
  s2 : UInt64
  s3 : UInt64
  deriving DecidableEq

namespace Xoshiro

def pair (low high : UInt32) : UInt64 := low.toUInt64 ||| (high.toUInt64 <<< 32)

def ofSeed (seed : UInt64) : Xoshiro :=
  match spread 8 seed with
  | [a, b, c, d, e, f, g, h] => ⟨pair a b, pair c d, pair e f, pair g h⟩
  | _ => ⟨0, 0, 0, 0⟩

def rotateLeft (x n : UInt64) : UInt64 := (x <<< n) ||| (x >>> (64 - n))

def next (g : Xoshiro) : UInt64 × Xoshiro :=
  let s2 := g.s2 ^^^ g.s0
  let s3 := g.s3 ^^^ g.s1
  (rotateLeft (g.s0 + g.s3) 23 + g.s0,
    ⟨g.s0 ^^^ s3, g.s1 ^^^ s2, s2 ^^^ (g.s1 <<< 17), rotateLeft s3 45⟩)

def zone (n : Nat) : Nat := n <<< (63 - n.log2) - 1

/--
A number below `n`: the high half of a draw times `n`. Draws whose low half lies beyond the zone
are thrown away, at most so many times.
-/
def drawBelow (n : Nat) : Nat → Xoshiro → Nat × Xoshiro
  | 0, g =>
    let (v, g) := g.next
    (v.toNat * n / UInt64.size, g)
  | tries + 1, g =>
    let (v, g') := g.next
    let product := v.toNat * n
    if product % UInt64.size ≤ zone n then (product / UInt64.size, g')
    else drawBelow n tries g'

/-- A number below `n`. At least every other draw is kept, so the tries do not run out. -/
def below (g : Xoshiro) (n : Nat) : Nat × Xoshiro := drawBelow n 1000 g

theorem high_lt {n : Nat} (v : UInt64) (h : 0 < n) : v.toNat * n / UInt64.size < n := by
  apply Nat.div_lt_of_lt_mul
  exact Nat.mul_lt_mul_of_pos_right v.toNat_lt_size h

theorem drawBelow_lt {n : Nat} (h : 0 < n) (tries : Nat) (g : Xoshiro) :
    (drawBelow n tries g).1 < n := by
  induction tries generalizing g with
  | zero => exact high_lt _ h
  | succ tries ih =>
    unfold drawBelow
    simp only
    split
    · exact high_lt _ h
    · exact ih _

theorem below_lt {n : Nat} (h : 0 < n) (g : Xoshiro) : (g.below n).1 < n := drawBelow_lt h _ _

end Xoshiro

end Turnpike.Random
