import Turnpike.Random.Seeding

namespace Turnpike.Random

structure Row where
  a : UInt32
  b : UInt32
  c : UInt32
  d : UInt32
  deriving DecidableEq

namespace Row

def zip (f : UInt32 → UInt32 → UInt32) (x y : Row) : Row :=
  ⟨f x.a y.a, f x.b y.b, f x.c y.c, f x.d y.d⟩

def add (x y : Row) : Row := zip (· + ·) x y

def mix (n : UInt32) (x y : Row) : Row :=
  zip (fun u v => let w := u ^^^ v; (w <<< n) ||| (w >>> (32 - n))) x y

def turn (x : Row) : Row := ⟨x.b, x.c, x.d, x.a⟩

def toList (x : Row) : List UInt32 := [x.a, x.b, x.c, x.d]

end Row

structure Square where
  first : Row
  second : Row
  third : Row
  fourth : Row
  deriving DecidableEq

namespace Square

def columns (s : Square) : Square :=
  let first := s.first.add s.second
  let fourth := Row.mix 16 s.fourth first
  let third := s.third.add fourth
  let second := Row.mix 12 s.second third
  let first := first.add second
  let fourth := Row.mix 8 fourth first
  let third := third.add fourth
  let second := Row.mix 7 second third
  ⟨first, second, third, fourth⟩

def skew (s : Square) : Square :=
  ⟨s.first, s.second.turn, s.third.turn.turn, s.fourth.turn.turn.turn⟩

def unskew (s : Square) : Square :=
  ⟨s.first, s.second.turn.turn.turn, s.third.turn.turn, s.fourth.turn⟩

def doubleRound (s : Square) : Square := s.columns.skew.columns.unskew

def rounds : Nat → Square → Square
  | 0, s => s
  | n + 1, s => rounds n s.doubleRound

def add (s t : Square) : Square :=
  ⟨s.first.add t.first, s.second.add t.second, s.third.add t.third, s.fourth.add t.fourth⟩

def words (s : Square) : List UInt32 :=
  s.first.toList ++ s.second.toList ++ s.third.toList ++ s.fourth.toList

end Square

structure ChaCha where
  low : Row
  high : Row
  block : UInt64 := 0
  pending : List UInt32 := []
  deriving DecidableEq

namespace ChaCha

def ofSeed (seed : UInt64) : ChaCha :=
  match spread 8 seed with
  | [a, b, c, d, e, f, g, h] => { low := ⟨a, b, c, d⟩, high := ⟨e, f, g, h⟩ }
  | _ => { low := ⟨0, 0, 0, 0⟩, high := ⟨0, 0, 0, 0⟩ }

def constants : Row := ⟨0x61707865, 0x3320646e, 0x79622d32, 0x6b206574⟩

def blockWords (g : ChaCha) : List UInt32 :=
  let start : Square :=
    ⟨constants, g.low, g.high, ⟨g.block.toUInt32, (g.block >>> 32).toUInt32, 0, 0⟩⟩
  ((start.rounds 4).add start).words

def next32 (g : ChaCha) : UInt32 × ChaCha :=
  match g.pending with
  | w :: ws => (w, { g with pending := ws })
  | [] => match g.blockWords with
    | w :: ws => (w, { g with block := g.block + 1, pending := ws })
    | [] => (0, g)

def next64 (g : ChaCha) : UInt64 × ChaCha :=
  let (low, g) := g.next32
  let (high, g) := g.next32
  (low.toUInt64 ||| (high.toUInt64 <<< 32), g)

def nextFloat (g : ChaCha) : Float × ChaCha :=
  let (w, g) := g.next64
  ((w >>> 11).toFloat / 9007199254740992.0, g)

end ChaCha

end Turnpike.Random
