namespace Turnpike.Decimal

def ofDigits (ds : List Char) : Nat := ds.foldl (fun n d => 10 * n + (d.toNat - '0'.toNat)) 0

def natural? (cs : List Char) : Option Nat :=
  if !cs.isEmpty && cs.all Char.isDigit then some (ofDigits cs) else none

def unsigned? : List Char → Option Nat
  | '+' :: cs => natural? cs
  | cs => natural? cs

def integer? : List Char → Option Int
  | '-' :: cs => (natural? cs).map fun n => -(n : Int)
  | cs => (unsigned? cs).map Int.ofNat

def exponent? : List Char → Option Int
  | [] => some 0
  | c :: cs => if c.toLower = 'e' then integer? cs else none

/-- The double nearest to `n · 10^e`. Far outside the range of doubles nothing is computed. -/
def nearest (n : Nat) (e : Int) : Float :=
  let lead := e + (Nat.toDigits 10 n).length
  if n = 0 ∨ lead < -400 then 0.0
  else if 400 < lead then 1.0 / 0.0
  else Float.ofScientific n (e < 0) e.natAbs

def magnitude? (cs : List Char) : Option Float :=
  let (whole, rest) := cs.span Char.isDigit
  let (fraction, rest) := match rest with
    | '.' :: cs => cs.span Char.isDigit
    | cs => ([], cs)
  if whole.isEmpty && fraction.isEmpty then none
  else (exponent? rest).map fun e => nearest (ofDigits (whole ++ fraction)) (e - fraction.length)

def unsignedReal? (cs : List Char) : Option Float :=
  match String.ofList (cs.map Char.toLower) with
  | "nan" => some (0.0 / 0.0)
  | "inf" | "infinity" => some (1.0 / 0.0)
  | _ => magnitude? cs

def real? : List Char → Option Float
  | '-' :: cs => (unsignedReal? cs).map (-·)
  | '+' :: cs => unsignedReal? cs
  | cs => unsignedReal? cs

end Turnpike.Decimal
