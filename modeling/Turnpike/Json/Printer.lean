import Turnpike.Json.Value
import Turnpike.Decimal.Shortest

namespace Turnpike.Json

def hexDigits (n : Nat) : List Char := Nat.toDigits 16 n

def pointed : List Char → List Char
  | d :: d' :: ds => d :: '.' :: d' :: ds
  | ds => ds

def exponentText (e : Int) : List Char :=
  let ds := Nat.toDigits 10 e.natAbs
  (if e < 0 then '-' else '+') :: (if ds.length < 2 then '0' :: ds else ds)

def positional (ds : List Char) (lead : Int) : List Char :=
  if lead < 0 then ['0', '.'] ++ List.replicate (lead.natAbs - 1) '0' ++ ds
  else
    let whole := lead.toNat + 1
    let tail := ds.drop whole
    ds.take whole ++ List.replicate (whole - ds.length) '0' ++
      '.' :: (if tail.isEmpty then ['0'] else tail)

def trimZeros (ds : List Char) : List Char :=
  (ds.reverse.dropWhile (· == '0')).reverse

/--
A finite double with its shortest digits. Leading exponents from -5 to 15 are written
positionally and always with a point; all others as one digit, the rest and an exponent.
-/
def realText (x : Float) : List Char :=
  let s := Decimal.shortest x
  let all := Nat.toDigits 10 s.digits
  let lead : Int := all.length - 1 + s.exponent
  let ds := trimZeros all
  let body :=
    if s.digits = 0 then ['0', '.', '0']
    else if -5 ≤ lead ∧ lead ≤ 15 then positional ds lead
    else pointed ds ++ 'e' :: exponentText lead
  if x.toBits < 0x8000000000000000 then body else '-' :: body

def intText (n : Int) : List Char :=
  if n < 0 then '-' :: Nat.toDigits 10 n.natAbs else Nat.toDigits 10 n.natAbs

def escapeChar (c : Char) : List Char :=
  match c with
  | '"' => ['\\', '"']
  | '\\' => ['\\', '\\']
  | '\x08' => ['\\', 'b']
  | '\x0c' => ['\\', 'f']
  | '\n' => ['\\', 'n']
  | '\r' => ['\\', 'r']
  | '\t' => ['\\', 't']
  | c =>
    if c.toNat < 0x10 then ['\\', 'u', '0', '0', '0'] ++ hexDigits c.toNat
    else if c.toNat < 0x20 then ['\\', 'u', '0', '0'] ++ hexDigits c.toNat
    else [c]

def quoted (s : String) : List Char := '"' :: s.toList.flatMap escapeChar ++ ['"']

def newline (depth : Nat) : List Char := '\n' :: List.replicate (2 * depth) ' '

mutual

def layout (depth : Nat) : Json → List Char
  | .null => ['n', 'u', 'l', 'l']
  | .bool true => ['t', 'r', 'u', 'e']
  | .bool false => ['f', 'a', 'l', 's', 'e']
  | .int n => intText n
  | .float x => if x.isFinite then realText x else ['n', 'u', 'l', 'l']
  | .str s => quoted s
  | .arr [] => ['[', ']']
  | .arr (v :: vs) =>
    '[' :: newline (depth + 1) ++ layout (depth + 1) v ++ layoutItems (depth + 1) vs ++
      newline depth ++ [']']
  | .obj [] => ['{', '}']
  | .obj ((k, v) :: ms) =>
    '{' :: newline (depth + 1) ++ quoted k ++ [':', ' '] ++ layout (depth + 1) v ++
      layoutMembers (depth + 1) ms ++ newline depth ++ ['}']

def layoutItems (depth : Nat) : List Json → List Char
  | [] => []
  | v :: vs => ',' :: newline depth ++ layout depth v ++ layoutItems depth vs

def layoutMembers (depth : Nat) : List (String × Json) → List Char
  | [] => []
  | (k, v) :: ms =>
    ',' :: newline depth ++ quoted k ++ [':', ' '] ++ layout depth v ++ layoutMembers depth ms

end

mutual

def line : Json → List Char
  | .null => ['n', 'u', 'l', 'l']
  | .bool true => ['t', 'r', 'u', 'e']
  | .bool false => ['f', 'a', 'l', 's', 'e']
  | .int n => intText n
  | .float x => if x.isFinite then realText x else ['n', 'u', 'l', 'l']
  | .str s => quoted s
  | .arr [] => ['[', ']']
  | .arr (v :: vs) => '[' :: line v ++ lineItems vs ++ [']']
  | .obj [] => ['{', '}']
  | .obj ((k, v) :: ms) => '{' :: quoted k ++ ':' :: line v ++ lineMembers ms ++ ['}']

def lineItems : List Json → List Char
  | [] => []
  | v :: vs => ',' :: line v ++ lineItems vs

def lineMembers : List (String × Json) → List Char
  | [] => []
  | (k, v) :: ms => ',' :: quoted k ++ ':' :: line v ++ lineMembers ms

end

def compact (v : Json) : String := String.ofList (line v)

def pretty (v : Json) : String := String.ofList (layout 0 v)

end Turnpike.Json
