import Turnpike.Json.Document

/-!
String literals. `marks` cuts a literal into characters and escaped UTF-16 units, and `unite`
joins the units that form surrogate pairs.
-/

namespace Turnpike.Json

inductive Mark
  | char (c : Char)
  | unit (n : Nat)
  deriving DecidableEq

def hexDigit? (c : Char) : Option Nat :=
  if '0' ≤ c ∧ c ≤ '9' then some (c.toNat - 48)
  else if 'a' ≤ c ∧ c ≤ 'f' then some (c.toNat - 87)
  else if 'A' ≤ c ∧ c ≤ 'F' then some (c.toNat - 55)
  else none

def hexUnit? (a b c d : Char) : Option Nat := do
  let a ← hexDigit? a
  let b ← hexDigit? b
  let c ← hexDigit? c
  let d ← hexDigit? d
  return ((a * 16 + b) * 16 + c) * 16 + d

def unescape? : Char → Option Char
  | '"' => some '"'
  | '\\' => some '\\'
  | '/' => some '/'
  | 'b' => some '\x08'
  | 'f' => some '\x0c'
  | 'n' => some '\n'
  | 'r' => some '\r'
  | 't' => some '\t'
  | _ => none

/--
Cuts the text after an opening quote into marks, and gives what follows the closing quote. Fewer
than four bytes after an escaped `u` count as a text that ends too early, whatever they are.
-/
def marks : List Char → List Mark × Except Fault (List Char)
  | [] => ([], .error .truncated)
  | '"' :: cs => ([], .ok cs)
  | '\\' :: 'u' :: a :: b :: c :: d :: cs =>
    match hexUnit? a b c d with
    | some n => (marks cs).map (.unit n :: ·) id
    | none => ([], .error .malformed)
  | '\\' :: 'u' :: cs =>
    ([], .error (if cs.foldr (·.utf8Size + ·) 0 < 4 then .truncated else .malformed))
  | ['\\'] => ([], .error .truncated)
  | '\\' :: c :: cs =>
    match unescape? c with
    | some c => (marks cs).map (.char c :: ·) id
    | none => ([], .error .malformed)
  | c :: cs => if c.toNat < 0x20 then ([], .error .malformed) else (marks cs).map (.char c :: ·) id

def isLead (n : Nat) : Bool := 0xD800 ≤ n && n ≤ 0xDBFF

def isTrail (n : Nat) : Bool := 0xDC00 ≤ n && n ≤ 0xDFFF

def unite : List Mark → Option (List Char)
  | [] => some []
  | .char c :: ms => (unite ms).map (c :: ·)
  | .unit n :: .unit m :: ms =>
    if isLead n then
      if isTrail m then
        (unite ms).map (Char.ofNat (0x10000 + (n - 0xD800) * 0x400 + (m - 0xDC00)) :: ·)
      else none
    else if isTrail n then none
    else (unite (.unit m :: ms)).map (Char.ofNat n :: ·)
  | .unit n :: ms =>
    if isLead n || isTrail n then none else (unite ms).map (Char.ofNat n :: ·)

def standsAlone : List Mark → Bool
  | [] => false
  | .char _ :: ms => standsAlone ms
  | [.unit n] => isTrail n
  | .unit n :: .unit m :: ms =>
    if isLead n then !isTrail m || standsAlone ms
    else isTrail n || standsAlone (.unit m :: ms)
  | .unit n :: ms => isLead n || isTrail n || standsAlone ms

def brokenText (ms : List Mark) (f : Fault) : Break :=
  let read := if standsAlone ms then .malformed else f
  ⟨read, f, read⟩

end Turnpike.Json
