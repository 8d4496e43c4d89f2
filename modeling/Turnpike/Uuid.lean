import Turnpike.Json.Decode

namespace Turnpike

structure Uuid where
  bytes : List UInt8
  length_eq : bytes.length = 16
  deriving DecidableEq

namespace Uuid

def hexChar (n : Nat) : Char := if n < 10 then Char.ofNat (48 + n) else Char.ofNat (87 + n)

def hexByte (b : UInt8) : List Char := [hexChar (b.toNat / 16), hexChar (b.toNat % 16)]

def readBytes : List Char → Option (List UInt8)
  | [] => some []
  | [_] => none
  | a :: b :: cs => do
    let a ← Json.hexDigit? a
    let b ← Json.hexDigit? b
    let bs ← readBytes cs
    return UInt8.ofNat (a * 16 + b) :: bs

def ofBytes? (bytes : List UInt8) : Option Uuid :=
  if h : bytes.length = 16 then some ⟨bytes, h⟩ else none

def ofHex? (cs : List Char) : Option Uuid := readBytes cs >>= ofBytes?

def groups : List Nat := [8, 4, 4, 4, 12]

def hyphenate : List Nat → List Char → List Char
  | [], _ => []
  | [n], cs => cs.take n
  | n :: ns, cs => cs.take n ++ '-' :: hyphenate ns (cs.drop n)

/-- Drops the hyphens where they stand between groups of just these lengths. -/
def unhyphenate? : List Nat → List Char → Option (List Char)
  | [], cs => if cs.isEmpty then some [] else none
  | [n], cs => if cs.length = n then some cs else none
  | n :: ns, cs =>
    match cs.drop n with
    | '-' :: rest => (unhyphenate? ns rest).map (cs.take n ++ ·)
    | _ => none

def hex (u : Uuid) : List Char := u.bytes.flatMap hexByte

def text (u : Uuid) : List Char := hyphenate groups u.hex

def ofHyphenated? (cs : List Char) : Option Uuid := unhyphenate? groups cs >>= ofHex?

def after? : List Char → List Char → Option (List Char)
  | [], cs => some cs
  | _ :: _, [] => none
  | h :: hs, c :: cs => if h = c then after? hs cs else none

def urnHead : List Char := ['u', 'r', 'n', ':', 'u', 'u', 'i', 'd', ':']

/--
Reads thirty-two digits, or the canonical groups, which may stand between braces or behind
`urn:uuid:`. The case of the digits is free.
-/
def ofText? (cs : List Char) : Option Uuid :=
  ofHex? cs
    <|> ofHyphenated? cs
    <|> (match cs with
        | '{' :: rest =>
          if rest.getLast? = some '}' then ofHyphenated? rest.dropLast else none
        | _ => none)
    <|> (after? urnHead cs >>= ofHyphenated?)

def decode : Json.Doc → Except Json.Problem Uuid
  | .str (some s) => match ofText? s.toList with
    | some u => .ok u
    | none => Json.Mismatch.badUuid.raise
  | d => d.refuse "a formatted UUID string"

instance : ToString Uuid := ⟨fun u => String.ofList u.text⟩

end Uuid

structure InstanceId where
  uuid : Uuid
  deriving DecidableEq

namespace InstanceId

def mark : List Char := ['i', 'n', 's', 't', '_']

def text (i : InstanceId) : List Char := mark ++ i.uuid.text

def ofText? (cs : List Char) : Option InstanceId :=
  (Uuid.ofText? ((Uuid.after? mark cs).getD cs)).map InstanceId.mk

instance : ToString InstanceId := ⟨fun i => String.ofList i.text⟩
instance : ToJson InstanceId := ⟨fun i => .str (toString i.uuid)⟩
instance : Json.Decode InstanceId := ⟨fun d => InstanceId.mk <$> Uuid.decode d⟩

end InstanceId

structure RequestId where
  uuid : Uuid
  deriving DecidableEq

namespace RequestId

instance : ToString RequestId := ⟨fun r => s!"req_{r.uuid}"⟩
instance : ToJson RequestId := ⟨fun r => .str (toString r.uuid)⟩
instance : Json.Decode RequestId := ⟨fun d => RequestId.mk <$> Uuid.decode d⟩

end RequestId

end Turnpike
