import Turnpike.Json.Problem
import Turnpike.Json.Reader

/-!
Decoding documents. A decoder walks its document from left to right and stops at the first
problem, be it a break of the text or a value of the wrong shape.
-/

namespace Turnpike.Json

class Decode (α : Type) where
  decode : Doc → Except Problem α

export Decode (decode)

variable {α β : Type}

def Fault.raise (f : Fault) : Except Problem α := .error (.fault f)

def Mismatch.raise (m : Mismatch) : Except Problem α := .error (.mismatch m)

def proceed : Option Fault → Except Problem Unit
  | none => .ok ()
  | some f => f.raise

namespace Doc

def refuse (wanted : String) (d : Doc) : Except Problem α :=
  match d.found with
  | .ok found => (Mismatch.wrongType found wanted).raise
  | .error f => f.raise

def asBool : Doc → Except Problem Bool
  | .bool b => .ok b
  | d => d.refuse "a boolean"

def asString : Doc → Except Problem String
  | .str (some s) => .ok s
  | d => d.refuse "a string"

def asUnit : Doc → Except Problem Unit
  | .null => .ok ()
  | d => d.refuse "unit"

def asWord (name : String) (bound : Nat) : Doc → Except Problem Nat
  | .number l => match l.number? with
    | none => Fault.malformed.raise
    | some (.whole n) =>
      if 0 ≤ n ∧ n < bound then .ok n.toNat else (Mismatch.wrongValue n name).raise
    | some n => (Mismatch.wrongType (.number n) name).raise
  | d => d.refuse name

def asFloat : Doc → Except Problem Float
  | .number l => match l.number? with
    | none => Fault.malformed.raise
    | some (.whole n) => .ok (Literal.signed (n < 0) (UInt64.ofNat n.natAbs).toFloat)
    | some (.real x) => .ok x
  | d => d.refuse "f64"

def asList (item : Doc → Except Problem α) : Doc → Except Problem (List α)
  | .arr items stop => do
    let as ← items.mapM item
    proceed stop
    return as
  | d => d.refuse "a sequence"

def asMembers (item : Doc → Except Problem α) : Doc → Except Problem (List (String × α))
  | .obj members stop => do
    let as ← members.mapM fun (k, d) => do
      let key ← match k.read with
        | .ok s => pure s
        | .error f => f.raise
      return (key, ← item d)
    proceed stop
    return as
  | d => d.refuse "a map"

def asOption (item : Doc → Except Problem α) : Doc → Except Problem (Option α)
  | .null => .ok none
  | d => some <$> item d

def member? (name : String) : Doc → Option Doc
  | .obj members _ => members.findSome? fun (k, d) =>
    match k with
    | .text (some s) => if s = name then some d else none
    | _ => none
  | _ => none

end Doc

instance : Decode Bool := ⟨Doc.asBool⟩
instance : Decode String := ⟨Doc.asString⟩
instance : Decode Float := ⟨Doc.asFloat⟩
instance : Decode UInt8 := ⟨fun d => UInt8.ofNat <$> d.asWord "u8" UInt8.size⟩
instance : Decode UInt16 := ⟨fun d => UInt16.ofNat <$> d.asWord "u16" UInt16.size⟩
instance : Decode UInt32 := ⟨fun d => UInt32.ofNat <$> d.asWord "u32" UInt32.size⟩
instance : Decode UInt64 := ⟨fun d => UInt64.ofNat <$> d.asWord "u64" UInt64.size⟩

instance : Decode Nat := ⟨Doc.asWord "u64" UInt64.size⟩

instance [Decode α] : Decode (Option α) := ⟨Doc.asOption decode⟩
instance [Decode α] : Decode (List α) := ⟨Doc.asList decode⟩

inductive Variant (α : Type)
  | plain (a : α)
  | carrying (content : Doc → Except Problem α)

namespace Variant

def ofName (variants : List (String × Variant α)) (name : String) : Except Problem (Variant α) :=
  match variants.lookup name with
  | some v => .ok v
  | none => (Mismatch.unknownVariant name (variants.map (·.1))).raise

def key : Key → Except Problem String
  | .text (some s) => .ok s
  | .text none => Fault.malformed.raise
  | .broken b => b.read.raise
  | .stray (.ok found) => (Mismatch.wrongType found "variant identifier").raise
  | .stray (.error f) => f.raise

/--
A variant is its name as a string, or an object with the name as its one key; a plain variant has
`null` under that key.
-/
def decode (variants : List (String × Variant α)) : Doc → Except Problem α
  | .str (some name) => do
    match ← ofName variants name with
    | .plain a => return a
    | .carrying _ => (Mismatch.wrongType .unitVariant "newtype variant").raise
  | .obj [] stop => (stop.getD .malformed).raise
  | .obj ((k, d) :: ms) stop => do
    let a ← match ← ofName variants (← key k) with
      | .plain a => d.asUnit.map fun _ => a
      | .carrying content => content d
    if ms.isEmpty then proceed stop else Fault.malformed.raise
    return a
  | .broken b => b.named.raise
  | _ => Fault.malformed.raise

end Variant

structure Items where
  rest : List Doc
  stop : Option Fault
  taken : Nat

/--
How the fields of a record are found. In an object they come in any order, each at most once, and
`check` finds the problem of one member; `build` then puts the record together. In an array they
come in the order of declaration, and `take` reads them one after the other.
-/
structure Fields (α : Type) where
  names : List String
  check : String → Doc → Except Problem Unit
  build : (String → Option Doc) → Except Problem α
  take : String × Nat → Items → Except Problem (α × Items)

namespace Fields

def one (name : String) (item : Doc → Except Problem α) (absent short : Option α) : Fields α where
  names := [name]
  check _ d := (item d).map fun _ => ()
  build find := match find name with
    | some d => item d
    | none => match absent with
      | some a => .ok a
      | none => (Mismatch.missingField name).raise
  take record s := match s.rest with
    | d :: ds => (item d).map fun a => (a, { s with rest := ds, taken := s.taken + 1 })
    | [] => do
      proceed s.stop
      match short with
      | some a => .ok (a, { s with taken := s.taken + 1 })
      | none => (Mismatch.wrongLength s.taken record.1 record.2).raise

def required (name : String) [Decode α] : Fields α := one name decode none none

/-- A field that may be left out of an object, though not of an array. -/
def optional (name : String) [Decode α] : Fields (Option α) := one name decode (some none) none

def orElse (name : String) (default : α) [Decode α] : Fields α :=
  one name decode (some default) (some default)

def and (f : Fields (α → β)) (g : Fields α) : Fields β where
  names := f.names ++ g.names
  check name d := if name ∈ f.names then f.check name d else g.check name d
  build find := do
    let h ← f.build find
    let a ← g.build find
    return h a
  take record s := do
    let (h, s) ← f.take record s
    let (a, s) ← g.take record s
    return (h a, s)

def value (a : α) : Fields α where
  names := []
  check _ _ := .ok ()
  build _ := .ok a
  take _ s := .ok (a, s)

instance : Applicative Fields where
  pure := value
  seq f g := f.and (g ())

/-- A field with a default that `null` stands for as well. -/
def nullable (name : String) (default : α) [Decode α] : Fields α :=
  (·.getD default) <$> optional name

def walk (f : Fields α) : List String → List (Key × Doc) → Except Problem Unit
  | _, [] => .ok ()
  | seen, (k, d) :: ms => do
    let name ← match k.read with
      | .ok s => pure s
      | .error f => f.raise
    if name ∈ f.names then
      if name ∈ seen then (Mismatch.duplicateField name).raise
      f.check name d
      walk f (name :: seen) ms
    else
      proceed d.skip
      walk f seen ms

/-- A record is an object, or an array of its fields and nothing else. -/
def decode (record : String) (f : Fields α) : Doc → Except Problem α
  | .obj members stop => do
    f.walk [] members
    proceed stop
    f.build fun name => (Doc.obj members stop).member? name
  | .arr items stop => do
    let (a, s) ← f.take (record, f.names.length) ⟨items, stop, 0⟩
    if s.rest.isEmpty then proceed stop else Fault.malformed.raise
    return a
  | d => d.refuse s!"struct {record}"

end Fields

/-- Decodes a whole text. What follows the value is looked at last. -/
def decodeText (α : Type) [Decode α] (text : String) : Except Problem α := do
  let source := Source.ofText text
  let a ← decode source.root
  if source.ended then return a else Fault.malformed.raise

inductive LoadError (ε : Type)
  | unreadable (p : Problem)
  | refused (e : ε)
  deriving DecidableEq

def loadText (α : Type) {β ε : Type} [Decode α] (accept : α → Except ε β) (text : String) :
    Except (LoadError ε) β :=
  match decodeText α text with
  | .error p => .error (.unreadable p)
  | .ok a => (accept a).mapError .refused

end Turnpike.Json
