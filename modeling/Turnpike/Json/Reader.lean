import Turnpike.Json.Text

namespace Turnpike.Json

def isBlank (c : Char) : Bool := c == ' ' || c == '\n' || c == '\t' || c == '\r'

def skipBlank (cs : List Char) : List Char := cs.dropWhile isBlank

/-- A value and the text after it; no text is left after a break. -/
abbrev Reading (α : Type) := α × Option (List Char)

def readWord (d : Doc) : List Char → List Char → Reading Doc
  | [], cs => (d, some cs)
  | _ :: _, [] => (.broken { Break.ended with named := .malformed }, none)
  | w :: ws, c :: cs => if w = c then readWord d ws cs else (.broken .wrong, none)

def digit? (c : Char) : Option Nat := if '0' ≤ c ∧ c ≤ '9' then some (c.toNat - 48) else none

def readDigits : List Char → List Nat × List Char
  | [] => ([], [])
  | c :: cs => match digit? c with
    | some d => (readDigits cs).map (d :: ·) id
    | none => ([], c :: cs)

/--
A break where a digit is missing. At the end of the text, reading finds the number cut short and
stepping over it finds a wrong character.
-/
def missingDigit (cs : List Char) : Reading Doc :=
  (.broken { Break.wrong with read := if cs.isEmpty then .truncated else .malformed }, none)

def readExponent (l : Literal) (cs : List Char) : Reading Doc :=
  let (negative, cs) := match cs with
    | '+' :: cs => (false, cs)
    | '-' :: cs => (true, cs)
    | cs => (false, cs)
  match readDigits cs with
  | ([], cs) => missingDigit cs
  | (ds, cs) =>
    let n : Nat := ds.foldl (fun n d => n * 10 + d) 0
    (.number { l with exponent := some (if negative then -n else n) }, some cs)

def readFraction (l : Literal) (cs : List Char) : Reading Doc :=
  match readDigits cs with
  | ([], cs) => missingDigit cs
  | (ds, cs) =>
    let l := { l with fraction := ds }
    match cs with
    | 'e' :: cs | 'E' :: cs => readExponent l cs
    | cs => (.number l, some cs)

def readNumber (negative : Bool) (cs : List Char) : Reading Doc :=
  match readDigits cs with
  | ([], cs) => missingDigit cs
  | (0 :: _ :: _, _) => (.broken .wrong, none)
  | (ds, cs) =>
    let l : Literal := ⟨negative, ds, [], none⟩
    match cs with
    | '.' :: cs => readFraction l cs
    | 'e' :: cs | 'E' :: cs => readExponent l cs
    | cs => (.number l, some cs)

def readString (cs : List Char) : Reading Doc :=
  match marks cs with
  | (ms, .ok rest) => (.str ((unite ms).map String.ofList), some rest)
  | (ms, .error f) => (.broken (brokenText ms f), none)

mutual

/-- Reads one value. Each bracket and each entry costs a step: twice the length is enough fuel. -/
def readValue : Nat → List Char → Reading Doc
  | 0, _ => (.broken .wrong, none)
  | fuel + 1, cs =>
    match skipBlank cs with
    | [] => (.broken .ended, none)
    | 'n' :: cs => readWord .null ['u', 'l', 'l'] cs
    | 't' :: cs => readWord (.bool true) ['r', 'u', 'e'] cs
    | 'f' :: cs => readWord (.bool false) ['a', 'l', 's', 'e'] cs
    | '"' :: cs => readString cs
    | '-' :: cs => readNumber true cs
    | '[' :: cs =>
      match skipBlank cs with
      | [] => (.arr [] (some .truncated), none)
      | ']' :: cs => (.arr [] none, some cs)
      | cs =>
        let (items, stop, rest) := readItems fuel cs
        (.arr items stop, rest)
    | '{' :: cs =>
      match skipBlank cs with
      | [] => (.obj [] (some .truncated), none)
      | '}' :: cs => (.obj [] none, some cs)
      | cs =>
        let (members, stop, rest) := readMembers fuel cs
        (.obj members stop, rest)
    | c :: cs =>
      if (digit? c).isSome then readNumber false (c :: cs)
      else (.broken .wrong, none)

def readItems : Nat → List Char → List Doc × Option Fault × Option (List Char)
  | 0, _ => ([], some .malformed, none)
  | fuel + 1, cs =>
    match readValue fuel cs with
    | (d, none) => ([d], some .malformed, none)
    | (d, some cs) =>
      match skipBlank cs with
      | [] => ([d], some .truncated, none)
      | ']' :: cs => ([d], none, some cs)
      | ',' :: cs =>
        let (ds, stop, rest) := readItems fuel cs
        (d :: ds, stop, rest)
      | _ => ([d], some .malformed, none)

def readMembers : Nat → List Char → List (Key × Doc) × Option Fault × Option (List Char)
  | 0, _ => ([], some .malformed, none)
  | fuel + 1, cs =>
    match skipBlank cs with
    | [] => ([(.broken .ended, .null)], some .truncated, none)
    | '"' :: cs =>
      match marks cs with
      | (ms, .error f) => ([(.broken (brokenText ms f), .null)], some f, none)
      | (ms, .ok cs) =>
        let key : Key := .text ((unite ms).map String.ofList)
        match skipBlank cs with
        | [] => ([(key, .broken .ended)], some .truncated, none)
        | ':' :: cs =>
          match readValue fuel cs with
          | (d, none) => ([(key, d)], some .malformed, none)
          | (d, some cs) =>
            match skipBlank cs with
            | [] => ([(key, d)], some .truncated, none)
            | '}' :: cs => ([(key, d)], none, some cs)
            | ',' :: cs =>
              let (ms, stop, rest) := readMembers fuel cs
              ((key, d) :: ms, stop, rest)
            | _ => ([(key, d)], some .malformed, none)
        | _ => ([(key, .broken .wrong)], some .malformed, none)
    | cs => ([(.stray (readValue fuel cs).1.found, .null)], some .malformed, none)

end

structure Source where
  root : Doc
  ended : Bool

def Source.ofText (text : String) : Source :=
  let cs := text.toList
  match readValue (2 * cs.length + 2) cs with
  | (d, none) => ⟨d, true⟩
  | (d, some rest) => ⟨d, (skipBlank rest).isEmpty⟩

end Turnpike.Json
