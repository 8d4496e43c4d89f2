import Turnpike.Json.Number

/-!
What a text holds when it is read as JSON. A text that breaks off keeps all that stands before
the break, so a decoder that walks the tree meets either the break or a value of the wrong shape,
whichever comes first in the text.
-/

namespace Turnpike.Json

inductive Fault
  | truncated
  | malformed
  deriving DecidableEq

inductive Found
  | null
  | bool (b : Bool)
  | number (n : Number)
  | str (s : String)
  | sequence
  | map
  | unitVariant
  deriving DecidableEq

/--
A place where the text goes wrong, and the fault that is found there by reading a value, by
stepping over it, and by reading the name of a variant.
-/
structure Break where
  read : Fault
  skipped : Fault
  named : Fault
  deriving DecidableEq

def Break.ended : Break := ⟨.truncated, .truncated, .truncated⟩

def Break.wrong : Break := ⟨.malformed, .malformed, .malformed⟩

/--
The key of a member. A string that names a lone surrogate is well formed and has no text; a
`stray` key is no string at all.
-/
inductive Key
  | text (s : Option String)
  | broken (place : Break)
  | stray (found : Except Fault Found)

/--
A document. `broken` ends the text. The `stop` of a container tells how the text goes wrong just
after its last entry, and is `none` for a closed one; the last entry may be broken itself, and
then nothing follows.
-/
inductive Doc
  | broken (place : Break)
  | null
  | bool (b : Bool)
  | number (l : Literal)
  | str (s : Option String)
  | arr (items : List Doc) (stop : Option Fault)
  | obj (members : List (Key × Doc)) (stop : Option Fault)

namespace Key

def skip : Key → Option Fault
  | .text _ => none
  | .broken b => some b.skipped
  | .stray _ => some .malformed

def read : Key → Except Fault String
  | .text (some s) => .ok s
  | .text none => .error .malformed
  | .broken b => .error b.read
  | .stray _ => .error .malformed

end Key

namespace Doc

mutual

def skip : Doc → Option Fault
  | .broken b => some b.skipped
  | .arr items stop => skipItems items <|> stop
  | .obj members stop => skipMembers members <|> stop
  | _ => none

def skipItems : List Doc → Option Fault
  | [] => none
  | d :: ds => skip d <|> skipItems ds

def skipMembers : List (Key × Doc) → Option Fault
  | [] => none
  | (k, d) :: ms => k.skip <|> skip d <|> skipMembers ms

end

def found : Doc → Except Fault Found
  | .broken b => .error b.read
  | .null => .ok .null
  | .bool b => .ok (.bool b)
  | .number l => match l.number? with
    | some n => .ok (.number n)
    | none => .error .malformed
  | .str (some s) => .ok (.str s)
  | .str none => .error .malformed
  | .arr .. => .ok .sequence
  | .obj .. => .ok .map

end Doc

end Turnpike.Json
