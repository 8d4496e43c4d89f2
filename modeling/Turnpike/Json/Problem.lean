import Turnpike.Json.Document
import Turnpike.Json.Printer
import Turnpike.Json.Shown

namespace Turnpike.Json

inductive Mismatch
  | missingField (name : String)
  | duplicateField (name : String)
  | unknownVariant (name : String) (known : List String)
  | wrongType (found : Found) (wanted : String)
  | wrongValue (n : Int) (wanted : String)
  | wrongLength (count : Nat) (record : String) (fields : Nat)
  | badUuid
  deriving DecidableEq

inductive Problem
  | fault (f : Fault)
  | mismatch (m : Mismatch)
  deriving DecidableEq

def Found.describe : Found → String
  | .null => "null"
  | .bool b => s!"boolean `{b}`"
  | .number (.whole n) => s!"integer `{n}`"
  | .number (.real x) => s!"floating point `{String.ofList (realText x)}`"
  | .str s => s!"string {shown s}"
  | .sequence => "sequence"
  | .map => "map"
  | .unitVariant => "unit variant"

def listed : List String → String
  | [] => "there are no variants"
  | [a] => s!"expected `{a}`"
  | [a, b] => s!"expected `{a}` or `{b}`"
  | names =>
    let quotedNames := ", ".intercalate (names.map fun n => s!"`{n}`")
    s!"expected one of {quotedNames}"

def Mismatch.message : Mismatch → String
  | .missingField name => s!"missing field `{name}`"
  | .duplicateField name => s!"duplicate field `{name}`"
  | .unknownVariant name known => s!"unknown variant `{name}`, {listed known}"
  | .wrongType found wanted => s!"invalid type: {found.describe}, expected {wanted}"
  | .wrongValue n wanted => s!"invalid value: integer `{n}`, expected {wanted}"
  | .wrongLength count record fields =>
    s!"invalid length {count}, expected struct {record} with {fields} elements"
  | .badUuid => "UUID parsing failed"

end Turnpike.Json
