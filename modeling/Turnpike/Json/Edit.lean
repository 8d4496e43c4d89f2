import Turnpike.Json.Decode
import Turnpike.Json.Printer

namespace Turnpike.Json.Doc

def members : Doc → List (String × Doc)
  | .obj ms _ => ms.filterMap fun (k, d) => match k with
    | .text (some name) => some (name, d)
    | _ => none
  | _ => []

def ofMembers (ms : List (String × Doc)) : Doc :=
  .obj (ms.map fun (name, d) => (.text (some name), d)) none

def put (d : Doc) (ms : List (String × Doc)) : Doc :=
  ofMembers (d.members.filter (fun m => !ms.any (·.1 == m.1)) ++ ms)

def putWithin (d : Doc) (name : String) (ms : List (String × Doc)) : Doc :=
  d.put [(name, ((d.member? name).getD .null).put ms)]

def append (d : Doc) (name : String) (items : List Doc) : Doc :=
  match d.member? name with
  | some (.arr old stop) => d.put [(name, .arr (old ++ items) stop)]
  | _ => d

def ofValue {α : Type} [ToJson α] (a : α) : Doc := (Source.ofText (compact (toJson a))).root

end Turnpike.Json.Doc
