namespace Turnpike

/-- A JSON value. Whole numbers and doubles are kept apart, and members keep their order. -/
inductive Json
  | null
  | bool (b : Bool)
  | int (n : Int)
  | float (x : Float)
  | str (s : String)
  | arr (items : List Json)
  | obj (members : List (String × Json))
  deriving Inhabited, BEq

class ToJson (α : Type) where
  toJson : α → Json

export ToJson (toJson)

instance : ToJson Json := ⟨id⟩
instance : ToJson Bool := ⟨.bool⟩
instance : ToJson Nat := ⟨fun n => .int n⟩
instance : ToJson UInt8 := ⟨fun n => .int n.toNat⟩
instance : ToJson UInt16 := ⟨fun n => .int n.toNat⟩
instance : ToJson UInt32 := ⟨fun n => .int n.toNat⟩
instance : ToJson UInt64 := ⟨fun n => .int n.toNat⟩
instance : ToJson Float := ⟨.float⟩
instance : ToJson String := ⟨.str⟩

instance {α : Type} [ToJson α] : ToJson (Option α) where
  toJson
    | none => .null
    | some a => toJson a

instance {α : Type} [ToJson α] : ToJson (List α) := ⟨fun as => .arr (as.map toJson)⟩

def Json.tagged (name : String) (content : Json) : Json := .obj [(name, content)]

end Turnpike
