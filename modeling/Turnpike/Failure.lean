import Turnpike.Dict

namespace Turnpike

inductive RejectKind
  | rateLimited
  | circuitOpen
  | unauthorized
  | other
  deriving DecidableEq

inductive DispatchKind
  | connect
  | timeout
  | transport
  deriving DecidableEq

inductive FailureKind
  | unready
  | noProvider
  | rejected (kind : RejectKind)
  | dispatch (kind : DispatchKind)
  /-- The call completed, but its reply stands for an error. -/
  | application
  deriving DecidableEq

structure Failure where
  kind : FailureKind
  message : String
  code : Option String
  deriving DecidableEq

structure Rejection where
  kind : RejectKind
  message : String
  deriving DecidableEq

namespace RejectKind

def describe : RejectKind → String
  | .rateLimited => "rate limited"
  | .circuitOpen => "circuit open"
  | .unauthorized => "unauthorized"
  | .other => "rejected"

def name : RejectKind → String
  | .rateLimited => "rateLimited"
  | .circuitOpen => "circuitOpen"
  | .unauthorized => "unauthorized"
  | .other => "other"

def all : List RejectKind := [.rateLimited, .circuitOpen, .unauthorized, .other]

def rank : RejectKind → Nat
  | .rateLimited => 0
  | .circuitOpen => 1
  | .unauthorized => 2
  | .other => 3

instance : ToJson RejectKind := ⟨fun k => .str k.name⟩
instance : Json.Decode RejectKind := ⟨Json.Variant.decode (all.map fun k => (k.name, .plain k))⟩

end RejectKind

namespace DispatchKind

def name : DispatchKind → String
  | .connect => "connect"
  | .timeout => "timeout"
  | .transport => "transport"

def describe (k : DispatchKind) : String := k.name

def all : List DispatchKind := [.connect, .timeout, .transport]

def rank : DispatchKind → Nat
  | .connect => 0
  | .timeout => 1
  | .transport => 2

instance : ToJson DispatchKind := ⟨fun k => .str k.name⟩
instance : Json.Decode DispatchKind := ⟨Json.Variant.decode (all.map fun k => (k.name, .plain k))⟩

end DispatchKind

namespace FailureKind

def describe : FailureKind → String
  | .unready => "unready"
  | .noProvider => "no provider"
  | .rejected kind => s!"rejected ({kind.describe})"
  | .dispatch kind => s!"dispatch ({kind.describe})"
  | .application => "application"

def rank : FailureKind → Nat
  | .unready => 0
  | .noProvider => 1
  | .rejected kind => 2 + kind.rank
  | .dispatch kind => 6 + kind.rank
  | .application => 9

theorem rank_injective : ∀ {a b : FailureKind}, a.rank = b.rank → a = b := by
  intro a b
  rcases a with _ | _ | ⟨_ | _ | _ | _⟩ | ⟨_ | _ | _⟩ | _ <;>
    rcases b with _ | _ | ⟨_ | _ | _ | _⟩ | ⟨_ | _ | _⟩ | _ <;> decide

instance : LT FailureKind := ⟨fun a b => a.rank < b.rank⟩
instance : LE FailureKind := ⟨fun a b => a.rank ≤ b.rank⟩
instance : DecidableLT FailureKind := fun a b => inferInstanceAs (Decidable (a.rank < b.rank))

instance : Std.IsLinearOrder FailureKind := by
  apply Std.IsLinearOrder.of_le
  case le_antisymm => exact ⟨fun _ _ h₁ h₂ => rank_injective (Nat.le_antisymm h₁ h₂)⟩
  case le_trans => exact ⟨fun h₁ h₂ => Nat.le_trans h₁ h₂⟩
  case le_total => exact ⟨fun a b => Nat.le_total a.rank b.rank⟩

instance : Std.LawfulOrderLT FailureKind where
  lt_iff _ _ := Nat.lt_iff_le_and_not_ge

instance : ToJson FailureKind where
  toJson
    | .unready => .str "unready"
    | .noProvider => .str "noProvider"
    | .rejected kind => .tagged "rejected" (toJson kind)
    | .dispatch kind => .tagged "dispatch" (toJson kind)
    | .application => .str "application"

instance : Json.Decode FailureKind := ⟨Json.Variant.decode [
  ("unready", .plain .unready),
  ("noProvider", .plain .noProvider),
  ("rejected", .carrying fun d => .rejected <$> Json.decode d),
  ("dispatch", .carrying fun d => .dispatch <$> Json.decode d),
  ("application", .plain .application)]⟩

end FailureKind

namespace Failure

def unready (message : String) : Failure := ⟨.unready, message, none⟩

def noProvider (service : String) : Failure :=
  ⟨.noProvider, s!"no provider available for {service}", none⟩

def dispatch (kind : DispatchKind) (message : String) : Failure := ⟨.dispatch kind, message, none⟩

def application (code message : String) : Failure := ⟨.application, message, some code⟩

def withCode (f : Failure) (code : String) : Failure := { f with code := some code }

def isRejected (f : Failure) : Bool := f.kind matches .rejected _

def isDispatch (f : Failure) : Bool := f.kind matches .dispatch _

def describe (f : Failure) : String := s!"{f.kind.describe}: {f.message}"

instance : ToJson Failure where
  toJson f := .obj [("kind", toJson f.kind), ("message", toJson f.message), ("code", toJson f.code)]

instance : Json.Decode Failure where
  decode := Json.Fields.decode "Failure" <|
    Failure.mk <$> .required "kind" <*> .required "message" <*> .optional "code"

end Failure

namespace Rejection

def describe (r : Rejection) : String := s!"{r.kind.describe}: {r.message}"

def toFailure (r : Rejection) : Failure := ⟨.rejected r.kind, r.message, none⟩

instance : ToJson Rejection where
  toJson r := .obj [("kind", toJson r.kind), ("message", toJson r.message)]

instance : Json.Decode Rejection where
  decode := Json.Fields.decode "Rejection" <|
    Rejection.mk <$> .required "kind" <*> .required "message"

end Rejection

end Turnpike
