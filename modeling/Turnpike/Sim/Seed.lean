import Turnpike.Json.Decode
import Turnpike.Random.ChaCha

namespace Turnpike

/-- Where a seed comes from. A `random` one is taken from the clock, and is no fixed number. -/
inductive SeedSource
  | literal (seed : UInt64)
  | fromString (text : String)
  | random
  deriving DecidableEq

structure SimSeed where
  seed : UInt64
  source : SeedSource
  deriving DecidableEq

namespace SeedSource

def toSeed? : SeedSource → Option UInt64
  | .literal seed => some seed
  | .fromString text => some (Random.fnv (Random.utf8 text))
  | .random => none

instance : ToJson SeedSource where
  toJson
    | .literal seed => .tagged "literal" (toJson seed)
    | .fromString text => .tagged "fromString" (toJson text)
    | .random => .str "random"

instance : Json.Decode SeedSource := ⟨Json.Variant.decode [
  ("literal", .carrying fun d => .literal <$> Json.decode d),
  ("fromString", .carrying fun d => .fromString <$> Json.decode d),
  ("random", .plain .random)]⟩

end SeedSource

namespace SimSeed

def ofLiteral (seed : UInt64) : SimSeed := ⟨seed, .literal seed⟩

def ofString (text : String) : SimSeed := ⟨Random.fnv (Random.utf8 text), .fromString text⟩

def standard : SimSeed := ofLiteral 42

def derive (s : SimSeed) (context : String) : SimSeed :=
  ofLiteral (Random.fnv (Random.littleEndian s.seed ++ Random.utf8 context))

def generator (s : SimSeed) : Random.ChaCha := .ofSeed s.seed

instance : ToJson SimSeed where
  toJson s := .obj [("seed", toJson s.seed), ("source", toJson s.source)]

instance : Json.Decode SimSeed where
  decode := Json.Fields.decode "SimSeed" <| SimSeed.mk <$> .required "seed" <*> .required "source"

end SimSeed

end Turnpike
