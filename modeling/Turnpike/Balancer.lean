import Turnpike.Exchange
import Turnpike.Random.Xoshiro

namespace Turnpike

class LoadBalancer (β : Type) where
  pick : β → OutboundRequest → List Endpoint → Option Endpoint × β
  mem_of_pick {b : β} {request : OutboundRequest} {candidates : List Endpoint} {e : Endpoint} :
    (pick b request candidates).1 = some e → e ∈ candidates
  isSome_pick (b : β) (request : OutboundRequest) {candidates : List Endpoint} :
    candidates ≠ [] → (pick b request candidates).1.isSome

inductive Balancer
  | roundRobin (picks : UInt64)
  | random (generator : Random.Xoshiro)
  deriving DecidableEq

namespace Balancer

def roundRobinStart : Balancer := .roundRobin 0

def seeded (seed : UInt64) : Balancer := .random (.ofSeed seed)

def name : Balancer → String
  | .roundRobin _ => "roundRobin"
  | .random _ => "random"

def totalWeight (candidates : List Endpoint) : Nat := candidates.foldr (·.weight.toNat + ·) 0

/--
The endpoint in whose share of the total weight a point lies, the shares being laid end to end in
the order of the list.
-/
def atPoint : Nat → List Endpoint → Option Endpoint
  | _, [] => none
  | point, e :: es =>
    if point < e.weight.toNat then some e else atPoint (point - e.weight.toNat) es

/--
One pick. The turns of round robin count the picks; a random pick is weighted unless all weights
are zero. An empty list leaves the state as it is.
-/
def pick (b : Balancer) (candidates : List Endpoint) : Option Endpoint × Balancer :=
  if candidates.isEmpty then (none, b)
  else match b with
    | .roundRobin picks =>
      (candidates[picks.toNat % candidates.length]?, .roundRobin (picks + 1))
    | .random g =>
      let total := totalWeight candidates
      if total = 0 then
        let (i, g) := g.below candidates.length
        (candidates[i]?, .random g)
      else
        let (point, g) := g.below total
        ((atPoint point candidates).or candidates.getLast?, .random g)

theorem mem_of_atPoint {point : Nat} {es : List Endpoint} {e : Endpoint}
    (h : atPoint point es = some e) : e ∈ es := by
  induction es generalizing point with
  | nil => cases h
  | cons e' es ih =>
    unfold atPoint at h
    split at h
    · cases h; exact List.mem_cons_self ..
    · exact List.mem_cons_of_mem _ (ih h)

theorem mem_of_pick {b : Balancer} {es : List Endpoint} {e : Endpoint}
    (h : (b.pick es).1 = some e) : e ∈ es := by
  unfold pick at h
  split at h
  · cases h
  · cases b with
    | roundRobin picks => exact List.mem_of_getElem? h
    | random g =>
      simp only at h
      split at h
      · exact List.mem_of_getElem? h
      · rcases Option.or_eq_some_iff.1 h with h | ⟨_, h⟩
        · exact mem_of_atPoint h
        · exact List.mem_of_getLast? h

theorem isSome_pick (b : Balancer) {es : List Endpoint} (h : es ≠ []) :
    (b.pick es).1.isSome := by
  have hlen : 0 < es.length := List.length_pos_iff.2 h
  unfold pick
  rw [if_neg (by simpa using h)]
  cases b with
  | roundRobin picks => simp [Nat.mod_lt _ hlen]
  | random g =>
    simp only
    split
    · simp [Random.Xoshiro.below_lt hlen]
    · simp [Option.isSome_or, h]

instance : LoadBalancer Balancer where
  pick b _ candidates := b.pick candidates
  mem_of_pick := mem_of_pick
  isSome_pick b _ := isSome_pick b

end Balancer

end Turnpike
