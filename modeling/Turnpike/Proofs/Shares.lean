import Mathlib.Order.Interval.Finset.Nat
import Turnpike.Balancer

namespace Turnpike

namespace Balancer

def weightBefore (es : List Endpoint) (i : Nat) : Nat := totalWeight (es.take i)

def position? : Nat → List Endpoint → Option Nat
  | _, [] => none
  | point, e :: es =>
    if point < e.weight.toNat then some 0
    else (position? (point - e.weight.toNat) es).map (· + 1)

variable {e : Endpoint} {es : List Endpoint} {p i k : Nat}

@[simp] theorem totalWeight_nil : totalWeight [] = 0 := rfl

@[simp] theorem totalWeight_cons (e : Endpoint) (es : List Endpoint) :
    totalWeight (e :: es) = e.weight.toNat + totalWeight es := rfl

theorem totalWeight_eq_zero_iff : totalWeight es = 0 ↔ ∀ e ∈ es, e.weight = 0 := by
  induction es with
  | nil => simp
  | cons e es ih => simp [ih, ← UInt32.toNat_inj]

theorem totalWeight_lt_size (h : es.length < 2 ^ 32) : totalWeight es < UInt64.size := by
  have hle : totalWeight es ≤ es.length * 2 ^ 32 := by
    clear h
    induction es with
    | nil => exact Nat.le_refl 0
    | cons e es ih =>
      have he : e.weight.toNat < 2 ^ 32 := e.weight.toNat_lt
      rw [totalWeight_cons, List.length_cons, Nat.succ_mul]
      omega
  exact Nat.lt_of_le_of_lt hle (Nat.mul_lt_mul_of_pos_right h (by decide))

@[simp] theorem weightBefore_zero (es : List Endpoint) : weightBefore es 0 = 0 := rfl

@[simp] theorem weightBefore_nil (i : Nat) : weightBefore [] i = 0 := by
  simp [weightBefore]

@[simp] theorem weightBefore_cons_succ (e : Endpoint) (es : List Endpoint) (i : Nat) :
    weightBefore (e :: es) (i + 1) = e.weight.toNat + weightBefore es i := rfl

theorem weightBefore_succ (h : es[i]? = some e) :
    weightBefore es (i + 1) = weightBefore es i + e.weight.toNat := by
  induction es generalizing i with
  | nil => cases h
  | cons e' es ih =>
    cases i with
    | zero =>
      cases h
      simp
    | succ i =>
      have hi := ih (i := i) h
      simp only [weightBefore_cons_succ, hi, Nat.add_assoc]

theorem weightBefore_mono (h : i ≤ k) : weightBefore es i ≤ weightBefore es k := by
  induction es generalizing i k with
  | nil => simp
  | cons e es ih =>
    cases i with
    | zero => simp
    | succ i =>
      obtain ⟨k, rfl⟩ : ∃ k', k = k' + 1 := ⟨k - 1, by omega⟩
      simp only [weightBefore_cons_succ]
      exact Nat.add_le_add_left (ih (by omega)) _

theorem weightBefore_le_totalWeight (es : List Endpoint) (i : Nat) :
    weightBefore es i ≤ totalWeight es := by
  induction es generalizing i with
  | nil => simp
  | cons e es ih =>
    cases i with
    | zero => simp
    | succ i => exact Nat.add_le_add_left (ih i) _

theorem atPoint_eq (p : Nat) (es : List Endpoint) :
    atPoint p es = (position? p es).bind (es[·]?) := by
  induction es generalizing p with
  | nil => rfl
  | cons e es ih =>
    unfold atPoint position?
    split
    · rfl
    · rw [ih, Option.bind_map]
      rfl

theorem position?_eq_some_iff :
    position? p es = some i ↔ weightBefore es i ≤ p ∧ p < weightBefore es (i + 1) := by
  induction es generalizing p i with
  | nil => simp [position?]
  | cons e es ih =>
    unfold position?
    split
    · cases i with
      | zero => simpa
      | succ i => simp; omega
    · cases i with
      | zero => simp; omega
      | succ i =>
        simp only [Option.map_eq_some_iff, Nat.add_right_cancel_iff, exists_eq_right, ih,
          weightBefore_cons_succ]
        omega

theorem exists_position (h : p < totalWeight es) :
    ∃ i e, es[i]? = some e ∧ position? p es = some i := by
  induction es generalizing p with
  | nil => cases h
  | cons e es ih =>
    unfold position?
    split
    · exact ⟨0, e, rfl, rfl⟩
    · rw [totalWeight_cons] at h
      obtain ⟨i, e', he', hi⟩ := ih (p := p - e.weight.toNat) (by omega)
      exact ⟨i + 1, e', he', by rw [hi]; rfl⟩

theorem atPoint_of_weightBefore_le (h : weightBefore es k ≤ p) :
    atPoint p es = atPoint (p - weightBefore es k) (es.drop k) := by
  induction es generalizing p k with
  | nil => simp
  | cons e es ih =>
    cases k with
    | zero => rfl
    | succ k =>
      rw [weightBefore_cons_succ] at h ⊢
      rw [atPoint, if_neg (by omega), ih (k := k) (by omega), List.drop_succ_cons, Nat.sub_sub]

theorem filter_position?_eq (es : List Endpoint) (i : Nat) :
    (Finset.range (totalWeight es)).filter (position? · es = some i) =
      Finset.Ico (weightBefore es i) (weightBefore es (i + 1)) := by
  have hle := weightBefore_le_totalWeight es (i + 1)
  ext p
  rw [Finset.mem_filter, Finset.mem_range, position?_eq_some_iff, Finset.mem_Ico]
  omega

theorem fst_pick_random (g : Random.Xoshiro) (h : 0 < totalWeight es) :
    ((random g).pick es).1 = atPoint (g.below (totalWeight es)).1 es := by
  obtain ⟨i, e, he, hi⟩ := exists_position (Random.Xoshiro.below_lt h g)
  have hfound : atPoint (g.below (totalWeight es)).1 es = some e := by rw [atPoint_eq, hi]; exact he
  have hne : es ≠ [] := by
    rintro rfl
    cases he
  simp [pick, hne, Nat.ne_of_gt h, hfound]

/--
For every point below the total weight the scan ends at the one position in whose share it lies. It
comes to each position up to there with what the weights before have left of the point, and never to
the end of the list. As many points lead to a position as its endpoint weighs, and an endpoint that
weighs nothing is picked only when none weighs anything.
-/
theorem draws_partitioned_by_weight (hfew : es.length < 2 ^ 32) :
    totalWeight es < UInt64.size ∧
    (∀ p < totalWeight es, ∃ i e, es[i]? = some e ∧ position? p es = some i ∧
      atPoint p es = some e ∧
      (∀ k, weightBefore es k ≤ p ∧ p < weightBefore es (k + 1) ↔ k = i) ∧
      ∀ k ≤ i, weightBefore es k ≤ p ∧
        atPoint p es = atPoint (p - weightBefore es k) (es.drop k)) ∧
    (∀ i e, es[i]? = some e →
      ((Finset.range (totalWeight es)).filter (position? · es = some i)).card = e.weight.toNat) ∧
    ∀ g : Random.Xoshiro,
      (0 < totalWeight es → ∃ p < totalWeight es, p = (g.below (totalWeight es)).1 ∧
        ((random g).pick es).1 = atPoint p es) ∧
      ∀ e, ((random g).pick es).1 = some e → e.weight = 0 → ∀ e' ∈ es, e'.weight = 0 := by
  refine ⟨totalWeight_lt_size hfew, fun p hp => ?_, fun i e he => ?_, fun g => ⟨fun h => ?_, ?_⟩⟩
  · obtain ⟨i, e, he, hi⟩ := exists_position hp
    have hshare := position?_eq_some_iff.1 hi
    refine ⟨i, e, he, hi, by rw [atPoint_eq, hi]; exact he, fun k => ?_, fun k hk => ?_⟩
    · rw [← position?_eq_some_iff, hi, Option.some_inj, eq_comm]
    · have hk : weightBefore es k ≤ p := Nat.le_trans (weightBefore_mono hk) hshare.1
      exact ⟨hk, atPoint_of_weightBefore_le hk⟩
  · rw [filter_position?_eq, Nat.card_Ico, weightBefore_succ he, Nat.add_sub_cancel_left]
  · exact ⟨_, Random.Xoshiro.below_lt h g, rfl, fst_pick_random g h⟩
  · intro e hpick hweight
    apply totalWeight_eq_zero_iff.1
    by_contra hne
    have htotal := Nat.pos_of_ne_zero hne
    obtain ⟨i, e', he', hi⟩ := exists_position (Random.Xoshiro.below_lt htotal g)
    rw [fst_pick_random g htotal, atPoint_eq, hi] at hpick
    obtain rfl : e' = e := Option.some.inj (he'.symm.trans hpick)
    -- The share of an endpoint without weight ends where it begins.
    have hshare := position?_eq_some_iff.1 hi
    rw [weightBefore_succ he', hweight] at hshare
    have hzero : (0 : UInt32).toNat = 0 := rfl
    omega

theorem draws_of_three_weights :
    let a : Endpoint := { id := "a", host := "h", port := 1, weight := 2 }
    let b : Endpoint := { id := "b", host := "h", port := 2, weight := 0 }
    let c : Endpoint := { id := "c", host := "h", port := 3, weight := 3 }
    [a, b, c].length < 2 ^ 32 ∧
      ((Finset.range 5).filter (position? · [a, b, c] = some 0)).card = 2 ∧
      ((Finset.range 5).filter (position? · [a, b, c] = some 1)).card = 0 ∧
      ((Finset.range 5).filter (position? · [a, b, c] = some 2)).card = 3 ∧
      ∀ g : Random.Xoshiro, ((random g).pick [a, b, c]).1 ≠ some b := by
  intro a b c
  have hfew : [a, b, c].length < 2 ^ 32 := by decide
  obtain ⟨-, -, hcards, hpicks⟩ := draws_partitioned_by_weight hfew
  refine ⟨hfew, hcards 0 a rfl, hcards 1 b rfl, hcards 2 c rfl, fun g hg => ?_⟩
  have hzero := (hpicks g).2 b hg rfl a List.mem_cons_self
  exact absurd hzero (by decide)

end Balancer

end Turnpike
