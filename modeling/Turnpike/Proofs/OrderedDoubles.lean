import Turnpike.Proofs.ExactDoubles

/-!
The order of doubles. Rounding to the nearest whole number, and to the even one of two, keeps the
order of fractions; so a quotient of doubles does not grow when its dividend shrinks or its divisor
grows.
-/

namespace Turnpike.Binary64

open Float.Model Float.Model.UnpackedFloat

/-! ### The order of doubles -/

section

variable {x y : Float}

theorem lt_iff : x < y ↔ x.toModel.unpack.compare y.toModel.unpack = some .lt := by
  change decide (x.toModel.unpack.lt y.toModel.unpack = true) = true ↔ _
  simp [UnpackedFloat.lt]

theorem le_iff :
    x ≤ y ↔ (x.toModel.unpack.compare y.toModel.unpack).any (·.isLE) = true := by
  change decide (x.toModel.unpack.le y.toModel.unpack = true) = true ↔ _
  rw [decide_eq_true_iff]
  rfl

theorem le_of_lt (h : x < y) : x ≤ y := by
  rw [lt_iff] at h
  rw [le_iff, h]
  rfl

theorem compare_finite {m n : Nat} {e f : Int} {hm : 0 < m} {hn : 0 < n} :
    UnpackedFloat.compare (.finite .positive m e hm) (.finite .positive n f hn) =
      some ((compare e f).then (compare m n)) := rfl

theorem isLE_compare_then {m n : Nat} {e f : Int} :
    ((compare e f).then (compare m n)).isLE = true ↔ e < f ∨ e = f ∧ m ≤ n := by
  simp [Ordering.isLE_then_iff_or, Int.compare_eq_lt, Nat.isLE_compare]

theorem compare_swap (u v : UnpackedFloat) : (u.compare v).map Ordering.swap = v.compare u := by
  cases u with
  | notANumber => cases v <;> rfl
  | infinity s => cases v with
    | infinity t => cases s <;> cases t <;> rfl
    | _ => cases s <;> rfl
  | zero s => cases v with
    | notANumber | zero => rfl
    | infinity t => cases t <;> rfl
    | finite t => cases t <;> rfl
  | finite s => cases v with
    | notANumber => rfl
    | infinity t => cases t <;> rfl
    | zero => cases s <;> rfl
    | finite t =>
      cases s <;> cases t <;>
        simp [UnpackedFloat.compare, Ordering.swap_then, Int.compare_swap, Nat.compare_swap]

theorem compare_eq_none {u v : UnpackedFloat} (h : u.compare v = none) :
    u = .notANumber ∨ v = .notANumber := by
  unfold UnpackedFloat.compare at h
  split at h <;> simp_all

theorem le_of_not_lt (h : ¬ x < y) (hx : x.toModel.unpack ≠ .notANumber)
    (hy : y.toModel.unpack ≠ .notANumber) : y ≤ x := by
  rw [lt_iff] at h
  rw [le_iff, ← compare_swap]
  cases hcompare : x.toModel.unpack.compare y.toModel.unpack with
  | none => exact absurd (compare_eq_none hcompare) (not_or.2 ⟨hx, hy⟩)
  | some o => cases o with
    | lt => exact absurd hcompare h
    | eq | gt => rfl

end

/-! ### Fractions to the nearest whole number -/

def extended (p d : Nat) : ExtendedMantissa :=
  .ofMantissaAndAccuracy (p / d) (accuracyOfFraction (p % d) d)

def nearest (p d : Nat) : Nat := (accuracyOfFraction (p % d) d).roundToNearestEven (p / d)

theorem accuracyOfFraction_zero (d : Nat) : accuracyOfFraction 0 d = .exact := rfl

theorem accuracyOfFraction_of_pos {r d : Nat} (hr : 0 < r) :
    accuracyOfFraction r d = .inexact (compare (2 * r) d) :=
  if_neg (by omega)

theorem shiftRightOne_extended {p d : Nat} (hd : 0 < d) :
    (extended p d).shiftRightOne = extended p (d * 2) := by
  have hdiv : p / (d * 2) = p / d / 2 := (Nat.div_div_eq_div_mul ..).symm
  have hmod : p % (d * 2) = p % d + d * (p / d % 2) := Nat.mod_mul
  have hlt := Nat.mod_lt p hd
  unfold extended
  rw [hmod, hdiv]
  generalize p % d = r at *
  generalize p / d = q at *
  rcases Nat.mod_two_eq_zero_or_one q with hq | hq <;> rw [hq] <;>
    rcases Nat.eq_zero_or_pos r with rfl | hr
  · rw [Nat.mul_zero, accuracyOfFraction_zero, accuracyOfFraction_zero]
    simp [ExtendedMantissa.ofMantissaAndAccuracy, ExtendedMantissa.shiftRightOne, hq]
  · have hcompare : compare (2 * (r + d * 0)) (d * 2) = .lt := Nat.compare_eq_lt.2 (by omega)
    rw [accuracyOfFraction_of_pos hr, accuracyOfFraction_of_pos (by omega), hcompare]
    cases compare (2 * r) d <;>
      simp [ExtendedMantissa.ofMantissaAndAccuracy, ExtendedMantissa.shiftRightOne, hq]
  · have hcompare : compare (2 * (0 + d * 1)) (d * 2) = .eq := Nat.compare_eq_eq.2 (by omega)
    rw [accuracyOfFraction_zero, accuracyOfFraction_of_pos (r := 0 + d * 1) (by omega), hcompare]
    simp [ExtendedMantissa.ofMantissaAndAccuracy, ExtendedMantissa.shiftRightOne, hq]
  · have hcompare : compare (2 * (r + d * 1)) (d * 2) = .gt := Nat.compare_eq_gt.2 (by omega)
    rw [accuracyOfFraction_of_pos hr, accuracyOfFraction_of_pos (by omega), hcompare]
    cases compare (2 * r) d <;>
      simp [ExtendedMantissa.ofMantissaAndAccuracy, ExtendedMantissa.shiftRightOne, hq]

theorem shiftRight_extended {p d : Nat} (hd : 0 < d) (k : Nat) :
    extended p d >>> k = extended p (d * 2 ^ k) := by
  change Nat.repeat ExtendedMantissa.shiftRightOne k _ = _
  induction k with
  | zero => simp [Nat.repeat]
  | succ k ih =>
    rw [Nat.repeat, ih, shiftRightOne_extended (by positivity), Nat.mul_assoc, ← Nat.pow_succ]

theorem roundedMantissa_extended (p d : Nat) : (extended p d).roundedMantissa = nearest p d := by
  unfold extended nearest ExtendedMantissa.roundedMantissa
  rcases accuracyOfFraction (p % d) d with _ | (_ | _ | _) <;> rfl

theorem le_nearest (p d : Nat) : p / d ≤ nearest p d := by
  unfold nearest
  rcases accuracyOfFraction (p % d) d with _ | (_ | _ | _) <;>
    simp [Accuracy.roundToNearestEven]

theorem nearest_le (p d : Nat) : nearest p d ≤ p / d + 1 := by
  unfold nearest
  rcases accuracyOfFraction (p % d) d with _ | (_ | _ | _) <;>
    simp [Accuracy.roundToNearestEven]
  omega

theorem nearest_le_of_div_eq {p d p' d' : Nat} (hd : 0 < d) (hd' : 0 < d')
    (heq : p / d = p' / d') (h : p % d * d' ≤ p' % d' * d) : nearest p d ≤ nearest p' d' := by
  rcases Nat.eq_zero_or_pos (p % d) with hr | hr
  · have hexact : nearest p d = p / d := by
      unfold nearest
      rw [hr]
      rfl
    rw [hexact, heq]
    exact le_nearest p' d'
  · have hr' : 0 < p' % d' := Nat.pos_of_mul_pos_right (Nat.lt_of_lt_of_le (Nat.mul_pos hr hd') h)
    unfold nearest
    rw [heq, accuracyOfFraction_of_pos hr, accuracyOfFraction_of_pos hr']
    generalize p % d = r at *
    generalize p' % d' = r' at *
    cases hc : compare (2 * r) d with
    | lt => cases compare (2 * r') d' <;> simp [Accuracy.roundToNearestEven]
    | eq =>
      have htie : 2 * r = d := Nat.compare_eq_eq.1 hc
      have hle : d' ≤ 2 * r' := by
        apply Nat.le_of_mul_le_mul_left _ hd
        calc
          d * d' = 2 * (r * d') := by rw [← htie, Nat.mul_assoc]
          _ ≤ 2 * (r' * d) := Nat.mul_le_mul_left 2 h
          _ = d * (2 * r') := by ring
      cases hc' : compare (2 * r') d' with
      | lt => exact absurd (Nat.compare_eq_lt.1 hc') (Nat.not_lt_of_le hle)
      | eq => exact Nat.le_refl _
      | gt =>
        simp only [Accuracy.roundToNearestEven]
        omega
    | gt =>
      have hlt : d' < 2 * r' := by
        apply Nat.lt_of_mul_lt_mul_left (a := d)
        calc
          d * d' < 2 * r * d' := Nat.mul_lt_mul_of_pos_right (Nat.compare_eq_gt.1 hc) hd'
          _ = 2 * (r * d') := Nat.mul_assoc ..
          _ ≤ 2 * (r' * d) := Nat.mul_le_mul_left 2 h
          _ = d * (2 * r') := by ring
      rw [Nat.compare_eq_gt.2 hlt]

/-- Rounding keeps the order of fractions. -/
theorem nearest_mono {p d p' d' : Nat} (hd : 0 < d) (hd' : 0 < d') (h : p * d' ≤ p' * d) :
    nearest p d ≤ nearest p' d' := by
  have hfloor : p / d ≤ p' / d' := by
    rw [Nat.le_div_iff_mul_le hd']
    apply Nat.le_of_mul_le_mul_right _ hd
    calc
      p / d * d' * d = p / d * d * d' := Nat.mul_right_comm ..
      _ ≤ p * d' := Nat.mul_le_mul_right _ (Nat.div_mul_le_self p d)
      _ ≤ p' * d := h
  rcases Nat.eq_or_lt_of_le hfloor with heq | hlt
  · refine nearest_le_of_div_eq hd hd' heq ?_
    have hp := Nat.div_add_mod p d
    have hp' := Nat.div_add_mod p' d'
    rw [heq] at hp
    apply Nat.le_of_add_le_add_left (a := d * d' * (p' / d'))
    calc
      d * d' * (p' / d') + p % d * d' = (d * (p' / d') + p % d) * d' := by ring
      _ = p * d' := by rw [hp]
      _ ≤ p' * d := h
      _ = (d' * (p' / d') + p' % d') * d := by rw [hp']
      _ = d * d' * (p' / d') + p' % d' * d := by ring
  · calc
      nearest p d ≤ p / d + 1 := nearest_le p d
      _ ≤ p' / d' := hlt
      _ ≤ nearest p' d' := le_nearest p' d'

/-! ### Quotients -/

theorem exists_roundWithAccuracy (s : Sign) {p d k : Nat} {e : Int} (hd : 0 < d)
    (hle : 2 ^ 52 * (d * 2 ^ k) ≤ p) (hlt : p < 2 ^ 53 * (d * 2 ^ k)) (hge : -1074 ≤ e + k) :
    ∃ m i hm, roundWithAccuracy .binary64 s (p / d) e (accuracyOfFraction (p % d) d) =
        .finite s m (e + k + (i : Nat)) hm ∧
      m * 2 ^ i = nearest p (d * 2 ^ k) ∧ 2 ^ 52 ≤ m ∧ m < 2 ^ 53 ∧ i ≤ 1 := by
  have hdk : 0 < d * 2 ^ k := by positivity
  have hlog : (p / d).log2 = 52 + k := by
    have hle' : d ≤ p := by
      calc
        d = 1 * (d * 1) := by ring
        _ ≤ 2 ^ 52 * (d * 2 ^ k) := by gcongr <;> exact Nat.one_le_two_pow
        _ ≤ p := hle
    have hpos : p / d ≠ 0 := (Nat.div_pos hle' hd).ne'
    rw [Nat.log2_eq_iff hpos, Nat.le_div_iff_mul_le hd, Nat.div_lt_iff_lt_mul hd]
    constructor
    · calc
        2 ^ (52 + k) * d = 2 ^ 52 * (d * 2 ^ k) := by ring
        _ ≤ p := hle
    · calc
        p < 2 ^ 53 * (d * 2 ^ k) := hlt
        _ = 2 ^ (52 + k + 1) * d := by ring
  have hfirst : shiftToTargetExponent .binary64 (p / d) e (accuracyOfFraction (p % d) d) =
      (extended p (d * 2 ^ k), e + k) := by
    have hshift : (e + k - e).toNat = k := by omega
    unfold shiftToTargetExponent shiftToExponent
    rw [targetExponent_eq _ hlog]
    have htarget : max (e + (((52 + k : Nat) : Int) - 52)) (-1074) = e + k := by omega
    simp only [htarget, hshift]
    exact congrArg (·, e + (k : Int)) (shiftRight_extended hd k)
  have hbounds : 2 ^ 52 ≤ nearest p (d * 2 ^ k) ∧ nearest p (d * 2 ^ k) ≤ 2 ^ 53 := by
    have h₁ := (Nat.le_div_iff_mul_le hdk).2 hle
    have h₂ := (Nat.div_lt_iff_lt_mul hdk).2 hlt
    exact ⟨h₁.trans (le_nearest ..), (nearest_le ..).trans h₂⟩
  obtain ⟨m, i, hm, hm', hi, hmul, hfinal⟩ := exists_shiftToTargetExponent hbounds.1 hbounds.2 hge
  refine ⟨m, i, by omega, ?_, hmul, hm, hm', hi⟩
  unfold roundWithAccuracy
  rw [hfirst]
  simp only [roundedMantissa_extended, hfinal]
  rw [dif_neg (by omega)]

/--
The double nearest to `a / n`. Dividend and divisor are scaled so that the quotient has the 53 bits
of a mantissa; it may be rounded up to the next power of two.
-/
inductive RoundsTo (a n : Nat) : UnpackedFloat → Prop
  | zero : a = 0 → 0 < n → RoundsTo a n (.zero .positive)
  | finite {u w m i : Nat} {e : Int} {hm : 0 < m} : 2 ^ 52 * (n * 2 ^ w) ≤ a * 2 ^ u →
    a * 2 ^ u < 2 ^ 53 * (n * 2 ^ w) → m * 2 ^ i = nearest (a * 2 ^ u) (n * 2 ^ w) →
    2 ^ 52 ≤ m → m < 2 ^ 53 → i ≤ 1 → e = w - u + i → RoundsTo a n (.finite .positive m e hm)

theorem roundsTo_div {a n : Nat} (ha : 0 < a) (hn : 0 < n) (halt : a < 2 ^ 53)
    (hnlt : n < 2 ^ 53) : RoundsTo a n
      (UnpackedFloat.div .binary64 (dyadic .positive a 0 ha) (dyadic .positive n 0 hn)) := by
  have hlog := log2_mantissa ha halt
  have hnlog := log2_mantissa hn hnlt
  have hale := log2_le ha halt
  have hnle := log2_le hn hnlt
  obtain ⟨hage, halt'⟩ := (Nat.log2_eq_iff (by positivity)).1 hlog
  obtain ⟨hnge, hnlt'⟩ := (Nat.log2_eq_iff (by positivity)).1 hnlog
  simp only [dyadic, UnpackedFloat.div]
  rw [divCore_eq hlog hnlog (by omega)]
  have hd : 0 < n * 2 ^ (52 - n.log2) := by positivity
  obtain ⟨k, hk, hle, hlt⟩ : ∃ k ≤ 1,
      2 ^ 52 * (n * 2 ^ (52 - n.log2) * 2 ^ k) ≤ a * 2 ^ (52 - a.log2) * 2 ^ 53 ∧
      a * 2 ^ (52 - a.log2) * 2 ^ 53 < 2 ^ 53 * (n * 2 ^ (52 - n.log2) * 2 ^ k) := by
    rcases Nat.lt_or_ge (a * 2 ^ (52 - a.log2)) (n * 2 ^ (52 - n.log2)) with h | h
    · exact ⟨0, by decide, by omega, by omega⟩
    · exact ⟨1, Nat.le_refl 1, by omega, by omega⟩
  obtain ⟨m, i, hm, hround, hmul, hmge, hmlt, hi⟩ :=
    exists_roundWithAccuracy (e := 0 - (52 - a.log2 : Nat) - (0 - (52 - n.log2 : Nat)) - 53)
      .positive hd hle hlt (by omega)
  change RoundsTo a n (roundWithAccuracy .binary64 .positive _ _ _)
  rw [hround]
  rw [Nat.mul_assoc, ← Nat.pow_add] at hle hlt hmul
  rw [Nat.mul_assoc, ← Nat.pow_add] at hle hlt hmul
  exact .finite hle hlt hmul hmge hmlt hi (by omega)

inductive Unsigned : UnpackedFloat → Prop
  | zero : Unsigned (.zero .positive)
  | finite {m : Nat} {e : Int} {hm : 0 < m} : Unsigned (.finite .positive m e hm)

theorem Unsigned.isLE_compare_trans {u v w : UnpackedFloat} (hv : Unsigned v) (hw : Unsigned w)
    (h : (u.compare v).any (·.isLE) = true) (h' : (v.compare w).any (·.isLE) = true) :
    (u.compare w).any (·.isLE) = true := by
  cases hw with
  | zero => cases hv with
    | zero => exact h
    | finite => simp [UnpackedFloat.compare] at h'
  | finite => cases u with
    | notANumber => simp [UnpackedFloat.compare] at h
    | zero => rfl
    | infinity s => cases s with
      | negative => rfl
      | positive => cases hv <;> simp [UnpackedFloat.compare] at h
    | finite s => cases s with
      | negative => rfl
      | positive => cases hv with
        | zero => simp [UnpackedFloat.compare] at h
        | finite =>
          rw [compare_finite] at *
          have hle := isLE_compare_then.1 h
          have hle' := isLE_compare_then.1 h'
          exact isLE_compare_then.2 (by omega)

namespace RoundsTo

variable {a n a' n' : Nat} {x x' : UnpackedFloat}

theorem pos_of_scaled {u w : Nat} (hlower : 2 ^ 52 * (n * 2 ^ w) ≤ a * 2 ^ u)
    (hupper : a * 2 ^ u < 2 ^ 53 * (n * 2 ^ w)) : 0 < a ∧ 0 < n := by
  have hn : 0 < n * 2 ^ w := Nat.pos_of_mul_pos_left (Nat.zero_lt_of_lt hupper)
  have ha : 0 < a * 2 ^ u := Nat.lt_of_lt_of_le (Nat.mul_pos (by decide) hn) hlower
  exact ⟨Nat.pos_of_mul_pos_right ha, Nat.pos_of_mul_pos_right hn⟩

theorem unsigned (h : RoundsTo a n x) : Unsigned x := by
  cases h with
  | zero => exact .zero
  | finite => exact .finite

theorem canonical (h : RoundsTo a n x) (halt : a < 2 ^ 53) (hnlt : n < 2 ^ 53) : Canonical x := by
  cases h with
  | zero => trivial
  | @finite u w m i e hm hlower hupper _ hmge hmlt hi he =>
    obtain ⟨ha, hn⟩ := pos_of_scaled hlower hupper
    have hwu : 52 + w < 53 + u := by
      apply (Nat.pow_lt_pow_iff_right (a := 2) (by decide)).1
      calc
        2 ^ (52 + w) = 2 ^ 52 * (1 * 2 ^ w) := by ring
        _ ≤ 2 ^ 52 * (n * 2 ^ w) := by gcongr; exact hn
        _ ≤ a * 2 ^ u := hlower
        _ < 2 ^ 53 * 2 ^ u := Nat.mul_lt_mul_of_pos_right halt (by positivity)
        _ = 2 ^ (53 + u) := by ring
    have huw : u < 106 + w := by
      apply (Nat.pow_lt_pow_iff_right (a := 2) (by decide)).1
      calc
        2 ^ u = 1 * 2 ^ u := (Nat.one_mul _).symm
        _ ≤ a * 2 ^ u := Nat.mul_le_mul_right _ ha
        _ < 2 ^ 53 * (n * 2 ^ w) := hupper
        _ ≤ 2 ^ 53 * (2 ^ 53 * 2 ^ w) := by gcongr
        _ = 2 ^ (106 + w) := by ring
    exact ⟨hmlt, .inl hmge, by omega, by omega⟩

theorem isLE_compare (h : RoundsTo a n x) (h' : RoundsTo a' n' x') (hle : a * n' ≤ a' * n) :
    (x.compare x').any (·.isLE) = true := by
  obtain ⟨rfl, hn⟩ | @⟨u, w, m, i, _, hm, hlower, hupper, hmul, hmge, hmlt, hi, rfl⟩ := h
  · cases h' <;> rfl
  have ha : 0 < a := (pos_of_scaled hlower hupper).1
  obtain ⟨rfl, hn'⟩ | @⟨u', w', m', i', _, hm', hlower', hupper', hmul', hmge', hmlt', hi', rfl⟩ :=
    h'
  · rw [Nat.zero_mul] at hle
    exact absurd (Nat.mul_pos ha hn') (Nat.not_lt_of_le hle)
  have hn : 0 < n * 2 ^ w := Nat.pos_of_mul_pos_left (Nat.zero_lt_of_lt hupper)
  have hn' : 0 < n' * 2 ^ w' := Nat.pos_of_mul_pos_left (Nat.zero_lt_of_lt hupper')
  have hscale : w + u' ≤ w' + u := by
    by_contra! hgt
    have hpow : 2 ^ (w' + u) * 2 ≤ 2 ^ (w + u') := by
      rw [← Nat.pow_succ]
      exact Nat.pow_le_pow_right (by decide) hgt
    refine Nat.lt_irrefl (2 ^ 53 * (n * n') * 2 ^ (w' + u)) ?_
    calc
      2 ^ 53 * (n * n') * 2 ^ (w' + u) = 2 ^ 52 * (n * n') * (2 ^ (w' + u) * 2) := by ring
      _ ≤ 2 ^ 52 * (n * n') * 2 ^ (w + u') := Nat.mul_le_mul_left _ hpow
      _ = 2 ^ 52 * (n * 2 ^ w) * (n' * 2 ^ u') := by ring
      _ ≤ a * 2 ^ u * (n' * 2 ^ u') := Nat.mul_le_mul_right _ hlower
      _ = a * n' * 2 ^ (u + u') := by ring
      _ ≤ a' * n * 2 ^ (u + u') := Nat.mul_le_mul_right _ hle
      _ = a' * 2 ^ u' * (n * 2 ^ u) := by ring
      _ < 2 ^ 53 * (n' * 2 ^ w') * (n * 2 ^ u) :=
        Nat.mul_lt_mul_of_pos_right hupper'
          (Nat.mul_pos (Nat.pos_of_mul_pos_right hn) (by positivity))
      _ = 2 ^ 53 * (n * n') * 2 ^ (w' + u) := by ring
  have hmantissa : w + u' = w' + u → m * 2 ^ i ≤ m' * 2 ^ i' := by
    intro heq
    rw [hmul, hmul']
    apply nearest_mono hn hn'
    calc
      a * 2 ^ u * (n' * 2 ^ w') = a * n' * 2 ^ (w' + u) := by ring
      _ ≤ a' * n * 2 ^ (w' + u) := Nat.mul_le_mul_right _ hle
      _ = a' * n * 2 ^ (w + u') := by rw [heq]
      _ = a' * 2 ^ u' * (n * 2 ^ w) := by ring
  have hcarry : m * 2 ^ i ≤ 2 ^ 53 :=
    hmul ▸ Nat.le_trans (nearest_le ..) ((Nat.div_lt_iff_lt_mul hn).2 hupper)
  rw [compare_finite]
  apply isLE_compare_then.2
  obtain rfl | rfl : i = 0 ∨ i = 1 := by omega
  all_goals
    obtain rfl | rfl : i' = 0 ∨ i' = 1 := by omega
    all_goals
      simp only [Nat.pow_zero, Nat.pow_one, Nat.mul_one] at hmantissa hcarry
      omega

end RoundsTo

/-! ### Percentages -/

section

variable {a n a' n' : UInt64}

theorem hundred_eq : (100.0 : Float) = (100 : UInt64).toFloat := by decide

theorem roundsTo_percentage (hn : 0 < n.toNat) (halt : a.toNat * 100 < 2 ^ 53)
    (hnlt : n.toNat < 2 ^ 53) :
    RoundsTo (a.toNat * 100) n.toNat (a.toFloat * 100.0 / n.toFloat).toModel.unpack := by
  rw [hundred_eq]
  rcases Nat.eq_zero_or_pos a.toNat with ha | ha
  · obtain rfl : a = 0 := UInt64.toNat_inj.1 ha
    rw [zero_mul_div hn]
    exact .zero rfl hn
  · have hpos : 0 < a.toNat * 100 := Nat.mul_pos ha (by decide)
    have hproduct : (a.toFloat * (100 : UInt64).toFloat).toModel.unpack =
        dyadic .positive (a.toNat * 100) 0 hpos :=
      unpack_mul_toFloat (a := 100) (by decide) ha hpos halt
    change RoundsTo _ _ (Float.Model.pack (UnpackedFloat.div .binary64
      (a.toFloat * (100 : UInt64).toFloat).toModel.unpack n.toFloat.toModel.unpack)).unpack
    rw [hproduct, unpack_toFloat hn hnlt]
    have hdiv := roundsTo_div hpos hn halt hnlt
    rw [unpack_pack (hdiv.canonical halt hnlt)]
    exact hdiv

theorem percentage_le (hn' : 0 < n'.toNat) (ha : a.toNat ≤ a'.toNat) (hn : n'.toNat ≤ n.toNat)
    (halt : a'.toNat * 100 < 2 ^ 53) (hnlt : n.toNat < 2 ^ 53) :
    a.toFloat * 100.0 / n.toFloat ≤ a'.toFloat * 100.0 / n'.toFloat := by
  rw [le_iff]
  have hpercentage := roundsTo_percentage (a := a) (n := n) (by omega) (by omega) hnlt
  refine hpercentage.isLE_compare (roundsTo_percentage hn' halt (by omega)) ?_
  exact Nat.mul_le_mul (Nat.mul_le_mul_right 100 ha) hn

end

end Turnpike.Binary64
