import Mathlib

/-!
Double-precision arithmetic where it is exact. What is packed and unpacked again is what it was; a
result that needs no more than 53 bits is not rounded; and so whole numbers below `2 ^ 53` may be
multiplied and divided back.
-/

namespace Turnpike.Binary64

open Float.Model Float.Model.UnpackedFloat

/-! ### Packing -/

structure Stored (m : Nat) (e : Int) : Prop where
  mantissa_lt : m < 2 ^ 53
  normal : 2 ^ 52 ≤ m ∨ e = -1074
  exponent_ge : -1074 ≤ e
  exponent_le : e ≤ 971

def Canonical : UnpackedFloat → Prop
  | .finite _ m e _ => Stored m e
  | _ => True

def ofFields (s : Sign) (w : BitVec 11) (v : BitVec 52) : UnpackedFloat :=
  if w = -1#11 then if v = 0#52 then .infinity s else .notANumber
  else if w = 0#11 then
    if h : v = 0#52 then .zero s
    else .finite s v.toNat (-1074) (Nat.pos_of_ne_zero fun h' => h (BitVec.eq_of_toNat_eq h'))
  else .finite s (2 ^ 52 + v.toNat) (w.toNat - 1075) (by omega)

theorem canonical_ofFields (s : Sign) (w : BitVec 11) (v : BitVec 52) :
    Canonical (ofFields s w v) := by
  have hv := v.isLt
  have hw := w.isLt
  unfold ofFields
  split
  · split <;> trivial
  · rename_i hmax
    have hmax : w.toNat ≠ 2047 := fun h => hmax (BitVec.eq_of_toNat_eq h)
    split
    · split
      · trivial
      · exact ⟨by omega, .inr rfl, by omega, by omega⟩
    · rename_i hmin
      have hmin : w.toNat ≠ 0 := fun h => hmin (BitVec.eq_of_toNat_eq h)
      exact ⟨by omega, .inl (by omega), by omega, by omega⟩

theorem toNat_leading_append (v : BitVec 52) : (1#1 ++ v).toNat = 2 ^ 52 + v.toNat := by
  rw [BitVec.toNat_append, ← Nat.shiftLeft_add_eq_or_of_lt v.isLt]
  rfl

theorem unpack_eq_ofFields (b : BitVec 64) : UnpackedFloat.unpack .binary64 b =
    ofFields (.ofBitVec (@unpackSign .binary64 b)) (@unpackExponent .binary64 b)
      (@unpackMantissa .binary64 b) := by
  unfold UnpackedFloat.unpack ofFields
  simp only [toNat_leading_append]
  split
  · rfl
  · split
    · split
      · rfl
      · simp_all [Format.exponentBias]
    · simp [Format.exponentBias]

theorem canonical_unpack (x : Float) : Canonical x.toModel.unpack := by
  change Canonical (UnpackedFloat.unpack .binary64 _)
  rw [unpack_eq_ofFields]
  exact canonical_ofFields ..

theorem unpack_packComponents (s : Sign) (w : BitVec 11) (v : BitVec 52) :
    UnpackedFloat.unpack .binary64 (packComponents .binary64 s w v) = ofFields s w v := by
  rw [unpack_eq_ofFields, unpackSign_packComponents, unpackExponent_packComponents,
    unpackMantissa_packComponents, Sign.ofBitVec_toBitVec]

theorem finite_congr {s : Sign} {m m' : Nat} {e e' : Int} {hm : 0 < m} {hm' : 0 < m'}
    (h : m = m') (h' : e = e') : UnpackedFloat.finite s m e hm = .finite s m' e' hm' := by
  subst h h'
  rfl

theorem ofFields_of_normal (s : Sign) {m : Nat} {e : Int} (hm : 0 < m) (hlt : m < 2 ^ 53)
    (hle : 2 ^ 52 ≤ m) (hge : -1074 ≤ e) (hmax : e ≤ 971) :
    ofFields s (BitVec.ofNat 11 (e + 1075).toNat) (BitVec.ofNat 52 m) = .finite s m e hm := by
  have hw : (BitVec.ofNat 11 (e + 1075).toNat).toNat = (e + 1075).toNat := by
    rw [BitVec.toNat_ofNat]
    omega
  have hv : (BitVec.ofNat 52 m).toNat = m - 2 ^ 52 := by
    rw [BitVec.toNat_ofNat]
    omega
  unfold ofFields
  rw [if_neg, if_neg]
  · exact finite_congr (by omega) (by omega)
  · intro h
    have h := congrArg BitVec.toNat h
    simp [hw] at h
    omega
  · intro h
    have h := congrArg BitVec.toNat h
    simp [hw] at h
    omega

theorem ofFields_of_subnormal (s : Sign) {m : Nat} (hm : 0 < m) (hlt : m < 2 ^ 52) :
    ofFields s 0#11 (BitVec.ofNat 52 m) = .finite s m (-1074) hm := by
  have hv : (BitVec.ofNat 52 m).toNat = m := by
    rw [BitVec.toNat_ofNat]
    omega
  unfold ofFields
  rw [if_neg (by decide), if_pos rfl, dif_neg]
  · exact finite_congr hv rfl
  · intro h
    have h := congrArg BitVec.toNat h
    simp [hv] at h
    omega

theorem unpack_pack {u : UnpackedFloat} (h : Canonical u) : (Float.Model.pack u).unpack = u := by
  change UnpackedFloat.unpack .binary64 (UnpackedFloat.pack .binary64 u) = u
  cases u with
  | infinity s => cases s <;> rfl
  | notANumber => rfl
  | zero s => cases s <;> rfl
  | finite s m e hm =>
    obtain ⟨hlt, hnormal, hge, hle⟩ := h
    have hbias : (e + Format.binary64.exponentBias +
        Format.binary64.mantissaBitsWithoutImplicit).toNat = (e + 1075).toNat := by
      simp [Format.exponentBias]
      omega
    unfold UnpackedFloat.pack
    simp only [hbias]
    rw [if_neg (by omega)]
    split
    · rename_i hlog
      have hlog : m.log2 = 52 := Nat.succ.inj hlog
      rw [unpack_packComponents]
      exact ofFields_of_normal s hm hlt (hlog ▸ Nat.log2_self_le (by omega)) hge hle
    · rename_i hlog
      have hlt' : m < 2 ^ 52 := Nat.lt_of_not_le fun hle' =>
        hlog (congrArg Nat.succ ((Nat.log2_eq_iff (by omega)).2 ⟨hle', hlt⟩))
      obtain rfl : e = -1074 := hnormal.resolve_left (by omega)
      rw [unpack_packComponents]
      exact ofFields_of_subnormal s hm hlt'

/-! ### Rounding that loses nothing -/

theorem shiftRight_of_mul (m i : Nat) :
    (⟨m * 2 ^ i, false, false⟩ : ExtendedMantissa) >>> i = ⟨m, false, false⟩ := by
  change Nat.repeat ExtendedMantissa.shiftRightOne i _ = _
  induction i generalizing m with
  | zero => simp [Nat.repeat]
  | succ i ih =>
    have hpow : m * 2 ^ (i + 1) = m * 2 * 2 ^ i := by ring
    rw [Nat.repeat, hpow, ih (m * 2)]
    simp [ExtendedMantissa.shiftRightOne]

theorem targetExponent_eq {m : Nat} {e : Int} (i : Nat) (hlog : m.log2 = i) :
    Format.binary64.targetExponent (totalExponent m e) = max (e + (i - 52)) (-1074) := by
  simp only [Format.targetExponent, totalExponent, Format.mantissaBits, Format.minExponent, hlog]
  norm_num
  omega

theorem log2_mul_two_pow {m : Nat} (i : Nat) (hm : 0 < m) : (m * 2 ^ i).log2 = m.log2 + i := by
  have hpos : m * 2 ^ i ≠ 0 := by positivity
  rw [Nat.log2_eq_iff hpos]
  constructor
  · rw [Nat.pow_add]
    exact Nat.mul_le_mul_right _ (Nat.log2_self_le (by omega))
  · rw [Nat.add_right_comm, Nat.pow_add]
    exact Nat.mul_lt_mul_of_pos_right Nat.lt_log2_self (by positivity)

theorem shiftToTargetExponent_of_mul {m : Nat} {e : Int} (i : Nat) (hlog : m.log2 = 52)
    (hm : 0 < m) (hge : -1074 ≤ e + i) :
    shiftToTargetExponent .binary64 (m * 2 ^ i) e .exact = (⟨m, false, false⟩, e + i) := by
  have htarget : Format.binary64.targetExponent (totalExponent (m * 2 ^ i) e) = e + i := by
    rw [targetExponent_eq (52 + i) (by rw [log2_mul_two_pow i hm, hlog])]
    omega
  have hshift : (e + i - e).toNat = i := by omega
  unfold shiftToTargetExponent shiftToExponent
  simp only [htarget, hshift]
  exact congrArg (·, e + i) (shiftRight_of_mul m i)

theorem roundWithAccuracy_of_mul (s : Sign) {m : Nat} {e : Int} (i : Nat) (hlog : m.log2 = 52)
    (hm : 0 < m) (hge : -1074 ≤ e + i) :
    roundWithAccuracy .binary64 s (m * 2 ^ i) e .exact = .finite s m (e + i) hm := by
  have hagain := shiftToTargetExponent_of_mul (e := e + i) 0 hlog hm (by simpa using hge)
  unfold roundWithAccuracy
  rw [shiftToTargetExponent_of_mul i hlog hm hge]
  simp only [Nat.pow_zero, Nat.mul_one, Int.natCast_zero, Int.add_zero] at hagain
  simp only [ExtendedMantissa.roundedMantissa, ExtendedMantissa.accuracy,
    Accuracy.roundToNearestEven, hagain]
  rw [dif_neg (by omega)]

def dyadic (s : Sign) (d : Nat) (e : Int) (hd : 0 < d) : UnpackedFloat :=
  .finite s (d * 2 ^ (52 - d.log2)) (e - (52 - d.log2 : Nat)) (Nat.mul_pos hd (Nat.two_pow_pos _))

section

variable {d : Nat} {e : Int} {j : Nat} (s : Sign) (hd : 0 < d) (hlt : d < 2 ^ 53)
include hd hlt

theorem log2_le : d.log2 ≤ 52 := Nat.le_of_lt_succ ((Nat.log2_lt (by omega)).2 hlt)

theorem log2_mantissa : (d * 2 ^ (52 - d.log2)).log2 = 52 := by
  have hlog := log2_le hd hlt
  rw [log2_mul_two_pow _ hd]
  omega

theorem canonical_dyadic (hge : -1022 ≤ e) (hle : e ≤ 971) : Canonical (dyadic s d e hd) := by
  have hlog := log2_mantissa hd hlt
  obtain ⟨hle', hlt'⟩ := (Nat.log2_eq_iff (by positivity)).1 hlog
  exact ⟨hlt', .inl hle', by omega, by omega⟩

theorem roundWithAccuracy_of_dyadic (hj : 52 - d.log2 ≤ j) (hge : -1022 ≤ e + j) :
    roundWithAccuracy .binary64 s (d * 2 ^ j) e .exact = dyadic s d (e + j) hd := by
  obtain ⟨i, rfl⟩ := Nat.exists_eq_add_of_le hj
  rw [Nat.pow_add, ← Nat.mul_assoc, roundWithAccuracy_of_mul s i (log2_mantissa hd hlt)
    (by positivity) (by omega)]
  exact finite_congr rfl (by omega)

theorem round_of_dyadic (hge : -1022 ≤ e + j) :
    UnpackedFloat.round .binary64 s (d * 2 ^ j) e = dyadic s d (e + j) hd := by
  have hlog := log2_le hd hlt
  unfold UnpackedFloat.round decreaseExponent
  rw [targetExponent_eq (d.log2 + j) (log2_mul_two_pow j hd)]
  rcases Nat.le_total (52 - d.log2) j with hj | hj
  · have hshift : (e - max (e + ((d.log2 + j : Nat) - 52 : Int)) (-1074)).toNat = 0 := by omega
    simp only [hshift]
    simpa using roundWithAccuracy_of_dyadic s hd hlt hj hge
  · have hshift : (e - max (e + ((d.log2 + j : Nat) - 52 : Int)) (-1074)).toNat =
        52 - d.log2 - j := by omega
    have hmantissa : (d * 2 ^ j) <<< (52 - d.log2 - j) = d * 2 ^ (52 - d.log2) := by
      rw [Nat.shiftLeft_eq, Nat.mul_assoc, ← Nat.pow_add]
      congr 2
      omega
    simp only [hshift, hmantissa]
    rw [roundWithAccuracy_of_dyadic s hd hlt (Nat.le_refl _) (by omega)]
    congr 1
    omega

end

theorem mul_dyadic {a b : Nat} (ha : 0 < a) (hb : 0 < b) (hab : 0 < a * b) (hlt : a * b < 2 ^ 53)
    {e f : Int} (hge : -1022 ≤ e + f) (s t : Sign) :
    UnpackedFloat.mul .binary64 (dyadic s a e ha) (dyadic t b f hb) =
      dyadic (s * t) (a * b) (e + f) hab := by
  have hlog : a.log2 + b.log2 ≤ (a * b).log2 := by
    rw [Nat.le_log2 (by omega), Nat.pow_add]
    exact Nat.mul_le_mul (Nat.log2_self_le (by omega)) (Nat.log2_self_le (by omega))
  have hmantissa : a * 2 ^ (52 - a.log2) * (b * 2 ^ (52 - b.log2)) =
      a * b * 2 ^ (52 - a.log2 + (52 - b.log2)) := by
    rw [Nat.pow_add]
    exact Nat.mul_mul_mul_comm ..
  simp only [dyadic, UnpackedFloat.mul, hmantissa]
  rw [roundWithAccuracy_of_dyadic (s * t) hab hlt (by omega) (by omega), dyadic]
  exact finite_congr rfl (by omega)

theorem log2_mul_le {a b : Nat} (ha : 0 < a) (hb : 0 < b) :
    (a * b).log2 ≤ a.log2 + b.log2 + 1 := by
  have hab : a * b ≠ 0 := by positivity
  refine Nat.le_of_lt_succ ((Nat.log2_lt hab).2 ?_)
  calc
    a * b < 2 ^ (a.log2 + 1) * 2 ^ (b.log2 + 1) :=
      Nat.mul_lt_mul'' Nat.lt_log2_self Nat.lt_log2_self
    _ = 2 ^ (a.log2 + b.log2 + 1 + 1) := by
      rw [← Nat.pow_add]
      congr 1
      omega

theorem divCore_eq {m n : Nat} {e f : Int} (hm : m.log2 = 52) (hn : n.log2 = 52)
    (hge : -1021 ≤ e - f) : divCore .binary64 m e n f =
      (m * 2 ^ 53 / n, e - f - 53, accuracyOfFraction (m * 2 ^ 53 % n) n) := by
  have htarget : Format.binary64.targetExponent (totalExponent m e - totalExponent n f) =
      e - f - 53 := by
    unfold totalExponent
    rw [hm, hn]
    simp only [Format.targetExponent, Format.mantissaBits, Format.minExponent]
    norm_num
    omega
  have hmin : min (e - f) (e - f - 53) = e - f - 53 := by omega
  have hshift : (e - f - (e - f - 53)).toNat = 53 := by omega
  simp only [divCore, htarget, hmin, hshift, Nat.shiftLeft_eq]

theorem divCore_of_mul {a m n : Nat} {e f : Int} (i : Nat) (hm : m.log2 = 52) (hn : n.log2 = 52)
    (hmul : m * 2 ^ 53 = a * 2 ^ i * n) (hpos : 0 < n) (hge : -1021 ≤ e - f) :
    divCore .binary64 m e n f = (a * 2 ^ i, e - f - 53, .exact) := by
  rw [divCore_eq hm hn hge, hmul, Nat.mul_div_cancel _ hpos, Nat.mul_mod_left]
  rfl

theorem div_dyadic {a b : Nat} (ha : 0 < a) (hb : 0 < b) (hba : 0 < b * a) (hlt : b * a < 2 ^ 53)
    {e f : Int} (hge : -969 ≤ e - f) (s t : Sign) :
    UnpackedFloat.div .binary64 (dyadic s (b * a) e hba) (dyadic t b f hb) =
      dyadic (s / t) a (e - f) ha := by
  have halt : a < 2 ^ 53 := Nat.lt_of_le_of_lt (Nat.le_mul_of_pos_left a hb) hlt
  have hblt : b < 2 ^ 53 := Nat.lt_of_le_of_lt (Nat.le_mul_of_pos_right b ha) hlt
  have hlog := log2_le hba hlt
  have hblog := log2_le hb hblt
  have hsum := log2_mul_le hb ha
  obtain ⟨i, hi⟩ : ∃ i, 52 - (b * a).log2 + 53 = 52 - b.log2 + i :=
    ⟨_, (Nat.add_sub_of_le (by omega)).symm⟩
  have hmul : b * a * 2 ^ (52 - (b * a).log2) * 2 ^ 53 = a * 2 ^ i * (b * 2 ^ (52 - b.log2)) := by
    rw [Nat.mul_assoc, ← Nat.pow_add, hi, Nat.pow_add]
    ring
  simp only [dyadic, UnpackedFloat.div]
  rw [divCore_of_mul i (log2_mantissa hba hlt) (log2_mantissa hb hblt) hmul (by positivity)
    (by omega)]
  simp only
  rw [roundWithAccuracy_of_dyadic _ ha halt (by omega) (by omega)]
  exact finite_congr rfl (by omega)

/-! ### Mantissas that are too long -/

theorem mantissa_shiftRight (x : ExtendedMantissa) (i : Nat) :
    (x >>> i).mantissa = x.mantissa / 2 ^ i := by
  change (Nat.repeat ExtendedMantissa.shiftRightOne i x).mantissa = _
  induction i with
  | zero => simp [Nat.repeat]
  | succ i ih =>
    rw [Nat.repeat, ExtendedMantissa.shiftRightOne, ih, Nat.div_div_eq_div_mul, ← Nat.pow_succ]

theorem roundedMantissa_le (x : ExtendedMantissa) :
    x.mantissa ≤ x.roundedMantissa ∧ x.roundedMantissa ≤ x.mantissa + 1 := by
  obtain ⟨m, r, s⟩ := x
  cases r <;> cases s <;>
    simp [ExtendedMantissa.roundedMantissa, ExtendedMantissa.accuracy, Accuracy.roundToNearestEven]
  omega

theorem exists_shiftToTargetExponent {r : Nat} {e : Int} (hle : 2 ^ 52 ≤ r) (hr : r ≤ 2 ^ 53)
    (hge : -1074 ≤ e) : ∃ m i, 2 ^ 52 ≤ m ∧ m < 2 ^ 53 ∧ i ≤ 1 ∧ m * 2 ^ i = r ∧
      shiftToTargetExponent .binary64 r e .exact = (⟨m, false, false⟩, e + (i : Nat)) := by
  rcases Nat.eq_or_lt_of_le hr with rfl | hlt
  · refine ⟨2 ^ 52, 1, Nat.le_refl _, by decide, Nat.le_refl _, rfl, ?_⟩
    exact shiftToTargetExponent_of_mul 1 (by decide +kernel) (by decide) (by omega)
  · refine ⟨r, 0, hle, hlt, by decide, Nat.mul_one r, ?_⟩
    have h := shiftToTargetExponent_of_mul (e := e) (m := r) 0
      ((Nat.log2_eq_iff (by omega)).2 ⟨hle, hlt⟩) (by omega) (by omega)
    rwa [Nat.pow_zero, Nat.mul_one] at h

theorem exists_round_of_le {s : Sign} {n : Nat} (hle : 2 ^ 53 ≤ n) (hlt : n < 2 ^ 64) :
    ∃ m e hm, UnpackedFloat.round .binary64 s n 0 = .finite s m e hm ∧
      Canonical (.finite s m e hm) := by
  have hn : n ≠ 0 := by omega
  obtain ⟨k, hk⟩ := Nat.exists_eq_add_of_le (m := 53) ((Nat.le_log2 hn).2 hle)
  have hk' : k < 11 := by
    have := (Nat.log2_lt hn).2 hlt
    omega
  have htarget : Format.binary64.targetExponent (totalExponent n 0) = (k + 1 : Nat) := by
    rw [targetExponent_eq _ hk]
    omega
  have hdecrease : (0 - ((k + 1 : Nat) : Int)).toNat = 0 := by omega
  have hshift : (((k + 1 : Nat) : Int) - 0).toNat = k + 1 := by omega
  have hfirst : shiftToTargetExponent .binary64 n 0 .exact =
      ((⟨n, false, false⟩ : ExtendedMantissa) >>> (k + 1), 0 + ((k + 1 : Nat) : Int)) := by
    unfold shiftToTargetExponent shiftToExponent
    simp only [htarget, hshift]
    rfl
  obtain ⟨hlower, hupper⟩ := (Nat.log2_eq_iff hn).1 hk
  have hquotient : 2 ^ 52 ≤ n / 2 ^ (k + 1) ∧ n / 2 ^ (k + 1) < 2 ^ 53 := by
    constructor
    · rw [Nat.le_div_iff_mul_le (by positivity), ← Nat.pow_add]
      exact Nat.le_trans (Nat.pow_le_pow_right (by decide) (by omega)) hlower
    · rw [Nat.div_lt_iff_lt_mul (by positivity), ← Nat.pow_add]
      exact Nat.lt_of_lt_of_le hupper (Nat.pow_le_pow_right (by decide) (by omega))
  have hrounded := roundedMantissa_le ((⟨n, false, false⟩ : ExtendedMantissa) >>> (k + 1))
  rw [mantissa_shiftRight] at hrounded
  obtain ⟨m, i, hm, hm', hi, -, hfinal⟩ := exists_shiftToTargetExponent (e := 0 + (k + 1 : Nat))
    (Nat.le_trans hquotient.1 hrounded.1) (Nat.le_trans hrounded.2 hquotient.2) (by omega)
  refine ⟨m, 0 + (k + 1 : Nat) + i, by omega, ?_, hm', .inl hm, by omega, by omega⟩
  unfold UnpackedFloat.round decreaseExponent
  simp only [htarget, hdecrease, Nat.shiftLeft_zero, Int.natCast_zero, Int.sub_zero]
  unfold roundWithAccuracy
  rw [hfirst]
  simp only [hfinal]
  rw [dif_neg (by omega)]

/-! ### Whole numbers -/

theorem ofUInt64_eq {n : UInt64} (hn : 0 < n.toNat) (hlt : n.toNat < 2 ^ 53) :
    UnpackedFloat.ofUInt64 .binary64 n = dyadic .positive n.toNat 0 hn := by
  have hgt : compare (n.toNat : Int) 0 = .gt := compare_gt_iff_gt.2 (by omega)
  simp only [UnpackedFloat.ofUInt64, UnpackedFloat.ofNat, UnpackedFloat.ofInt,
    UnpackedFloat.normalize, hgt]
  simpa using round_of_dyadic (j := 0) (e := 0) .positive hn hlt (by omega)

theorem unpack_toFloat {n : UInt64} (hn : 0 < n.toNat) (hlt : n.toNat < 2 ^ 53) :
    n.toFloat.toModel.unpack = dyadic .positive n.toNat 0 hn := by
  change (Float.Model.pack (UnpackedFloat.ofUInt64 .binary64 n)).unpack = _
  rw [ofUInt64_eq hn hlt]
  exact unpack_pack (canonical_dyadic _ hn hlt (by omega) (by omega))

theorem unpack_mul_toFloat {a n : UInt64} (ha : 0 < a.toNat) (hn : 0 < n.toNat)
    (hna : 0 < n.toNat * a.toNat) (hlt : n.toNat * a.toNat < 2 ^ 53) :
    (n.toFloat * a.toFloat).toModel.unpack = dyadic .positive (n.toNat * a.toNat) 0 hna := by
  have hnlt : n.toNat < 2 ^ 53 := Nat.lt_of_le_of_lt (Nat.le_mul_of_pos_right _ ha) hlt
  have halt : a.toNat < 2 ^ 53 := Nat.lt_of_le_of_lt (Nat.le_mul_of_pos_left _ hn) hlt
  change (Float.Model.pack (UnpackedFloat.mul .binary64 n.toFloat.toModel.unpack
    a.toFloat.toModel.unpack)).unpack = _
  rw [unpack_toFloat hn hnlt, unpack_toFloat ha halt,
    mul_dyadic hn ha hna hlt (by omega) .positive .positive]
  exact unpack_pack (canonical_dyadic _ hna hlt (by omega) (by omega))

/-- To multiply by a number and to divide by it again loses nothing. -/
theorem mul_div_cancel {a n : UInt64} (ha : 0 < a.toNat) (hn : 0 < n.toNat)
    (hlt : n.toNat * a.toNat < 2 ^ 53) : n.toFloat * a.toFloat / n.toFloat = a.toFloat := by
  have hna : 0 < n.toNat * a.toNat := Nat.mul_pos hn ha
  have hnlt : n.toNat < 2 ^ 53 := Nat.lt_of_le_of_lt (Nat.le_mul_of_pos_right _ ha) hlt
  have halt : a.toNat < 2 ^ 53 := Nat.lt_of_le_of_lt (Nat.le_mul_of_pos_left _ hn) hlt
  change Float.ofModel (Float.Model.pack (UnpackedFloat.div .binary64
    (n.toFloat * a.toFloat).toModel.unpack n.toFloat.toModel.unpack)) =
      Float.ofModel (Float.Model.pack (UnpackedFloat.ofUInt64 .binary64 a))
  rw [unpack_mul_toFloat ha hn hna hlt, unpack_toFloat hn hnlt, ofUInt64_eq ha halt,
    div_dyadic ha hn hna hlt (by omega) .positive .positive]
  rfl

theorem exists_unpack_toFloat {n : UInt64} (hn : 0 < n.toNat) :
    ∃ m e hm, n.toFloat.toModel.unpack = .finite .positive m e hm := by
  rcases Nat.lt_or_ge n.toNat (2 ^ 53) with hlt | hge
  · exact ⟨_, _, _, unpack_toFloat hn hlt⟩
  · obtain ⟨m, e, hm, hround, hcanonical⟩ :=
      exists_round_of_le (s := .positive) hge n.toNat_lt
    refine ⟨m, e, hm, ?_⟩
    have hgt : compare (n.toNat : Int) 0 = .gt := compare_gt_iff_gt.2 (by omega)
    change (Float.Model.pack (UnpackedFloat.ofUInt64 .binary64 n)).unpack = _
    simp only [UnpackedFloat.ofUInt64, UnpackedFloat.ofNat, UnpackedFloat.ofInt,
      UnpackedFloat.normalize, hgt, Int.toNat_natCast]
    rw [hround]
    exact unpack_pack hcanonical

theorem zero_mul_div {n k : UInt64} (hk : 0 < k.toNat) :
    (0 : UInt64).toFloat * n.toFloat / k.toFloat = 0.0 := by
  have hzero : (0 : UInt64).toFloat.toModel.unpack = .zero .positive := rfl
  have hproduct : ((0 : UInt64).toFloat * n.toFloat).toModel.unpack = .zero .positive := by
    change (Float.Model.pack (UnpackedFloat.mul .binary64 (0 : UInt64).toFloat.toModel.unpack
      n.toFloat.toModel.unpack)).unpack = _
    rw [hzero]
    rcases Nat.eq_zero_or_pos n.toNat with hn | hn
    · obtain rfl : n = 0 := UInt64.toNat_inj.1 hn
      rfl
    · obtain ⟨m, e, hm, h⟩ := exists_unpack_toFloat hn
      rw [h]
      exact unpack_pack (u := .zero .positive) trivial
  obtain ⟨m, e, hm, h⟩ := exists_unpack_toFloat hk
  change Float.ofModel (Float.Model.pack (UnpackedFloat.div .binary64
    ((0 : UInt64).toFloat * n.toFloat).toModel.unpack k.toFloat.toModel.unpack)) = _
  rw [hproduct, h]
  rfl

end Turnpike.Binary64
