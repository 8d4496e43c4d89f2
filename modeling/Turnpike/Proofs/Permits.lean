import Turnpike.Admission.Limiter
import Turnpike.Proofs.OrderedDoubles

/-!
What a limiter has left to give at one reading of its clock. A window counts its permits down. A
bucket takes one from a double, again and again, and that comes to an end as long as the doubles
around its capacity tell neighbouring whole numbers apart.
-/

namespace Turnpike

namespace Binary64

open Float.Model Float.Model.UnpackedFloat

/-! ### As many as `n` -/

def AtMost (x : Float) (n : Nat) : Prop :=
  match x.toModel.unpack with
  | .notANumber | .infinity .positive => False
  | .infinity .negative | .zero _ | .finite .negative .. => True
  | .finite .positive m e _ => -52 ≤ e → m * 2 ^ (e + 52).toNat ≤ n * 2 ^ 52

theorem scaled_le {m n : Nat} {e f : Int} (hm : Stored m e) (hn : Stored n f) (he : -52 ≤ e)
    (h : e < f ∨ e = f ∧ m ≤ n) : m * 2 ^ (e + 52).toNat ≤ n * 2 ^ (f + 52).toNat := by
  obtain ⟨hlt, -, -, -⟩ := hm
  obtain ⟨-, hnormal, -, -⟩ := hn
  rcases h with hef | ⟨rfl, hle⟩
  · have hexp : (e + 52).toNat + 1 ≤ (f + 52).toNat := by omega
    calc
      m * 2 ^ (e + 52).toNat ≤ n * 2 * 2 ^ (e + 52).toNat := Nat.mul_le_mul_right _ (by omega)
      _ = n * 2 ^ ((e + 52).toNat + 1) := by ring
      _ ≤ n * 2 ^ (f + 52).toNat := Nat.mul_le_mul_left n (Nat.pow_le_pow_right (by decide) hexp)
  · exact Nat.mul_le_mul_right _ hle

theorem atMost_of_dyadic {x : Float} {d j n : Nat} (hd : 0 < d)
    (hx : x.toModel.unpack = dyadic .positive d (-52 + j) hd) (hle : d * 2 ^ j ≤ n * 2 ^ 52) :
    AtMost x n := by
  unfold AtMost
  rw [hx, dyadic]
  intro he
  refine Nat.le_trans (Nat.le_of_eq ?_) hle
  rw [Nat.mul_assoc, ← Nat.pow_add]
  congr 2
  omega

/-- Past `2 ^ 53 + 2`, to take one from a whole number may change nothing. -/
theorem atMost_toFloat {n : UInt64} (hle : n.toNat ≤ 2 ^ 53 + 2) : AtMost n.toFloat n.toNat := by
  rcases Nat.lt_or_ge n.toNat (2 ^ 53) with hlt | hge
  · rcases Nat.eq_zero_or_pos n.toNat with hn | hn
    · obtain rfl : n = 0 := UInt64.toNat_inj.1 hn
      trivial
    · exact atMost_of_dyadic (j := 52) hn (unpack_toFloat hn hlt) (Nat.le_refl _)
  · have hn : n = 9007199254740992 ∨ n = 9007199254740993 ∨ n = 9007199254740994 := by
      simp only [← UInt64.toNat_inj, UInt64.reduceToNat]
      omega
    rcases hn with rfl | rfl | rfl <;> exact fun _ => by decide

theorem toFloat_ne_notANumber (n : UInt64) : n.toFloat.toModel.unpack ≠ .notANumber := by
  rcases Nat.eq_zero_or_pos n.toNat with hn | hn
  · obtain rfl : n = 0 := UInt64.toNat_inj.1 hn
    exact nofun
  · obtain ⟨m, e, hm, h⟩ := exists_unpack_toFloat hn
    rw [h]
    exact nofun

namespace AtMost

variable {x y : Float} {n : Nat}

theorem of_le (hy : AtMost y n) (h : x ≤ y) : AtMost x n := by
  rw [le_iff] at h
  have hx := canonical_unpack x
  have hstored := canonical_unpack y
  unfold AtMost at hy ⊢
  generalize x.toModel.unpack = u at *
  generalize y.toModel.unpack = v at *
  split
  · simp [UnpackedFloat.compare] at h
  · cases v with
    | infinity s => cases s with
      | positive => exact hy
      | negative => exact absurd h (by decide)
    | _ => simp [UnpackedFloat.compare] at h
  · trivial
  · trivial
  · trivial
  · cases v with
    | notANumber => exact hy.elim
    | zero s => simp [UnpackedFloat.compare] at h
    | infinity s => cases s with
      | positive => exact hy.elim
      | negative => simp [UnpackedFloat.compare] at h
    | finite s m' e' hm' => cases s with
      | negative => simp [UnpackedFloat.compare] at h
      | positive =>
        intro he
        rw [compare_finite] at h
        have hle := isLE_compare_then.1 h
        exact Nat.le_trans (scaled_le hx hstored he hle) (hy (by omega))

theorem of_not_lt (hx : AtMost x n) (h : ¬ x < y) (hy : y.toModel.unpack ≠ .notANumber) :
    AtMost y n := by
  refine hx.of_le (le_of_not_lt h (fun hnan => ?_) hy)
  simp [AtMost, hnan] at hx

theorem add_zero (hx : AtMost x n) : AtMost (x + 0.0) n := by
  have hcanonical := canonical_unpack x
  have hsum : (x + 0.0).toModel.unpack =
      (Float.Model.pack (UnpackedFloat.add .binary64 x.toModel.unpack (.zero .positive))).unpack :=
    rfl
  unfold AtMost at hx ⊢
  rw [hsum]
  generalize x.toModel.unpack = u at *
  cases u with
  | notANumber => exact hx
  | zero s => cases s <;> trivial
  | infinity s => cases s <;> exact hx
  | finite s m e hm =>
    simp only [UnpackedFloat.add]
    rw [unpack_pack hcanonical]
    exact hx

end AtMost

/-! ### Taking one -/

theorem unpack_one : (1.0 : Float).toModel.unpack = .finite .positive (2 ^ 52) (-52) (by decide) :=
  rfl

theorem exists_of_one_le {x : Float} {n : Nat} (hx : AtMost x n) (h : 1.0 ≤ x) :
    ∃ m q hm, x.toModel.unpack = .finite .positive m (-52 + (q : Nat)) hm ∧ 2 ^ 52 ≤ m ∧
      m < 2 ^ 53 ∧ m * 2 ^ q ≤ n * 2 ^ 52 := by
  rw [le_iff, unpack_one] at h
  have hcanonical := canonical_unpack x
  unfold AtMost at hx
  generalize x.toModel.unpack = u at *
  cases u with
  | notANumber => exact hx.elim
  | zero s => simp [UnpackedFloat.compare] at h
  | infinity s => cases s with
    | positive => exact hx.elim
    | negative => simp [UnpackedFloat.compare] at h
  | finite s m e hm => cases s with
    | negative => simp [UnpackedFloat.compare] at h
    | positive =>
      rw [compare_finite] at h
      have hle := isLE_compare_then.1 h
      obtain ⟨hlt, hnormal, -, -⟩ := hcanonical
      exact ⟨m, (e + 52).toNat, hm, finite_congr rfl (by omega), by omega, hlt, hx (by omega)⟩

theorem unpack_sub_one {x : Float} {m q : Nat} {hm : 0 < m}
    (hx : x.toModel.unpack = .finite .positive m (-52 + (q : Int)) hm) :
    (x - 1.0).toModel.unpack = (Float.Model.pack (UnpackedFloat.normalize .binary64
      ((m * 2 ^ q : Nat) - (2 ^ 52 : Nat)) (-52) .positive)).unpack := by
  change (Float.Model.pack (UnpackedFloat.sub .binary64 x.toModel.unpack
    (1.0 : Float).toModel.unpack)).unpack = _
  have hmin : min (-52 + (q : Int)) (-52) = -52 := by omega
  have hshift : (-52 + (q : Int) - -52).toNat = q := by omega
  rw [hx, unpack_one]
  simp only [UnpackedFloat.sub, hmin, decreaseExponent, hshift, Nat.shiftLeft_eq, Sign.apply]
  rfl

theorem normalize_of_dyadic {a b d j : Nat} (hd : 0 < d) (hlt : d < 2 ^ 53)
    (hab : a = b + d * 2 ^ j) : UnpackedFloat.normalize .binary64 ((a : Int) - b) (-52) .positive =
      dyadic .positive d (-52 + j) hd := by
  have hpos : 0 < d * 2 ^ j := by positivity
  have hgt : compare ((a : Int) - b) 0 = .gt := compare_gt_iff_gt.2 (by omega)
  have hmantissa : ((a : Int) - b).toNat = d * 2 ^ j := by omega
  simp only [UnpackedFloat.normalize, hgt, hmantissa]
  exact round_of_dyadic .positive hd hlt (by omega)

theorem exists_dyadic_of_one_le {m q : Nat} (hm : 2 ^ 52 ≤ m) (hlt : m < 2 ^ 53)
    (hle : m * 2 ^ q ≤ (2 ^ 53 + 2) * 2 ^ 52) : m * 2 ^ q = 2 ^ 52 ∨
      (∃ d j, 0 < d ∧ d < 2 ^ 53 ∧ j ≤ 52 ∧ m * 2 ^ q = 2 ^ 52 + d * 2 ^ j) ∨
      m = 2 ^ 52 + 1 ∧ q = 53 := by
  have hq : q < 54 := by
    apply (Nat.pow_lt_pow_iff_right (a := 2) (by decide)).1
    apply Nat.lt_of_mul_lt_mul_left (a := 2 ^ 52)
    calc
      2 ^ 52 * 2 ^ q ≤ m * 2 ^ q := Nat.mul_le_mul_right _ hm
      _ ≤ (2 ^ 53 + 2) * 2 ^ 52 := hle
      _ < 2 ^ 52 * 2 ^ 54 := by decide
  rcases Nat.eq_or_lt_of_le (Nat.le_of_lt_succ hq) with rfl | hq
  · have hm' : m = 2 ^ 52 ∨ m = 2 ^ 52 + 1 := by omega
    rcases hm' with rfl | rfl
    · exact .inr (.inl ⟨2 ^ 53 - 1, 52, by decide⟩)
    · exact .inr (.inr ⟨rfl, rfl⟩)
  · have hone : 2 ^ (52 - q) * 2 ^ q = 2 ^ 52 := by
      rw [← Nat.pow_add]
      congr 1
      omega
    have hpow : 2 ^ (52 - q) ≤ m :=
      Nat.le_trans (Nat.pow_le_pow_right (by decide) (Nat.sub_le 52 q)) hm
    obtain ⟨d, rfl⟩ := Nat.exists_eq_add_of_le hpow
    rw [Nat.add_mul, hone]
    rcases Nat.eq_zero_or_pos d with rfl | hd
    · exact .inl (by simp)
    · exact .inr (.inl ⟨d, q, hd, Nat.lt_of_le_of_lt (Nat.le_add_left ..) hlt,
        Nat.le_of_lt_succ hq, rfl⟩)

/-- From up to `n`, one can be taken `n` times at most. -/
theorem AtMost.sub_one {x : Float} {n : Nat} (hx : AtMost x n) (hn : n ≤ 2 ^ 53 + 2)
    (h : 1.0 ≤ x) : 0 < n ∧ AtMost (x - 1.0) (n - 1) := by
  obtain ⟨m, q, hm, hunpack, hle, hlt, hbound⟩ := exists_of_one_le hx h
  have hone : 2 ^ 52 ≤ m * 2 ^ q :=
    Nat.le_trans hle (Nat.le_mul_of_pos_right m (Nat.two_pow_pos q))
  have hsub := unpack_sub_one hunpack
  refine ⟨by omega, ?_⟩
  rcases exists_dyadic_of_one_le hle hlt (Nat.le_trans hbound (Nat.mul_le_mul_right _ hn)) with
    heq | ⟨d, j, hd, hdlt, hj, heq⟩ | ⟨rfl, rfl⟩
  · rw [heq, Int.sub_self] at hsub
    unfold AtMost
    rw [hsub]
    trivial
  · have hcanonical := canonical_dyadic (e := -52 + j) .positive hd hdlt (by omega) (by omega)
    rw [normalize_of_dyadic hd hdlt heq, unpack_pack hcanonical] at hsub
    exact atMost_of_dyadic hd hsub (by omega)
  · have hrounded : (x - 1.0).toModel.unpack = .finite .positive (2 ^ 52) 1 (by decide) := hsub
    unfold AtMost
    rw [hrounded]
    intro _
    simp only [Int.reduceAdd, Int.reduceToNat]
    omega

end Binary64

theorem RateLimitPolicy.length_pos (p : RateLimitPolicy) : 0 < p.length :=
  Nat.le_max_right ..

theorem RateLimitPolicy.toNat_length (p : RateLimitPolicy) :
    (UInt64.ofNat p.length).toNat = p.length :=
  Nat.mod_eq_of_lt (Nat.max_lt.2 ⟨p.windowMs.toNat_lt, by decide⟩)

/-! ### Buckets -/

namespace TokenBucket

open Binary64

variable {b : TokenBucket} {now n : Nat}

def capped (b : TokenBucket) (amount : Float) : Float :=
  if amount < b.policy.permits.toFloat then amount else b.policy.permits.toFloat

theorem atMost_capped {x : Float} (hp : b.policy.permits.toNat ≤ 2 ^ 53 + 2) :
    AtMost (b.capped x) b.policy.permits.toNat := by
  unfold capped
  split
  · exact (atMost_toFloat hp).of_le (le_of_lt ‹_›)
  · exact atMost_toFloat hp

theorem atMost_capped_of_atMost {x : Float} (hx : AtMost x n) : AtMost (b.capped x) n := by
  unfold capped
  split
  · exact hx
  · exact hx.of_not_lt ‹_› (toFloat_ne_notANumber _)

theorem tokens_refill_of_le (h : now ≤ b.lastRefill) :
    (b.refill now).tokens = b.capped (b.tokens + 0.0) := by
  have hcredit : b.credit now = 0 := Nat.sub_eq_zero_of_le h
  have hlength : 0 < (UInt64.ofNat b.policy.length).toNat := by
    rw [b.policy.toNat_length]
    exact b.policy.length_pos
  have hnothing : (UInt64.ofNat 0).toFloat * b.policy.permits.toFloat /
      (UInt64.ofNat b.policy.length).toFloat = 0.0 := zero_mul_div hlength
  simp only [refill, hcredit, hnothing]
  rfl

theorem tryAcquire_of_atMost (hn : n ≤ 2 ^ 53 + 2) (h : AtMost (b.refill now).tokens n) :
    ∃ k, (b.tryAcquire now).1.toNat + k = n ∧ AtMost (b.tryAcquire now).2.tokens k := by
  simp only [tryAcquire]
  split
  · have hsub := h.sub_one hn ‹_›
    exact ⟨n - 1, Nat.add_sub_cancel' hsub.1, hsub.2⟩
  · exact ⟨n, Nat.zero_add n, h⟩

theorem lastRefill_tryAcquire : (b.tryAcquire now).2.lastRefill = max b.lastRefill now := by
  simp only [tryAcquire]
  split <;> rfl

end TokenBucket

/-! ### Windows -/

namespace FixedWindow

def left (w : FixedWindow) : Nat := w.policy.permits.toNat - w.used

variable {w : FixedWindow} {now : Nat}

@[simp] theorem policy_moveTo : (w.moveTo now).policy = w.policy := by
  simp only [moveTo]
  split <;> rfl

@[simp] theorem policy_tryAcquire : (w.tryAcquire now).2.policy = w.policy := by
  simp only [tryAcquire]
  split <;> exact policy_moveTo

@[simp] theorem start_tryAcquire : (w.tryAcquire now).2.start = (w.moveTo now).start := by
  simp only [tryAcquire]
  split <;> rfl

theorem moveTo_of_lt (h : now < w.start + w.policy.length) : w.moveTo now = w := by
  have hlength := w.policy.length_pos
  unfold moveTo
  exact if_neg (by omega)

theorem lt_moveTo : now < (w.moveTo now).start + w.policy.length := by
  have hlt := Nat.mod_lt (now - w.start) w.policy.length_pos
  simp only [moveTo]
  split
  · simp only
    omega
  · omega

theorem left_moveTo_le : (w.moveTo now).left ≤ w.policy.permits.toNat := by
  unfold left
  rw [policy_moveTo]
  exact Nat.sub_le ..

theorem moveTo_of_le (h : w.start + w.policy.length ≤ now) :
    (w.moveTo now).left = w.policy.permits.toNat ∧
      w.start + w.policy.length ≤ (w.moveTo now).start := by
  have hle : w.policy.length ≤ now - w.start := by omega
  have hmod : (now - w.start) % w.policy.length ≤ now - w.start - w.policy.length := by
    rw [Nat.mod_eq_sub_mod hle]
    exact Nat.mod_le ..
  simp only [moveTo, if_pos hle, left]
  omega

theorem start_le_moveTo : w.start ≤ (w.moveTo now).start := by
  rcases Nat.lt_or_ge now (w.start + w.policy.length) with hsame | hover
  · rw [moveTo_of_lt hsame]
  · exact Nat.le_trans (Nat.le_add_right ..) (moveTo_of_le hover).2

theorem left_tryAcquire (w : FixedWindow) (now : Nat) :
    (w.tryAcquire now).1.toNat + (w.tryAcquire now).2.left = (w.moveTo now).left := by
  simp only [tryAcquire, left]
  split
  · simp only [Bool.toNat_true]
    omega
  · simp

end FixedWindow

/-! ### Limiters -/

namespace Limiter

def Counts (strategy : LimiterStrategy) (policy : RateLimitPolicy) : Prop :=
  strategy = .tokenBucket → policy.permits.toNat ≤ 2 ^ 53 + 2

def strategy : Limiter → LimiterStrategy
  | .tokenBucket _ => .tokenBucket
  | .fixedWindow _ => .fixedWindow

def Holds (l : Limiter) (now n : Nat) : Prop :=
  match l with
  | .tokenBucket b => now ≤ b.lastRefill ∧ n ≤ 2 ^ 53 + 2 ∧ Binary64.AtMost b.tokens n
  | .fixedWindow w => now < w.start + w.policy.length ∧ w.left ≤ n

variable {l : Limiter} {now n : Nat}

@[simp] theorem strategy_create (s : LimiterStrategy) (policy : RateLimitPolicy) (now : Nat) :
    (s.create policy now).strategy = s := by
  cases s <;> rfl

@[simp] theorem policy_create (s : LimiterStrategy) (policy : RateLimitPolicy) (now : Nat) :
    (s.create policy now).policy = policy := by
  cases s <;> rfl

@[simp] theorem strategy_tryAcquire : (l.tryAcquire now).2.strategy = l.strategy := by
  cases l <;> rfl

theorem tryAcquire_tokenBucket (b : TokenBucket) : (Limiter.tokenBucket b).tryAcquire now =
    ((b.tryAcquire now).1, .tokenBucket (b.tryAcquire now).2) := rfl

theorem tryAcquire_fixedWindow (w : FixedWindow) : (Limiter.fixedWindow w).tryAcquire now =
    ((w.tryAcquire now).1, .fixedWindow (w.tryAcquire now).2) := rfl

theorem exists_holds_tokenBucket {b : TokenBucket} (hn : n ≤ 2 ^ 53 + 2)
    (h : Binary64.AtMost (b.refill now).tokens n) :
    ∃ k, ((Limiter.tokenBucket b).tryAcquire now).1.toNat + k ≤ n ∧
      ((Limiter.tokenBucket b).tryAcquire now).2.Holds now k := by
  obtain ⟨k, hk, hatMost⟩ := TokenBucket.tryAcquire_of_atMost hn h
  rw [tryAcquire_tokenBucket]
  refine ⟨k, Nat.le_of_eq hk, ?_, by omega, hatMost⟩
  rw [TokenBucket.lastRefill_tryAcquire]
  exact Nat.le_max_right ..

theorem exists_holds_fixedWindow {w : FixedWindow} (h : (w.moveTo now).left ≤ n) :
    ∃ k, ((Limiter.fixedWindow w).tryAcquire now).1.toNat + k ≤ n ∧
      ((Limiter.fixedWindow w).tryAcquire now).2.Holds now k := by
  have hleft := w.left_tryAcquire now
  rw [tryAcquire_fixedWindow]
  refine ⟨(w.tryAcquire now).2.left, Nat.le_trans (Nat.le_of_eq hleft) h, ?_, Nat.le_refl _⟩
  rw [FixedWindow.start_tryAcquire, FixedWindow.policy_tryAcquire]
  exact FixedWindow.lt_moveTo

theorem exists_holds_tryAcquire (h : Counts l.strategy l.policy) :
    ∃ k, (l.tryAcquire now).1.toNat + k ≤ l.policy.permits.toNat ∧
      (l.tryAcquire now).2.Holds now k := by
  cases l with
  | tokenBucket b => exact exists_holds_tokenBucket (h rfl) (TokenBucket.atMost_capped (h rfl))
  | fixedWindow w => exact exists_holds_fixedWindow FixedWindow.left_moveTo_le

theorem Holds.tryAcquire (h : l.Holds now n) :
    ∃ k, (l.tryAcquire now).1.toNat + k ≤ n ∧ (l.tryAcquire now).2.Holds now k := by
  cases l with
  | tokenBucket b =>
    obtain ⟨hle, hn, hatMost⟩ := h
    apply exists_holds_tokenBucket hn
    rw [TokenBucket.tokens_refill_of_le hle]
    exact TokenBucket.atMost_capped_of_atMost hatMost.add_zero
  | fixedWindow w =>
    obtain ⟨hlt, hleft⟩ := h
    apply exists_holds_fixedWindow
    rwa [FixedWindow.moveTo_of_lt hlt]

end Limiter

end Turnpike
