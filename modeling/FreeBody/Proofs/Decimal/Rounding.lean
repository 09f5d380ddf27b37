import FreeBody.Proofs.Decimal.Packing
import Mathlib.Data.Nat.Cast.Order.Field

/-!
# Rounding a quotient to a double

The logical model of doubles rounds by shifting a mantissa with two residual bits.  For a mantissa
that is the whole part of a quotient `a / b`, every shift is again such a mantissa, with the
denominator doubled (`shiftRight_quotient`), and rounding it is `divHalfEven`
(`roundedMantissa_quotient`).

Hence the model rounds every number of the interval around a double to that double
(`roundWithAccuracy_eq_finite`).  `Rounds` says that a number was rounded once, whatever quotient
it was.
-/

open Float.Model Float.Model.UnpackedFloat

namespace FreeBody.Decimal

/-! ## Shifting a quotient -/

/-- The whole part of `a / b` with what the residual bits say of the rest. -/
def quotient (a b : Nat) : ExtendedMantissa :=
  .ofMantissaAndAccuracy (a / b) (accuracyOfFraction (a % b) b)

/-- The residual bits of a quotient: whether the rest reaches a half, and whether it is more than
nothing or more than a half. -/
theorem quotient_eq (a : Nat) {b : Nat} (hb : 0 < b) :
    quotient a b =
      ⟨a / b, decide (b ≤ 2 * (a % b)), decide (a % b ≠ 0 ∧ 2 * (a % b) ≠ b)⟩ := by
  have hlt := Nat.mod_lt a hb
  unfold quotient accuracyOfFraction
  by_cases h0 : a % b = 0
  · rw [if_pos h0, h0]
    simp [ExtendedMantissa.ofMantissaAndAccuracy, Nat.ne_of_gt hb]
  · rw [if_neg h0]
    rcases Nat.lt_trichotomy (2 * (a % b)) b with h | h | h
    · rw [Nat.compare_eq_lt.2 h]
      simp [ExtendedMantissa.ofMantissaAndAccuracy, h0, Nat.not_le_of_lt h, Nat.ne_of_lt h]
    · rw [Nat.compare_eq_eq.2 h]
      simp [ExtendedMantissa.ofMantissaAndAccuracy, h]
    · rw [Nat.compare_eq_gt.2 h]
      simp [ExtendedMantissa.ofMantissaAndAccuracy, h0, Nat.le_of_lt h, Nat.ne_of_gt h]

theorem shiftRightOne_quotient (a : Nat) {b : Nat} (hb : 0 < b) :
    (quotient a b).shiftRightOne = quotient a (b * 2) := by
  have hdiv : a / b / 2 = a / (b * 2) := Nat.div_div_eq_div_mul a b 2
  have hmod : a % (b * 2) = a % b + b * (a / b % 2) := Nat.mod_mul
  have hlt := Nat.mod_lt a hb
  rw [quotient_eq a hb, quotient_eq a (by omega), ExtendedMantissa.shiftRightOne]
  simp only [ExtendedMantissa.mk.injEq]
  refine ⟨hdiv, ?_, ?_⟩
  · have he : (a / b % 2 != 0) = decide (a / b % 2 = 1) := by
      rcases Nat.mod_two_eq_zero_or_one (a / b) with h | h <;> rw [h] <;> rfl
    rw [he, decide_eq_decide, hmod]
    rcases Nat.mod_two_eq_zero_or_one (a / b) with h | h <;> rw [h] <;> omega
  · rw [← Bool.decide_or, decide_eq_decide, hmod]
    rcases Nat.mod_two_eq_zero_or_one (a / b) with h | h <;> rw [h] <;> omega

theorem shiftRight_quotient (a : Nat) {b : Nat} (hb : 0 < b) (k : Nat) :
    quotient a b >>> k = quotient a (b * 2 ^ k) := by
  show k.repeat ExtendedMantissa.shiftRightOne (quotient a b) = _
  induction k with
  | zero => rw [Nat.repeat, Nat.pow_zero, Nat.mul_one]
  | succ k ih =>
    have hk : 0 < b * 2 ^ k := Nat.mul_pos hb (Nat.two_pow_pos k)
    rw [Nat.repeat, ih, shiftRightOne_quotient a hk, Nat.pow_succ, Nat.mul_assoc]

theorem roundedMantissa_quotient (a : Nat) {b : Nat} (hb : 0 < b) :
    (quotient a b).roundedMantissa = divHalfEven a b := by
  have hlt := Nat.mod_lt a hb
  unfold divHalfEven quotient accuracyOfFraction
  simp only
  by_cases h0 : a % b = 0
  · rw [if_pos h0, h0, if_pos (by omega)]
    rfl
  · rw [if_neg h0]
    rcases Nat.lt_trichotomy (2 * (a % b)) b with h | h | h
    · rw [Nat.compare_eq_lt.2 h, if_pos h]
      rfl
    · rw [Nat.compare_eq_eq.2 h, if_neg (by omega), if_neg (by omega)]
      rfl
    · rw [Nat.compare_eq_gt.2 h, if_neg (by omega), if_pos h]
      rfl

/-- A quotient at most a half away from `n`, or a half if `n` is even, rounds to `n`. -/
theorem divHalfEven_eq {a b n : Nat} (hb : 0 < b) (hlow : 2 * n * b ≤ 2 * a + b)
    (hhigh : 2 * a ≤ 2 * n * b + b)
    (htie : 2 * n * b = 2 * a + b ∨ 2 * a = 2 * n * b + b → n % 2 = 0) :
    divHalfEven a b = n := by
  have hsplit := Nat.div_add_mod a b
  have hlt := Nat.mod_lt a hb
  unfold divHalfEven
  simp only
  generalize a / b = q at *
  generalize a % b = m at *
  -- the whole part is `n` or the number before it
  have hq : q = n ∨ q + 1 = n := by
    rcases Nat.lt_trichotomy q n with h | h | h
    · right
      by_contra hne
      have : b * (q + 2) ≤ b * n := Nat.mul_le_mul_left b (by omega)
      have e1 : b * (q + 2) = b * q + 2 * b := by ring
      have e2 : 2 * n * b = 2 * (b * n) := by ring
      omega
    · exact Or.inl h
    · exfalso
      have : b * (n + 1) ≤ b * q := Nat.mul_le_mul_left b (by omega)
      have e1 : b * (n + 1) = b * n + b := by ring
      have e2 : 2 * n * b = 2 * (b * n) := by ring
      omega
  have e2 : 2 * n * b = 2 * (b * n) := by ring
  rcases hq with rfl | rfl
  · split_ifs with h1 h2
    · rfl
    · omega
    · have := htie (Or.inr (by omega))
      omega
  · have e1 : b * (q + 1) = b * q + b := by ring
    split_ifs with h1 h2
    · omega
    · rfl
    · have := htie (Or.inl (by omega))
      omega

/-! ## Rounding into an interval -/

theorem targetExponent_binary64 (n : ℤ) :
    Format.binary64.targetExponent n = max (n - 53) (-1074) := rfl

theorem targetExponent_of_isDouble {mantissa : Nat} {exponent : ℤ}
    (h : IsDouble mantissa exponent) :
    Format.binary64.targetExponent (totalExponent mantissa exponent) = exponent := by
  have hlog : mantissa.log2 < 53 := (Nat.log2_lt (by have := h.pos; omega)).2 h.lt
  have hge := h.ge
  rw [targetExponent_binary64, totalExponent]
  rcases h.normal with hn | hn
  · have : 52 ≤ mantissa.log2 := (Nat.le_log2 (by have := h.pos; omega)).2 hn
    omega
  · omega

section

variable {a b : Nat} {e n : ℤ}

/-- The whole part of a quotient has as many bits as the quotient. -/
theorem le_log2_quotient (hb : 0 < b) (h : (2 : ℚ) ^ n ≤ a / b * 2 ^ e) :
    n ≤ (a / b).log2 + e := by
  by_cases hn : n ≤ e
  · omega
  · have hb' : (0 : ℚ) < b := by exact_mod_cast hb
    rw [zpow_add_toNat (by norm_num) (by omega : e ≤ n), mul_comm,
      mul_le_mul_iff_left₀ (two_zpow_pos e), le_div_iff₀ hb'] at h
    have hq : 2 ^ (n - e).toNat ≤ a / b := by
      rw [Nat.le_div_iff_mul_le hb]
      exact_mod_cast h
    have hpow := Nat.two_pow_pos (n - e).toNat
    have := (Nat.le_log2 (by omega)).2 hq
    omega

theorem log2_quotient_lt (hq : 0 < a / b) (h : (a / b : ℚ) * 2 ^ e < 2 ^ n) :
    (a / b).log2 + e < n := by
  by_contra hn
  have hself : ((2 ^ (a / b).log2 : Nat) : ℚ) ≤ (a / b : Nat) := by
    exact_mod_cast Nat.log2_self_le (by omega)
  have hdiv : ((a / b : Nat) : ℚ) ≤ a / b := Nat.cast_div_le
  have hle : (2 : ℚ) ^ n ≤ 2 ^ (((a / b).log2 : ℤ) + e) :=
    zpow_le_zpow_right₀ (by norm_num) (by omega)
  rw [zpow_add₀ (by norm_num), zpow_natCast] at hle
  push_cast at hself
  have := mul_le_mul_of_nonneg_right (hself.trans hdiv) (two_zpow_pos e).le
  linarith

theorem shiftToTargetExponent_quotient (hb : 0 < b)
    (hn : Format.binary64.targetExponent (totalExponent (a / b) e) = n) (he : e ≤ n) :
    shiftToTargetExponent .binary64 (a / b) e (accuracyOfFraction (a % b) b) =
      (quotient a (b * 2 ^ (n - e).toNat), n) := by
  have hsum : e + ((n - e).toNat : ℤ) = n := by omega
  show (quotient a b >>> (_ - e).toNat, e + ((_ - e).toNat : ℤ)) = _
  rw [hn, hsum, shiftRight_quotient a hb]

/-- The value of a mantissa with an exponent, which may be a zero. -/
def ofMantissa (sign : Sign) (m : Nat) (exponent : ℤ) : UnpackedFloat :=
  if h : m = 0 then .zero sign else .finite sign m exponent (Nat.pos_of_ne_zero h)

theorem ofMantissa_of_pos (sign : Sign) {m : Nat} (hpos : 0 < m) (exponent : ℤ) :
    ofMantissa sign m exponent = .finite sign m exponent hpos := dif_neg (Nat.ne_of_gt hpos)

/-- What rounds to `k · 2 ^ n` is `k` without the bits that are too many. -/
theorem roundWithAccuracy_eq (sign : Sign) (hb : 0 < b)
    (hn : Format.binary64.targetExponent (totalExponent (a / b) e) = n) (he : e ≤ n)
    {k : Nat} {exponent : ℤ} (hk : divHalfEven a (b * 2 ^ (n - e).toNat) = k)
    (hexp : Format.binary64.targetExponent (totalExponent k n) = exponent) (hle : n ≤ exponent) :
    roundWithAccuracy .binary64 sign (a / b) e (accuracyOfFraction (a % b) b) =
      ofMantissa sign (k / 2 ^ (exponent - n).toNat) exponent := by
  have hb' : 0 < b * 2 ^ (n - e).toNat := Nat.mul_pos hb (Nat.two_pow_pos _)
  have hfirst := shiftToTargetExponent_quotient hb hn he
  have hsecond : shiftToTargetExponent .binary64 k n .exact =
      (quotient k (2 ^ (exponent - n).toNat), exponent) := by
    have := shiftToTargetExponent_quotient (a := k) (b := 1) (e := n) (n := exponent)
      Nat.one_pos (by rwa [Nat.div_one]) hle
    rwa [Nat.div_one, Nat.mod_one, Nat.one_mul] at this
  have hm : (quotient k (2 ^ (exponent - n).toNat)).mantissa = k / 2 ^ (exponent - n).toNat := by
    rw [quotient_eq k (Nat.two_pow_pos _)]
  have hfinal : shiftToTargetExponent .binary64
      (shiftToTargetExponent .binary64 (a / b) e (accuracyOfFraction (a % b) b)).1.roundedMantissa
      (shiftToTargetExponent .binary64 (a / b) e (accuracyOfFraction (a % b) b)).2 .exact =
      (quotient k (2 ^ (exponent - n).toNat), exponent) := by
    rw [hfirst, ← hsecond, ← hk, ← roundedMantissa_quotient a hb']
  have hround (p : ExtendedMantissa × ℤ)
      (hp : p = (quotient k (2 ^ (exponent - n).toNat), exponent)) :
      ofMantissa sign p.1.mantissa p.2 =
        ofMantissa sign (k / 2 ^ (exponent - n).toNat) exponent := by
    rw [hp, hm]
  exact hround _ hfinal

/-- What rounds to `k · 2 ^ n` is that double, however many bits `k` has. -/
theorem roundWithAccuracy_of_divHalfEven (sign : Sign) (hb : 0 < b)
    (hn : Format.binary64.targetExponent (totalExponent (a / b) e) = n) (he : e ≤ n)
    {mantissa k : Nat} {exponent : ℤ} (hk : divHalfEven a (b * 2 ^ (n - e).toNat) = k)
    (hexp : Format.binary64.targetExponent (totalExponent k n) = exponent) (hle : n ≤ exponent)
    (hpos : 0 < mantissa) (hshift : k / 2 ^ (exponent - n).toNat = mantissa) :
    roundWithAccuracy .binary64 sign (a / b) e (accuracyOfFraction (a % b) b) =
      .finite sign mantissa exponent hpos := by
  rw [roundWithAccuracy_eq sign hb hn he hk hexp hle, hshift, ofMantissa_of_pos sign hpos]

/-- Comparing a quotient in steps of `2 ^ n` is comparing the shifted quotient. -/
theorem quotient_le_iff (hb : 0 < b) (he : e ≤ n) (x y : ℚ) :
    (x * 2 ^ n ≤ y * (a / b * 2 ^ e) ↔ x * (b * 2 ^ (n - e).toNat : Nat) ≤ y * a) ∧
      (y * (a / b * 2 ^ e) ≤ x * 2 ^ n ↔ y * a ≤ x * (b * 2 ^ (n - e).toNat : Nat)) := by
  have hb' : (0 : ℚ) < b := by exact_mod_cast hb
  have he' := two_zpow_pos e
  have hsplit := zpow_add_toNat (by norm_num : (2 : ℚ) ≠ 0) he
  generalize (n - e).toNat = s at hsplit ⊢
  push_cast
  -- all sides in units of `2 ^ e / b`
  have h1 : x * 2 ^ n = x * (b * 2 ^ s) * (2 ^ e / b) := by
    rw [hsplit]
    field_simp
  have h2 : y * (a / b * 2 ^ e) = y * a * (2 ^ e / b) := by
    field_simp
  have hu : (0 : ℚ) < 2 ^ e / b := by positivity
  rw [h1, h2, mul_le_mul_iff_left₀ hu, mul_le_mul_iff_left₀ hu]
  exact ⟨Iff.rfl, Iff.rfl⟩

/-- A quotient within half a step of `k` steps rounds to `k`. -/
theorem divHalfEven_of_near (hb : 0 < b) (he : e ≤ n) (k : Nat)
    (hlow : ((2 * k : ℚ) - 1) * 2 ^ n ≤ 2 * (a / b * 2 ^ e))
    (hhigh : 2 * (a / b * 2 ^ e) ≤ ((2 * k : ℚ) + 1) * 2 ^ n)
    (htie : k % 2 = 0 ∨ ((2 * k : ℚ) - 1) * 2 ^ n < 2 * (a / b * 2 ^ e) ∧
      2 * (a / b * 2 ^ e) < ((2 * k : ℚ) + 1) * 2 ^ n) :
    divHalfEven a (b * 2 ^ (n - e).toNat) = k := by
  have hscale := quotient_le_iff (a := a) hb he
  have hb' : 0 < b * 2 ^ (n - e).toNat := Nat.mul_pos hb (Nat.two_pow_pos _)
  rw [(hscale _ _).1] at hlow
  rw [(hscale _ _).2] at hhigh
  rw [← not_le, ← not_le, (hscale _ _).1, (hscale _ _).2, not_le, not_le] at htie
  generalize b * 2 ^ (n - e).toNat = d at *
  refine divHalfEven_eq hb' ?_ ?_ ?_
  · have : (2 * k * d : ℚ) ≤ 2 * a + d := by linarith
    exact_mod_cast this
  · have : (2 * a : ℚ) ≤ 2 * k * d + d := by linarith
    exact_mod_cast this
  · intro heq
    rcases htie with hk | ⟨h1, h2⟩
    · exact hk
    · rcases heq with heq | heq
      · have : (2 * k * d : ℚ) = 2 * a + d := by exact_mod_cast heq
        linarith
      · have : (2 * a : ℚ) = 2 * k * d + d := by exact_mod_cast heq
        linarith

end

/-! ## Quotients in the interval around a double -/

section

variable {mantissa : Nat} {exponent : ℤ} {a b : Nat} {e : ℤ}

theorem two_zpow_add (n : ℤ) (k : Nat) : (2 : ℚ) ^ (n + k) = 2 ^ n * 2 ^ k := by
  rw [zpow_add₀ (by norm_num), zpow_natCast]

theorem le_log2_of_bits (he : e ≤ -1074 ∨ 2 ^ 52 ≤ a / b) : e ≤ -1074 ∨ 52 ≤ (a / b).log2 := by
  rcases he with he | he
  · exact Or.inl he
  · exact Or.inr ((Nat.le_log2 (by omega)).2 he)

/-- The leading bit of the quotient is none above the double's. -/
theorem log2_quotient_of_contains (hd : IsDouble mantissa exponent)
    (he : e ≤ -1074 ∨ 2 ^ 52 ≤ a / b)
    (h : (Interval.around mantissa exponent).Contains (a / b * 2 ^ e)) :
    e ≤ -1074 ∧ (a / b).log2 = 0 ∨ (a / b).log2 + e < exponent + 53 := by
  have hhigh := (Contains.half hd.pos h).2.1
  have hlt : (a / b : ℚ) * 2 ^ e < 2 ^ (exponent + 53) := by
    have hpos := two_zpow_pos exponent
    have hmost : (mantissa : ℚ) + 1 ≤ 2 ^ 53 := by exact_mod_cast hd.lt
    have hbit := two_zpow_add exponent 53
    norm_num at hbit hmost ⊢
    nlinarith
  by_cases hq : 0 < a / b
  · exact Or.inr (log2_quotient_lt hq hlt)
  · rw [Nat.eq_zero_of_not_pos hq] at he ⊢
    exact Or.inl ⟨by omega, rfl⟩

theorem le_of_targetExponent {n : ℤ} (he : e ≤ -1074 ∨ 2 ^ 52 ≤ a / b)
    (hn : Format.binary64.targetExponent (totalExponent (a / b) e) = n) : e ≤ n := by
  have hlower := le_log2_of_bits he
  rw [targetExponent_binary64, totalExponent] at hn
  omega

/-- A quotient that is not below the double's leading bit has the double's exponent. -/
theorem targetExponent_of_le (hd : IsDouble mantissa exponent) (hb : 0 < b)
    (he : e ≤ -1074 ∨ 2 ^ 52 ≤ a / b)
    (h : (Interval.around mantissa exponent).Contains (a / b * 2 ^ e))
    (hsame : exponent = -1074 ∨ (2 : ℚ) ^ (exponent + 52) ≤ a / b * 2 ^ e) :
    Format.binary64.targetExponent (totalExponent (a / b) e) = exponent := by
  have hge := hd.ge
  have hupper := log2_quotient_of_contains hd he h
  have hlower := le_log2_of_bits he
  rw [targetExponent_binary64, totalExponent]
  rcases hsame with hs | hs
  · omega
  · have := le_log2_quotient hb hs
    omega

/-- Only a power of two has numbers below its leading bit in the interval around it. -/
theorem mantissa_of_lt (hd : IsDouble mantissa exponent)
    (h : (Interval.around mantissa exponent).Contains (a / b * 2 ^ e)) (hne : exponent ≠ -1074)
    (hbelow : (a / b : ℚ) * 2 ^ e < 2 ^ (exponent + 52)) : mantissa = 2 ^ 52 := by
  have hlow := (Contains.half hd.pos h).1
  by_contra hm
  have hnormal := hd.normal
  have hpos := two_zpow_pos exponent
  have hmore : (2 : ℚ) ^ 52 + 1 ≤ mantissa := by
    exact_mod_cast (by omega : 2 ^ 52 + 1 ≤ mantissa)
  have hbit := two_zpow_add exponent 52
  norm_num at hbit hbelow
  nlinarith

/-- Below a power of two, the exponent is one less. -/
theorem targetExponent_of_lt (hge : -1074 < exponent) (hb : 0 < b)
    (he : e ≤ -1074 ∨ 2 ^ 52 ≤ a / b)
    (h : (Interval.around (2 ^ 52) exponent).Contains (a / b * 2 ^ e))
    (hbelow : (a / b : ℚ) * 2 ^ e < 2 ^ (exponent + 52)) :
    Format.binary64.targetExponent (totalExponent (a / b) e) = exponent - 1 := by
  have hlower := le_log2_of_bits he
  have hlog51 : exponent + 51 ≤ (a / b).log2 + e := by
    refine le_log2_quotient hb ?_
    have hquarter := Contains.quarter hge h
    have hquart : (2 : ℚ) ^ exponent = 2 ^ (exponent - 2) * 2 ^ 2 := two_zpow_eq exponent 2
    have hstep := two_zpow_pos (exponent - 2)
    have hbit := two_zpow_add exponent 51
    norm_num at hbit hquarter ⊢
    nlinarith
  have hpos : 0 < a / b := by
    by_contra hq
    rw [Nat.eq_zero_of_not_pos hq, Nat.log2_zero] at hlog51
    omega
  have hlog52 := log2_quotient_lt hpos hbelow
  rw [targetExponent_binary64, totalExponent]
  omega

/-- The model rounds every number of the interval around a double to the double. -/
theorem roundWithAccuracy_eq_finite (hd : IsDouble mantissa exponent) (sign : Sign) (hb : 0 < b)
    (he : e ≤ -1074 ∨ 2 ^ 52 ≤ a / b)
    (h : (Interval.around mantissa exponent).Contains (a / b * 2 ^ e)) :
    roundWithAccuracy .binary64 sign (a / b) e (accuracyOfFraction (a % b) b) =
      .finite sign mantissa exponent hd.pos := by
  have hge := hd.ge
  by_cases hsame : exponent = -1074 ∨ (2 : ℚ) ^ (exponent + 52) ≤ a / b * 2 ^ e
  · -- the quotient has the exponent of the double
    have hn := targetExponent_of_le hd hb he h hsame
    have hexp := le_of_targetExponent he hn
    obtain ⟨hlow, hhigh, htie⟩ := Contains.half hd.pos h
    refine roundWithAccuracy_of_divHalfEven sign hb hn hexp
      (divHalfEven_of_near hb hexp mantissa hlow hhigh htie) (targetExponent_of_isDouble hd)
      le_rfl hd.pos ?_
    rw [sub_self, Int.toNat_zero, Nat.pow_zero, Nat.div_one]
  · -- it lies just below the power of two that the double is
    rw [not_or, not_le] at hsame
    obtain ⟨hne, hbelow⟩ := hsame
    obtain rfl := mantissa_of_lt hd h hne hbelow
    have hn := targetExponent_of_lt (by omega) hb he h hbelow
    have hexp := le_of_targetExponent he hn
    have hquarter := Contains.quarter (by omega) h
    have hhalf : (2 : ℚ) ^ exponent = 2 ^ (exponent - 1) * 2 ^ 1 := two_zpow_eq exponent 1
    have hquart : (2 : ℚ) ^ exponent = 2 ^ (exponent - 2) * 2 ^ 2 := two_zpow_eq exponent 2
    have hstep := two_zpow_pos (exponent - 2)
    refine roundWithAccuracy_of_divHalfEven (k := 2 ^ 53) sign hb hn hexp
      (divHalfEven_of_near hb hexp (2 ^ 53) ?_ ?_ (Or.inl (by decide))) ?_ (by omega) hd.pos ?_
    · norm_num at hquarter ⊢
      nlinarith
    · have hbit := two_zpow_add exponent 52
      norm_num at hbit hbelow ⊢
      nlinarith
    · rw [targetExponent_binary64, totalExponent, Nat.log2_two_pow]
      omega
    · rw [show exponent - (exponent - 1) = 1 by ring]
      decide

/-! ## Rounding once -/

/-- Whether `f` is a positive number `v`, or its negative, rounded once. -/
def Rounds (sign : Sign) (v : ℚ) (f : UnpackedFloat) : Prop :=
  ∃ (a b : Nat) (e : ℤ), 0 < b ∧ (e ≤ -1074 ∨ 2 ^ 52 ≤ a / b) ∧ (a / b : ℚ) * 2 ^ e = v ∧
    f = roundWithAccuracy .binary64 sign (a / b) e (accuracyOfFraction (a % b) b)

theorem Rounds.eq_finite {sign : Sign} {v : ℚ} {f : UnpackedFloat} (h : Rounds sign v f)
    (hd : IsDouble mantissa exponent) (hv : (Interval.around mantissa exponent).Contains v) :
    f = .finite sign mantissa exponent hd.pos := by
  obtain ⟨a, b, e, hb, he, rfl, rfl⟩ := h
  exact roundWithAccuracy_eq_finite hd sign hb he hv

/-- A natural times a power of two, with bits enough. -/
theorem rounds_exact (sign : Sign) {m : Nat} {e : ℤ} (h : e ≤ -1074 ∨ 2 ^ 52 ≤ m) :
    Rounds sign (m * 2 ^ e) (roundWithAccuracy .binary64 sign m e .exact) := by
  refine ⟨m, 1, e, Nat.one_pos, by rwa [Nat.div_one], by rw [Nat.cast_one, div_one], ?_⟩
  rw [Nat.div_one, Nat.mod_one]
  rfl

end

end FreeBody.Decimal
