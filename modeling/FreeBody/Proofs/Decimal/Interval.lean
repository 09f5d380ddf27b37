import FreeBody.Decimal.Shortest
import Mathlib.Algebra.Order.Field.Power
import Mathlib.Algebra.Order.Field.Rat
import Mathlib.Tactic.FieldSimp
import Mathlib.Tactic.Linarith
import Mathlib.Tactic.NormNum
import Mathlib.Tactic.Positivity
import Mathlib.Tactic.Ring

/-!
# The interval around a double

A positive double is a mantissa of at most 53 bits times a power of two, with all 53 bits in use
above the least exponent (`IsDouble`).  The interval around it, which the search for a shortest
decimal tests with natural numbers, is one of rational numbers:

    i.holds power c ↔ i.Contains (c * 10 ^ power)                      (holds_iff_contains)
-/

namespace FreeBody.Decimal

/-! ## Powers with whole exponents -/

theorem zpow_mul_toNat {x : ℚ} (hx : x ≠ 0) (n : ℤ) :
    x ^ n * x ^ (-n).toNat = x ^ n.toNat := by
  rw [← zpow_natCast x (-n).toNat, ← zpow_natCast x n.toNat, ← zpow_add₀ hx]
  congr 1
  omega

theorem zpow_add_toNat {x : ℚ} (hx : x ≠ 0) {m n : ℤ} (h : m ≤ n) :
    x ^ n = x ^ m * x ^ (n - m).toNat := by
  rw [← zpow_natCast x (n - m).toNat, ← zpow_add₀ hx]
  congr 1
  omega

theorem two_zpow_eq (n : ℤ) (k : Nat) : (2 : ℚ) ^ n = 2 ^ (n - k) * 2 ^ k := by
  rw [← zpow_natCast, ← zpow_add₀ (by norm_num), sub_add_cancel]

theorem two_zpow_pos (n : ℤ) : (0 : ℚ) < 2 ^ n := by positivity

theorem ten_zpow_pos (n : ℤ) : (0 : ℚ) < 10 ^ n := by positivity

/-- A decimal digit has less than `10 / 3` and more than `23 / 7` bits. -/
theorem ten_zpow_le_two_zpow {p q : ℤ} (h₁ : 10 * p ≤ 3 * q) (h₂ : 23 * p ≤ 7 * q) :
    (10 : ℚ) ^ p ≤ 2 ^ q := by
  obtain ⟨k, rfl | rfl⟩ := Int.eq_nat_or_neg p
  · refine le_of_pow_le_pow_left₀ (by norm_num : 3 ≠ 0) (two_zpow_pos q).le ?_
    calc ((10 : ℚ) ^ (k : ℤ)) ^ 3 = (10 ^ 3) ^ k := by rw [zpow_natCast, ← pow_mul, pow_mul']
      _ ≤ (2 ^ 10) ^ k := pow_le_pow_left₀ (by norm_num) (by norm_num) k
      _ = 2 ^ (10 * (k : ℤ)) := by rw [← pow_mul, ← zpow_natCast]; norm_num
      _ ≤ 2 ^ (q * 3) := zpow_le_zpow_right₀ (by norm_num) (by omega)
      _ = (2 ^ q) ^ 3 := by rw [zpow_mul]; norm_cast
  · refine le_of_pow_le_pow_left₀ (by norm_num : 7 ≠ 0) (two_zpow_pos q).le ?_
    calc ((10 : ℚ) ^ (-(k : ℤ))) ^ 7 = ((10 ^ 7) ^ k)⁻¹ := by
          rw [zpow_neg, zpow_natCast, inv_pow, ← pow_mul, pow_mul']
      _ ≤ ((2 ^ 23) ^ k)⁻¹ :=
          inv_anti₀ (by positivity) (pow_le_pow_left₀ (by norm_num) (by norm_num) k)
      _ = 2 ^ (-(23 * (k : ℤ))) := by rw [← pow_mul, ← zpow_natCast, ← zpow_neg]; norm_num
      _ ≤ 2 ^ (q * 7) := zpow_le_zpow_right₀ (by norm_num) (by omega)
      _ = (2 ^ q) ^ 7 := by rw [zpow_mul]; norm_cast

theorem two_zpow_le_ten_zpow {p q : ℤ} (h₁ : 3 * q ≤ 10 * p) (h₂ : 7 * q ≤ 23 * p) :
    (2 : ℚ) ^ q ≤ 10 ^ p := by
  have h : (10 : ℚ) ^ (-p) ≤ 2 ^ (-q) := ten_zpow_le_two_zpow (by omega) (by omega)
  rw [zpow_neg, zpow_neg] at h
  exact (inv_le_inv₀ (ten_zpow_pos p) (two_zpow_pos q)).1 h

/-! ## Doubles -/

/-- What the mantissa and the exponent of a positive double satisfy. -/
structure IsDouble (mantissa : Nat) (exponent : ℤ) : Prop where
  pos : 0 < mantissa
  lt : mantissa < 2 ^ 53
  ge : -1074 ≤ exponent
  le : exponent ≤ 971
  normal : 2 ^ 52 ≤ mantissa ∨ exponent = -1074

/-! ## Intervals -/

/-- Whether a number lies in an interval. -/
def Interval.Contains (i : Interval) (v : ℚ) : Prop :=
  if i.closed then (i.low : ℚ) * 2 ^ i.exponent ≤ v ∧ v ≤ i.high * 2 ^ i.exponent
  else (i.low : ℚ) * 2 ^ i.exponent < v ∧ v < i.high * 2 ^ i.exponent

/-- Multiplying by the weights turns a comparison of numbers into one of naturals. -/
theorem weights_eq (power exponent : ℤ) :
    (10 : ℚ) ^ power * (weights power exponent).2 = (weights power exponent).1 * 2 ^ exponent := by
  have h10 := zpow_mul_toNat (by norm_num : (10 : ℚ) ≠ 0) power
  have h2 := zpow_mul_toNat (by norm_num : (2 : ℚ) ≠ 0) exponent
  unfold weights
  simp only [Nat.pow_eq, Nat.cast_mul, Nat.cast_pow, Nat.cast_ofNat]
  rw [← h10, ← h2]
  ring

theorem weights_pos (power exponent : ℤ) :
    0 < (weights power exponent).1 ∧ 0 < (weights power exponent).2 := by
  unfold weights
  simp only [Nat.pow_eq]
  constructor <;> positivity

/-- Both sides in units in which they are natural. -/
theorem weights_cast (power exponent : ℤ) (a c : Nat) :
    ∃ unit : ℚ, 0 < unit ∧
      (a * (weights power exponent).2 : Nat) * unit = (a : ℚ) * 2 ^ exponent ∧
      (c * (weights power exponent).1 : Nat) * unit = (c : ℚ) * 10 ^ power := by
  have he := weights_eq power exponent
  have hq : (0 : ℚ) < (weights power exponent).2 := by
    exact_mod_cast (weights_pos power exponent).2
  refine ⟨2 ^ exponent / (weights power exponent).2, by positivity, ?_, ?_⟩
  · push_cast
    field_simp
  · push_cast
    field_simp
    rw [mul_assoc, ← he]
    ring

theorem weights_le_iff (power exponent : ℤ) (a c : Nat) :
    (a * (weights power exponent).2 ≤ c * (weights power exponent).1 ↔
        (a : ℚ) * 2 ^ exponent ≤ c * 10 ^ power) ∧
      (c * (weights power exponent).1 ≤ a * (weights power exponent).2 ↔
        (c : ℚ) * 10 ^ power ≤ a * 2 ^ exponent) := by
  obtain ⟨unit, hu, ha, hc⟩ := weights_cast power exponent a c
  rw [← ha, ← hc, mul_le_mul_iff_left₀ hu, mul_le_mul_iff_left₀ hu, Nat.cast_le, Nat.cast_le]
  exact ⟨Iff.rfl, Iff.rfl⟩

/-- The test of the search, on rational numbers. -/
theorem holds_iff_contains (i : Interval) (power : ℤ) (c : Nat) :
    i.holds power c = true ↔ i.Contains (c * 10 ^ power) := by
  obtain ⟨hlow, hlow'⟩ := weights_le_iff power i.exponent i.low c
  obtain ⟨hhigh', hhigh⟩ := weights_le_iff power i.exponent i.high c
  unfold Interval.holds Interval.Contains
  by_cases hc : i.closed = true
  · rw [if_pos hc]
    simp only [hc, if_true, Bool.and_eq_true, decide_eq_true_eq]
    rw [hlow, hhigh]
  · rw [if_neg hc]
    simp only [hc, if_false, Bool.and_eq_true, decide_eq_true_eq, Bool.false_eq_true]
    rw [← not_le, ← not_le, hlow', hhigh', not_le, not_le]

section

variable {mantissa : Nat} {exponent : ℤ} {v : ℚ}

theorem around_low (exponent : ℤ) (hm : 0 < mantissa) :
    (4 * mantissa : ℚ) - 2 ≤ (Interval.around mantissa exponent).low ∧
      ((Interval.around mantissa exponent).low : ℚ) ≤ 4 * mantissa - 1 := by
  have h : 4 * mantissa ≤ (Interval.around mantissa exponent).low + 2 ∧
      (Interval.around mantissa exponent).low + 1 ≤ 4 * mantissa := by
    unfold Interval.around
    simp only
    split_ifs <;> omega
  have h1 : (4 * mantissa : ℚ) ≤ (Interval.around mantissa exponent).low + 2 := by
    exact_mod_cast h.1
  have h2 : ((Interval.around mantissa exponent).low : ℚ) + 1 ≤ 4 * mantissa := by
    exact_mod_cast h.2
  constructor <;> linarith

theorem around_high : ((Interval.around mantissa exponent).high : ℚ) = 4 * mantissa + 2 := by
  unfold Interval.around
  push_cast
  ring

theorem around_exponent : (Interval.around mantissa exponent).exponent = exponent - 2 := rfl

theorem around_closed :
    (Interval.around mantissa exponent).closed = true ↔ mantissa % 2 = 0 := beq_iff_eq

/-- A double lies in the interval around it. -/
theorem contains_self (hm : 0 < mantissa) :
    (Interval.around mantissa exponent).Contains (mantissa * 2 ^ exponent) := by
  have h4 : (2 : ℚ) ^ exponent = 2 ^ (exponent - 2) * 2 ^ 2 := two_zpow_eq exponent 2
  have hpos := two_zpow_pos (exponent - 2)
  have hlow := (around_low exponent hm).2
  unfold Interval.Contains
  rw [around_high, around_exponent, h4]
  split_ifs
  · constructor <;> nlinarith
  · constructor <;> nlinarith

/-- What lies in the interval is at most half a step away, and exactly half only from an even
mantissa. -/
theorem Contains.half (hm : 0 < mantissa) (h : (Interval.around mantissa exponent).Contains v) :
    ((2 * mantissa : ℚ) - 1) * 2 ^ exponent ≤ 2 * v ∧
      2 * v ≤ ((2 * mantissa : ℚ) + 1) * 2 ^ exponent ∧
      (mantissa % 2 = 0 ∨ ((2 * mantissa : ℚ) - 1) * 2 ^ exponent < 2 * v ∧
        2 * v < ((2 * mantissa : ℚ) + 1) * 2 ^ exponent) := by
  have h4 : (2 : ℚ) ^ exponent = 2 ^ (exponent - 2) * 2 ^ 2 := two_zpow_eq exponent 2
  have hpos := two_zpow_pos (exponent - 2)
  have hlow := mul_le_mul_of_nonneg_right (around_low exponent hm).1 hpos.le
  unfold Interval.Contains at h
  rw [around_high, around_exponent] at h
  rw [h4]
  by_cases hc : (Interval.around mantissa exponent).closed = true
  · rw [if_pos hc] at h
    refine ⟨by nlinarith, by nlinarith, Or.inl (around_closed.1 hc)⟩
  · rw [if_neg hc] at h
    refine ⟨by nlinarith, by nlinarith, Or.inr ⟨by nlinarith, by nlinarith⟩⟩

/-- Below a power of two the interval is half as wide. -/
theorem Contains.quarter (he : -1074 < exponent)
    (h : (Interval.around (2 ^ 52) exponent).Contains v) :
    ((2 ^ 54 : ℚ) - 1) * 2 ^ (exponent - 2) ≤ v := by
  have hlow : ((Interval.around (2 ^ 52) exponent).low : ℚ) = 2 ^ 54 - 1 := by
    unfold Interval.around
    simp only [Nat.pow_eq, beq_self_eq_true, he, decide_true, Bool.and_self, if_true]
    norm_num
  unfold Interval.Contains at h
  rw [hlow] at h
  split_ifs at h
  · exact h.1
  · exact h.1.le

/-- No double is farther from one than these powers of two. -/
theorem Contains.bounds (hd : IsDouble mantissa exponent)
    (h : (Interval.around mantissa exponent).Contains v) :
    (2 : ℚ) ^ (-1076 : ℤ) < v ∧ v < 2 ^ (1025 : ℤ) := by
  obtain ⟨hlow, hhigh, -⟩ := Contains.half hd.pos h
  have h1 : (1 : ℚ) ≤ mantissa := by exact_mod_cast hd.pos
  have h2 : (mantissa : ℚ) + 1 ≤ 2 ^ 53 := by exact_mod_cast hd.lt
  have hge : (2 : ℚ) ^ (-1074 : ℤ) ≤ 2 ^ exponent := zpow_le_zpow_right₀ (by norm_num) hd.ge
  have hle : (2 : ℚ) ^ exponent ≤ 2 ^ (971 : ℤ) := zpow_le_zpow_right₀ (by norm_num) hd.le
  have hpos := two_zpow_pos exponent
  have e1 : (2 : ℚ) ^ (-1074 : ℤ) = 2 ^ (-1076 : ℤ) * 2 ^ 2 := two_zpow_eq (-1074) 2
  have e2 : (2 : ℚ) ^ (1025 : ℤ) = 2 ^ (971 : ℤ) * 2 ^ 54 := two_zpow_eq 1025 54
  have h3 := two_zpow_pos (-1076)
  generalize (2 : ℚ) ^ (-1076 : ℤ) = x at *
  generalize (2 : ℚ) ^ (971 : ℤ) = y at *
  have hsmall := mul_le_mul_of_nonneg_right (by linarith : (1 : ℚ) ≤ 2 * mantissa - 1) hpos.le
  have hlarge := mul_le_mul_of_nonneg_right (by linarith : (2 * mantissa : ℚ) + 1 ≤ 2 ^ 54)
    hpos.le
  rw [e2]
  generalize (2 : ℚ) ^ exponent = z at *
  constructor
  · linarith only [hlow, hsmall, hge, e1, h3]
  · linarith only [hhigh, hlarge, hle, hpos]

end

end FreeBody.Decimal
