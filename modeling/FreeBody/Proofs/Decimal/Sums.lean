import FreeBody.Drawing.Grid
import FreeBody.Proofs.Decimal.Nearest
import Mathlib.Algebra.Order.Archimedean.Basic

/-!
# Sums of equal steps

A step is added to itself again and again, each sum rounded.  Up to `2 ^ 53` times the step, rounded
up to a power of two, rounding never takes the whole step away and the next sum is more
(`sumAfter_lt_succ`), so a bound up to there is reached (`exists_not_sumAfter_lt`).  There the sums
get stuck, and a larger bound is never reached (`sumAfter_lt`).
-/

open Float.Model Float.Model.UnpackedFloat

namespace FreeBody

/-- The number that a double stands for; zero for what is no number. -/
def Binary.value : Binary → ℚ
  | finite negative mantissa exponent => (if negative then -1 else 1) * (mantissa * 2 ^ exponent)
  | _ => 0

/-- Whether a double is a number above zero. -/
def Binary.isPositive : Binary → Bool
  | finite negative mantissa _ => !negative && decide (0 < mantissa)
  | _ => false

theorem Binary.value_pos_iff {b : Binary} : 0 < b.value ↔ b.isPositive = true := by
  cases b with
  | nan => exact iff_of_false (lt_irrefl 0) Bool.false_ne_true
  | infinite negative => exact iff_of_false (lt_irrefl 0) Bool.false_ne_true
  | finite negative mantissa exponent =>
    have hpower : (0 : ℚ) < 2 ^ exponent := Decimal.two_zpow_pos exponent
    cases negative with
    | false => simp [value, isPositive, hpower]
    | true =>
      have hle : (0 : ℚ) ≤ mantissa * 2 ^ exponent := mul_nonneg mantissa.cast_nonneg hpower.le
      simpa [value, isPositive] using hle

namespace Decimal

/-! ## Positive doubles -/

/-- The number that a double stands for; zero for what is no number. -/
def number (x : Float) : ℚ := toRat x.toModel.unpack

/-- Whether a double is a number above zero. -/
def IsPositive (x : Float) : Prop :=
  ∃ (m : Nat) (e : ℤ) (hd : IsDouble m e), x.toModel.unpack = .finite .positive m e hd.pos

theorem number_eq_value {x : Float} (h : x.isFinite = true) :
    number x = (Binary.ofFloat x).value := by
  obtain ⟨negative, m, e, hx⟩ := isFinite_iff.1 h
  rw [hx, number, Binary.value]
  rcases Nat.eq_zero_or_pos m with rfl | hpos
  · rw [eq_pack_zero_of_ofFloat hx, Nat.cast_zero, zero_mul, mul_zero]
    cases negative <;> rfl
  · have hunpack : (Float.Model.pack (.finite (signOf negative) m e hpos)).unpack = _ :=
      unpack_pack_finite (isDouble_of_ofFloat hx hpos) _
    rw [eq_pack_of_ofFloat hx hpos]
    show toRat (Float.Model.unpack _) = _
    rw [hunpack, toRat_finite]
    cases negative with
    | false => exact (one_mul _).symm
    | true =>
      simp only [signOf, Float.Model.UnpackedFloat.Sign.apply, if_true]
      push_cast
      ring

section

variable {x y : Float}

theorem lt_iff_unpack :
    x < y ↔ UnpackedFloat.lt x.toModel.unpack y.toModel.unpack = true := decide_eq_true_iff

theorem isPositive_of_lt (hfinite : x.isFinite = true) (hpos : 0 < x) : IsPositive x := by
  have hzero : (0 : Float).toModel.unpack = .zero .positive := by rfl
  have hlt := lt_iff_unpack.1 hpos
  have hx := isFinite_unpack hfinite
  rw [hzero] at hlt
  unfold IsPositive
  generalize x.toModel.unpack = f at hlt hx
  cases hx with
  | zero sign => cases sign <;> cases hlt
  | finite sign hd =>
    cases sign with
    | negative => cases hlt
    | positive => exact ⟨_, _, hd, rfl⟩

theorem number_eq {m : Nat} {e : ℤ} {hpos : 0 < m}
    (h : x.toModel.unpack = .finite .positive m e hpos) : number x = m * 2 ^ e := by
  rw [number, h]
  rfl

theorem IsPositive.hasBits (h : IsPositive x) : HasBits (number x) := by
  obtain ⟨m, e, hd, hx⟩ := h
  exact ⟨m, e, hd.lt, hd.ge, number_eq hx⟩

theorem IsPositive.le_number (h : IsPositive x) : (2 : ℚ) ^ (-1074 : ℤ) ≤ number x := by
  obtain ⟨m, e, hd, hx⟩ := h
  have hm : (1 : ℚ) ≤ m := by exact_mod_cast hd.pos
  have he : (2 : ℚ) ^ (-1074 : ℤ) ≤ 2 ^ e := zpow_le_zpow_right₀ (by norm_num) hd.ge
  rw [number_eq hx]
  exact he.trans (le_mul_of_one_le_left (two_zpow_pos e).le hm)

theorem IsPositive.number_lt (h : IsPositive x) : number x < (2 : ℚ) ^ (1024 : ℤ) := by
  obtain ⟨m, e, hd, hx⟩ := h
  have hm : (m : ℚ) < 2 ^ 53 := by exact_mod_cast hd.lt
  have he : (2 : ℚ) ^ e ≤ 2 ^ (971 : ℤ) := zpow_le_zpow_right₀ (by norm_num) hd.le
  have hsplit : (2 : ℚ) ^ (1024 : ℤ) = 2 ^ (971 : ℤ) * 2 ^ 53 := two_zpow_eq 1024 53
  rw [number_eq hx, hsplit, mul_comm]
  exact mul_lt_mul' he hm m.cast_nonneg (two_zpow_pos 971)

/-- Doubles with different exponents differ by these. -/
theorem value_lt_of_exponent_lt {m₁ m₂ : Nat} {e₁ e₂ : ℤ} (h₁ : IsDouble m₁ e₁)
    (h₂ : IsDouble m₂ e₂) (he : e₁ < e₂) : (m₁ : ℚ) * 2 ^ e₁ < m₂ * 2 ^ e₂ := by
  have hge := h₁.ge
  have hm₁ : (m₁ : ℚ) < 2 ^ 53 := by exact_mod_cast h₁.lt
  have hm₂ : (2 : ℚ) ^ 52 ≤ m₂ := by exact_mod_cast h₂.normal.resolve_right (by omega)
  have hstep : (2 : ℚ) ^ (e₁ + 1) ≤ 2 ^ e₂ := zpow_le_zpow_right₀ (by norm_num) (by omega)
  rw [zpow_add₀ (by norm_num), zpow_one] at hstep
  calc (m₁ : ℚ) * 2 ^ e₁ < 2 ^ 53 * 2 ^ e₁ := mul_lt_mul_of_pos_right hm₁ (two_zpow_pos e₁)
    _ = 2 ^ 52 * (2 ^ e₁ * 2) := by ring
    _ ≤ m₂ * 2 ^ e₂ := mul_le_mul hm₂ hstep (by positivity) m₂.cast_nonneg

theorem IsPositive.lt_iff (hx : IsPositive x) (hy : IsPositive y) :
    x < y ↔ number x < number y := by
  obtain ⟨m₁, e₁, h₁, hx⟩ := hx
  obtain ⟨m₂, e₂, h₂, hy⟩ := hy
  have hlt : x < y ↔ (compare e₁ e₂).then (compare m₁ m₂) = .lt := by
    rw [lt_iff_unpack, hx, hy]
    show (some _ == some Ordering.lt) = true ↔ _
    rw [beq_iff_eq, Option.some.injEq]
  rw [hlt, number_eq hx, number_eq hy]
  rcases lt_trichotomy e₁ e₂ with he | rfl | he
  · rw [Int.compare_eq_lt.2 he]
    exact iff_of_true rfl (value_lt_of_exponent_lt h₁ h₂ he)
  · rw [Int.compare_eq_eq.2 rfl, Ordering.eq_then, Nat.compare_eq_lt,
      mul_lt_mul_iff_left₀ (two_zpow_pos e₁), Nat.cast_lt]
  · rw [Int.compare_eq_gt.2 he]
    exact iff_of_false nofun (value_lt_of_exponent_lt h₂ h₁ he).le.not_gt

/-- Infinity is below nothing. -/
theorem not_lt_of_infinity (hx : x.toModel.unpack = .infinity .positive) (y : Float) :
    ¬ x < y := by
  intro hlt
  have hlt := lt_iff_unpack.1 hlt
  rw [hx] at hlt
  generalize y.toModel.unpack = g at hlt
  cases g with
  | infinity sign => cases sign <;> cases hlt
  | _ => cases hlt

theorem IsPositive.lt_of_infinity (hx : IsPositive x)
    (hy : y.toModel.unpack = .infinity .positive) : x < y := by
  obtain ⟨m, e, hd, hx⟩ := hx
  rw [lt_iff_unpack, hx, hy]
  rfl

theorem IsPositive.not_le_zero (h : IsPositive x) : ¬ x ≤ 0 := by
  obtain ⟨m, e, hd, hx⟩ := h
  have hzero : (0 : Float).toModel.unpack = .zero .positive := by rfl
  have hle : x ≤ 0 ↔ UnpackedFloat.le x.toModel.unpack (0 : Float).toModel.unpack = true :=
    decide_eq_true_iff
  rw [hle, hx, hzero]
  exact Bool.false_ne_true

theorem IsPositive.number_pos (h : IsPositive x) : 0 < number x :=
  (two_zpow_pos _).trans_le h.le_number

/-! ## Rounded to a double -/

/-- The double above all numbers. -/
def infinity : Float := .ofModel (.pack (.infinity .positive))

/-- A value that is too large is packed as infinity. -/
theorem pack_of_large (sign : Sign) {m : Nat} {e : ℤ} (he : 971 < e) (hpos : 0 < m) :
    Float.Model.pack (.finite sign m e hpos) = .pack (.infinity sign) := by
  have hlarge : 2 ^ 11 ≤ (e + (Format.binary64.exponentBias : ℤ) + (52 : Nat)).toNat + 1 := by
    show 2 ^ 11 ≤ (e + 1023 + 52).toNat + 1
    omega
  have hpack : UnpackedFloat.pack .binary64 (.finite sign m e hpos) =
      UnpackedFloat.pack .binary64 (.infinity sign) := by
    unfold UnpackedFloat.pack
    dsimp only
    exact if_pos hlarge
  unfold Float.Model.pack
  rw [Float.Model.mk.injEq, hpack]

/-- What a positive number is rounded to is packed as a double, or as infinity if the number is too
large for one. -/
theorem Rounds.double {v : ℚ} {f : UnpackedFloat} (h : Rounds .positive v f) (hpos : 0 < toRat f) :
    v < overflow ∧ IsPositive (.ofModel (.pack f)) ∧ number (.ofModel (.pack f)) = toRat f ∨
      overflow ≤ v ∧ (2 : ℚ) ^ (1024 : ℤ) ≤ toRat f ∧ Float.ofModel (.pack f) = infinity := by
  obtain ⟨m, e, ⟨hmost, hmin, hnormal⟩, hrange, -, rfl⟩ := h.spec
  have hm : 0 < m := by
    refine Nat.pos_of_ne_zero ?_
    rintro rfl
    exact hpos.ne' rfl
  rw [toRat_ofMantissa, ofMantissa_of_pos .positive hm]
  rcases le_or_gt e 971 with hsmall | hlarge
  · have hd : IsDouble m e := ⟨hm, hmost, hmin, hsmall, hnormal⟩
    have hfinite : (Float.Model.pack (.finite .positive m e hm)).unpack =
        .finite .positive m e hm := unpack_pack_finite hd .positive
    exact Or.inl ⟨hrange.1 hsmall, ⟨m, e, hd, hfinite⟩, number_eq hfinite⟩
  · refine Or.inr ⟨not_lt.1 fun hlt => hlarge.not_ge (hrange.2 hlt), ?_, ?_⟩
    · have hbits : (2 : ℚ) ^ 52 ≤ m := by exact_mod_cast hnormal.resolve_right (by omega)
      have he : (2 : ℚ) ^ (972 : ℤ) ≤ 2 ^ e := zpow_le_zpow_right₀ (by norm_num) (by omega)
      have hsplit : (2 : ℚ) ^ (1024 : ℤ) = 2 ^ (972 : ℤ) * 2 ^ 52 := two_zpow_eq 1024 52
      rw [hsplit, mul_comm]
      exact mul_le_mul hbits he (two_zpow_pos 972).le m.cast_nonneg
    · rw [pack_of_large .positive hlarge hm]
      rfl

/-! ## Adding -/

/-- The sum of two doubles is the sum of their numbers, rounded once. -/
theorem rounds_add (hx : IsPositive x) (hy : IsPositive y) :
    Rounds .positive (number x + number y)
      (UnpackedFloat.add .binary64 x.toModel.unpack y.toModel.unpack) := by
  obtain ⟨m₁, e₁, h₁, hx⟩ := hx
  obtain ⟨m₂, e₂, h₂, hy⟩ := hy
  have hsum : 0 < m₁ <<< (e₁ - min e₁ e₂).toNat + m₂ <<< (e₂ - min e₁ e₂).toNat := by
    rw [Nat.shiftLeft_eq]
    exact Nat.add_pos_left (Nat.mul_pos h₁.pos (Nat.two_pow_pos _)) _
  have hvalue : number x + number y =
      (m₁ <<< (e₁ - min e₁ e₂).toNat + m₂ <<< (e₂ - min e₁ e₂).toNat : Nat) * 2 ^ min e₁ e₂ := by
    rw [number, number, hx, hy, ← toRat_shift .positive (min_le_left e₁ e₂) h₁.pos,
      ← toRat_shift .positive (min_le_right e₁ e₂) h₂.pos]
    simp only [Sign.apply, Int.cast_natCast, Nat.cast_add]
    ring
  have hadd : UnpackedFloat.add .binary64 x.toModel.unpack y.toModel.unpack =
      UnpackedFloat.round .binary64 .positive
        (m₁ <<< (e₁ - min e₁ e₂).toNat + m₂ <<< (e₂ - min e₁ e₂).toNat) (min e₁ e₂) := by
    rw [hx, hy]
    show UnpackedFloat.normalize .binary64 (_ + _) _ _ = _
    simp only [Sign.apply]
    unfold UnpackedFloat.normalize
    rw [← Nat.cast_add, Int.compare_eq_gt.2 (by exact_mod_cast hsum)]
    rfl
  rw [hadd, hvalue]
  exact rounds_round .positive hsum _

/-- The sum is a double again, or infinity if it is too large for one. -/
theorem IsPositive.add (hx : IsPositive x) (hy : IsPositive y) :
    ∃ f, Rounds .positive (number x + number y) f ∧
      (IsPositive (x + y) ∧ number (x + y) = toRat f ∨
        (2 : ℚ) ^ (1024 : ℤ) ≤ toRat f ∧ (x + y).toModel.unpack = .infinity .positive) := by
  have hrounds := rounds_add hx hy
  have hle := hrounds.le_toRat hx.hasBits (le_add_of_nonneg_right hy.number_pos.le)
  refine ⟨_, hrounds, (hrounds.double (hx.number_pos.trans_le hle)).imp And.right ?_⟩
  rintro ⟨-, hlarge, hinfinity⟩
  exact ⟨hlarge, congrArg (fun z => z.toModel.unpack) hinfinity⟩

end

/-! ## Adding again and again -/

section

variable {step bound : Float} {k : ℤ}

theorem IsPositive.le_exponent (h : IsPositive step) (hhigh : number step ≤ 2 ^ k) :
    -1074 ≤ k :=
  (zpow_le_zpow_iff_right₀ (by norm_num)).1 (h.le_number.trans hhigh)

/-- The sums grow steadily up to a bound that is small enough. -/
theorem lt_number_sumAfter (hstep : IsPositive step) (hbound : IsPositive bound)
    (hlow : (2 : ℚ) ^ (k - 1) < number step) (hhigh : number step ≤ 2 ^ k)
    (hle : number bound ≤ 2 ^ 53 * 2 ^ k) {n : Nat} (hbelow : ∀ i ≤ n, sumAfter step i < bound) :
    IsPositive (sumAfter step n) ∧
      (2 : ℚ) ^ (k - 1) + n * 2 ^ (k - 2) < number (sumAfter step n) := by
  induction n with
  | zero =>
    rw [Nat.cast_zero, zero_mul, add_zero]
    exact ⟨hstep, hlow⟩
  | succ n ih =>
    obtain ⟨hpositive, hsum⟩ := ih fun i hi => hbelow i (Nat.le_succ_of_le hi)
    have hless := (hpositive.lt_iff hbound).1 (hbelow n n.le_succ)
    obtain ⟨f, hrounds, ⟨hnext, hnumber⟩ | ⟨-, hinfinity⟩⟩ := hpositive.add hstep
    · have hgain := hrounds.add_le_toRat hpositive.hasBits (hless.trans_le hle)
        (hstep.le_exponent hhigh) hlow hhigh
      refine ⟨hnext, ?_⟩
      show _ < number (sumAfter step n + step)
      rw [hnumber]
      push_cast
      linarith
    · exact absurd (hbelow (n + 1) le_rfl) (not_lt_of_infinity hinfinity bound)

/-- The sums never pass `2 ^ 53` steps of a power of two that is not below the step. -/
theorem number_sumAfter_le (hstep : IsPositive step) (hhigh : number step ≤ 2 ^ k) (hk : k ≤ 970)
    (n : Nat) : IsPositive (sumAfter step n) ∧ number (sumAfter step n) ≤ 2 ^ 53 * 2 ^ k := by
  have hexponent := hstep.le_exponent hhigh
  induction n with
  | zero => exact ⟨hstep, hhigh.trans (le_mul_of_one_le_left (two_zpow_pos k).le (by norm_num))⟩
  | succ n ih =>
    obtain ⟨hpositive, hle⟩ := ih
    obtain ⟨f, hrounds, hcases⟩ := hpositive.add hstep
    have hstays := hrounds.toRat_add_le hle hexponent hk hhigh
    rcases hcases with ⟨hnext, hnumber⟩ | ⟨hlarge, -⟩
    · exact ⟨hnext, hnumber.trans_le hstays⟩
    · -- a sum that stays is not too large for a double
      have hsplit : (2 : ℚ) ^ (k + 53) = 2 ^ k * 2 ^ 53 := two_zpow_add k 53
      rw [mul_comm, ← hsplit] at hstays
      have hless : (2 : ℚ) ^ (k + 53) < 2 ^ (1024 : ℤ) :=
        zpow_lt_zpow_right₀ (by norm_num) (by omega)
      exact absurd (hlarge.trans hstays) hless.not_ge

end

/-- Every positive number lies between two powers of two. -/
theorem exists_zpow_lt_le {v : ℚ} (hv : 0 < v) : ∃ k : ℤ, (2 : ℚ) ^ (k - 1) < v ∧ v ≤ 2 ^ k := by
  obtain ⟨n, hlow, hhigh⟩ := exists_mem_Ioc_zpow hv (by norm_num : (1 : ℚ) < 2)
  exact ⟨n + 1, by rwa [add_sub_cancel_right], hhigh⟩

/-- Whether a bound is small enough for the sums of a step to reach it. -/
def Reachable (step bound : ℚ) : Prop := ∀ k : ℤ, step ≤ 2 ^ k → bound ≤ 2 ^ 53 * 2 ^ k

section

variable {step bound : Float} (hstep : IsPositive step) (hbound : IsPositive bound)

include hstep hbound

/-- The sums get stuck below a bound that is too large. -/
theorem sumAfter_lt (h : ¬ Reachable (number step) (number bound)) (n : Nat) :
    sumAfter step n < bound := by
  simp only [Reachable, not_forall, not_le] at h
  obtain ⟨k, hhigh, hmore⟩ := h
  have hk : k ≤ 970 := by
    have hsplit : (2 : ℚ) ^ (k + 53) = 2 ^ k * 2 ^ 53 := two_zpow_add k 53
    rw [mul_comm, ← hsplit] at hmore
    have := (zpow_lt_zpow_iff_right₀ (by norm_num)).1 (hmore.trans hbound.number_lt)
    omega
  obtain ⟨hpositive, hle⟩ := number_sumAfter_le hstep hhigh hk n
  exact (hpositive.lt_iff hbound).2 (hle.trans_lt hmore)

variable (h : Reachable (number step) (number bound))

include h

/-- Up to the bound every sum is more than the one before. -/
theorem sumAfter_lt_succ {n : Nat} (hbelow : ∀ i ≤ n, sumAfter step i < bound) :
    sumAfter step n < sumAfter step (n + 1) := by
  obtain ⟨k, hlow, hhigh⟩ := exists_zpow_lt_le hstep.number_pos
  obtain ⟨hpositive, -⟩ := lt_number_sumAfter hstep hbound hlow hhigh (h k hhigh) hbelow
  have hless := (hpositive.lt_iff hbound).1 (hbelow n le_rfl)
  obtain ⟨f, hrounds, ⟨hnext, hnumber⟩ | ⟨-, hinfinity⟩⟩ := hpositive.add hstep
  · have hgain := hrounds.add_le_toRat hpositive.hasBits (hless.trans_le (h k hhigh))
      (hstep.le_exponent hhigh) hlow hhigh
    have hpos := two_zpow_pos (k - 2)
    refine (hpositive.lt_iff hnext).2 ?_
    rw [hnumber]
    linarith
  · exact hpositive.lt_of_infinity hinfinity

/-- The sums reach a bound that is small enough. -/
theorem exists_not_sumAfter_lt : ∃ n < 2 ^ 55, ¬ sumAfter step n < bound := by
  by_contra hall
  push Not at hall
  obtain ⟨k, hlow, hhigh⟩ := exists_zpow_lt_le hstep.number_pos
  have hbelow : ∀ i ≤ 2 ^ 55 - 1, sumAfter step i < bound := fun i hi => hall i (by omega)
  obtain ⟨hpositive, hgrown⟩ := lt_number_sumAfter hstep hbound hlow hhigh (h k hhigh) hbelow
  have hless := (hpositive.lt_iff hbound).1 (hbelow _ le_rfl)
  have hle := h k hhigh
  have hquarter : (2 : ℚ) ^ k = 2 ^ (k - 2) * 2 ^ 2 := two_zpow_eq k 2
  have hhalf : (2 : ℚ) ^ k = 2 ^ (k - 1) * 2 ^ 1 := two_zpow_eq k 1
  have hcast : ((2 ^ 55 - 1 : Nat) : ℚ) = 2 ^ 55 - 1 := by norm_num
  have hpos := two_zpow_pos (k - 2)
  rw [hcast] at hgrown
  linarith

end

end Decimal

end FreeBody
