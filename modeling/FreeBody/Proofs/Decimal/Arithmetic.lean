import FreeBody.Proofs.Decimal.Overflow

/-!
# Sums and halves stay finite

A sum of doubles is finite unless the exact sum reaches `overflow` (`fits_add`, `fits_sub`), and so
is a quotient (`fits_div`).  No finite double comes nearer to that bound than `2 ^ 970`, so each may
be added to a natural of few digits or taken from it (`isFinite_ofNat_add`, `isFinite_ofNat_sub`),
and each may be halved (`isFinite_half`).
-/

open Float.Model Float.Model.UnpackedFloat

namespace FreeBody.Decimal

/-! ## Values -/

/-- The number that a finite value stands for. -/
def toRat : UnpackedFloat → ℚ
  | .finite sign mantissa exponent _ => (sign.apply mantissa : ℤ) * 2 ^ exponent
  | _ => 0

theorem toRat_finite (sign : Sign) {mantissa : Nat} (exponent : ℤ) (h : 0 < mantissa) :
    toRat (.finite sign mantissa exponent h) = (sign.apply mantissa : ℤ) * 2 ^ exponent := rfl

theorem toRat_ofMantissa (m : Nat) (e : ℤ) : toRat (ofMantissa .positive m e) = m * 2 ^ e := by
  rcases Nat.eq_zero_or_pos m with rfl | hpos
  · rw [Nat.cast_zero, zero_mul]
    rfl
  · rw [ofMantissa_of_pos .positive hpos]
    rfl

theorem abs_apply (sign : Sign) (n : ℤ) : |((sign.apply n : ℤ) : ℚ)| = |(n : ℚ)| := by
  cases sign
  · rw [Sign.apply, Int.cast_neg, abs_neg]
  · rfl

theorem abs_toRat_finite (sign : Sign) {mantissa : Nat} (exponent : ℤ) (h : 0 < mantissa) :
    |toRat (.finite sign mantissa exponent h)| = mantissa * 2 ^ exponent := by
  rw [toRat_finite, abs_mul, abs_apply, abs_of_pos (two_zpow_pos exponent), Int.cast_natCast,
    Nat.abs_cast]

/-- The greatest double is half a step below the bound. -/
theorem abs_toRat_le {f : UnpackedFloat} (h : IsFinite f) :
    |toRat f| + 2 ^ (970 : ℤ) ≤ overflow := by
  have hpos := two_zpow_pos 970
  rw [overflow_eq]
  cases h with
  | zero sign =>
    have hzero : toRat (.zero sign) = 0 := rfl
    rw [hzero, abs_zero]
    generalize (2 : ℚ) ^ (970 : ℤ) = x at hpos ⊢
    linarith
  | @finite sign mantissa exponent hd =>
    have hm : (mantissa : ℚ) + 1 ≤ 2 ^ 53 := by exact_mod_cast hd.lt
    have he : (2 : ℚ) ^ exponent ≤ 2 ^ (971 : ℤ) := zpow_le_zpow_right₀ (by norm_num) hd.le
    have h971 : (2 : ℚ) ^ (971 : ℤ) = 2 ^ (970 : ℤ) * 2 ^ 1 := two_zpow_eq 971 1
    have hmul : (mantissa : ℚ) * 2 ^ exponent ≤ mantissa * 2 ^ (971 : ℤ) :=
      mul_le_mul_of_nonneg_left he (Nat.cast_nonneg _)
    rw [abs_toRat_finite]
    rw [h971] at hmul
    generalize (2 : ℚ) ^ (970 : ℤ) = x at hpos hmul ⊢
    nlinarith

/-! ## Operations -/

theorem fits_normalize (m e : ℤ) (sign : Sign) :
    Fits (UnpackedFloat.normalize .binary64 m e sign) ↔ |(m : ℚ) * 2 ^ e| < overflow := by
  have hpos := two_zpow_pos e
  unfold UnpackedFloat.normalize
  rw [abs_mul, abs_of_pos hpos]
  rcases lt_trichotomy m 0 with h | rfl | h
  · rw [Int.compare_eq_lt.2 h]
    have hcast : |(m : ℚ)| = ((-m).toNat : ℚ) := by
      rw [abs_of_neg (by exact_mod_cast h)]
      exact_mod_cast (Int.toNat_of_nonneg (by omega : 0 ≤ -m)).symm
    rw [hcast]
    exact (rounds_round .negative (by omega) e).fits_iff
  · rw [Int.compare_eq_eq.2 rfl]
    refine iff_of_true trivial ?_
    rw [Int.cast_zero, abs_zero, zero_mul]
    exact (two_zpow_pos 1023).trans two_zpow_1023_lt
  · rw [Int.compare_eq_gt.2 h]
    have hcast : |(m : ℚ)| = (m.toNat : ℚ) := by
      rw [abs_of_pos (by exact_mod_cast h)]
      exact_mod_cast (Int.toNat_of_nonneg h.le).symm
    rw [hcast]
    exact (rounds_round .positive (by omega) e).fits_iff

/-- A mantissa that is shifted to a smaller exponent. -/
theorem toRat_shift (sign : Sign) {m : Nat} {e target : ℤ} (h : target ≤ e) (hm : 0 < m) :
    ((sign.apply (m <<< (e - target).toNat : Nat) : ℤ) : ℚ) * 2 ^ target =
      toRat (.finite sign m e hm) := by
  have hsplit := zpow_add_toNat (by norm_num : (2 : ℚ) ≠ 0) h
  rw [toRat_finite, hsplit, Nat.shiftLeft_eq]
  cases sign
  · simp only [Sign.apply]
    push_cast
    ring
  · simp only [Sign.apply]
    push_cast
    ring

section

variable {f g : UnpackedFloat}

theorem fits_add (hf : IsFinite f) (hg : IsFinite g) (h : |toRat f + toRat g| < overflow) :
    Fits (UnpackedFloat.add .binary64 f g) := by
  cases hf with
  | zero s =>
    cases hg with
    | zero t => cases s <;> cases t <;> trivial
    | finite t hd => exact (IsFinite.finite t hd).fits
  | @finite s m₁ e₁ hd =>
    cases hg with
    | zero t => exact hd.le
    | @finite t m₂ e₂ hd' =>
      rw [← toRat_shift s (min_le_left e₁ e₂) hd.pos, ← toRat_shift t (min_le_right e₁ e₂) hd'.pos,
        ← add_mul, ← Int.cast_add] at h
      exact (fits_normalize _ _ .positive).2 h

theorem fits_sub (hf : IsFinite f) (hg : IsFinite g) (h : |toRat f - toRat g| < overflow) :
    Fits (UnpackedFloat.sub .binary64 f g) := by
  cases hf with
  | zero s =>
    cases hg with
    | zero t => cases s <;> cases t <;> trivial
    | finite t hd => exact hd.le
  | @finite s m₁ e₁ hd =>
    cases hg with
    | zero t => exact hd.le
    | @finite t m₂ e₂ hd' =>
      rw [← toRat_shift s (min_le_left e₁ e₂) hd.pos, ← toRat_shift t (min_le_right e₁ e₂) hd'.pos,
        ← sub_mul, ← Int.cast_sub] at h
      exact (fits_normalize _ _ .positive).2 h

theorem fits_div (hf : IsFinite f) (hg : IsFinite g) (hne : toRat g ≠ 0)
    (h : |toRat f / toRat g| < overflow) : Fits (UnpackedFloat.div .binary64 f g) := by
  cases hg with
  | zero t => exact absurd rfl hne
  | @finite t m₂ e₂ hd' =>
    cases hf with
    | zero s => trivial
    | @finite s m₁ e₁ hd =>
      rw [abs_div, abs_toRat_finite, abs_toRat_finite, mul_div_mul_comm,
        ← zpow_sub₀ (by norm_num)] at h
      exact (rounds_div s t _ _ hd.pos hd'.pos).fits_iff.2 h

end

/-! ## Doubles -/

section

variable {n : Nat} {x : Float}

theorem ofNat_eq_pack (hn : 0 < n) (hlt : n < 2 ^ 53) :
    ∃ hd : IsDouble (normal n).1 (normal n).2,
      Float.ofNat n =
        .ofModel (.pack (.finite .positive (normal n).1 (normal n).2 hd.pos)) := by
  have hd := isDouble_normal hn hlt (Nat.zero_le 900)
  rw [Nat.cast_zero, add_zero] at hd
  refine ⟨hd, ?_⟩
  have hvalue : (n * 10 ^ powerOf false 0 : ℚ) = (normal n).1 * 2 ^ (normal n).2 := by
    rw [normal_value hn hlt]
    exact mul_one _
  show Float.ofScientific n false 0 = _
  refine ofScientific_eq hd hn ?_
  rw [hvalue]
  exact contains_self hd.pos

theorem isFinite_ofNat (hn : 0 < n) (hlt : n < 2 ^ 53) : (Float.ofNat n).isFinite = true := by
  obtain ⟨hd, h⟩ := ofNat_eq_pack hn hlt
  rw [h, isFinite_ofModel_pack]
  exact hd.le

theorem toRat_ofNat (hn : 0 < n) (hlt : n < 2 ^ 53) : toRat (Float.ofNat n).toModel.unpack = n := by
  obtain ⟨hd, h⟩ := ofNat_eq_pack hn hlt
  have hunpack : (Float.Model.pack (.finite .positive (normal n).1 (normal n).2 hd.pos)).unpack =
      .finite .positive (normal n).1 (normal n).2 hd.pos := unpack_pack_finite hd _
  rw [h]
  show toRat (Float.Model.unpack _) = _
  rw [hunpack, toRat_finite, ← normal_value hn hlt]
  rfl

/-- A natural below `2 ^ 53` is small beside the distance of the greatest double to the bound. -/
theorem abs_toRat_ofNat_lt (hn : 0 < n) (hlt : n < 2 ^ 53) :
    |toRat (Float.ofNat n).toModel.unpack| < 2 ^ (970 : ℤ) := by
  have hcast : (n : ℚ) < 2 ^ (53 : ℤ) := by exact_mod_cast hlt
  rw [toRat_ofNat hn hlt, Nat.abs_cast]
  exact hcast.trans_le (zpow_le_zpow_right₀ (by norm_num) (by decide))

theorem isFinite_ofNat_add (hn : 0 < n) (hlt : n < 2 ^ 53) (hx : x.isFinite = true) :
    (Float.ofNat n + x).isFinite = true := by
  have hlarge := abs_toRat_le (isFinite_unpack hx)
  have hsmall := abs_toRat_ofNat_lt hn hlt
  refine (isFinite_ofModel_pack _).2
    (fits_add (isFinite_unpack (isFinite_ofNat hn hlt)) (isFinite_unpack hx) ?_)
  exact (abs_add_le _ _).trans_lt (by linarith)

theorem isFinite_ofNat_sub (hn : 0 < n) (hlt : n < 2 ^ 53) (hx : x.isFinite = true) :
    (Float.ofNat n - x).isFinite = true := by
  have hlarge := abs_toRat_le (isFinite_unpack hx)
  have hsmall := abs_toRat_ofNat_lt hn hlt
  refine (isFinite_ofModel_pack _).2
    (fits_sub (isFinite_unpack (isFinite_ofNat hn hlt)) (isFinite_unpack hx) ?_)
  exact (abs_sub _ _).trans_lt (by linarith)

theorem isFinite_half (hx : x.isFinite = true) : (x / 2).isFinite = true := by
  have htwo : toRat (2 : Float).toModel.unpack = 2 := toRat_ofNat (by decide) (by decide)
  have hlarge := abs_toRat_le (isFinite_unpack hx)
  have hpos := two_zpow_pos 970
  refine (isFinite_ofModel_pack _).2
    (fits_div (isFinite_unpack hx) (isFinite_unpack (by decide)) ?_ ?_)
  · rw [htwo]
    norm_num
  · rw [htwo, abs_div, abs_two]
    have hnonneg := abs_nonneg (toRat x.toModel.unpack)
    generalize (2 : ℚ) ^ (970 : ℤ) = u at hlarge hpos
    linarith

end

end FreeBody.Decimal
