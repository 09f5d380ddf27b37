import FreeBody.Proofs.Decimal.Packing
import FreeBody.Proofs.Decimal.Rounding

/-!
# Decimals that denote a double

Reading a decimal multiplies or divides by a power of ten, on doubles that hold both factors when
they are small and on the exact factors otherwise.  Either way the exact result is rounded once
(`ofScientific_eq_pack`), so a decimal in the interval around a double reads as the double
(`ofScientific_eq`).
-/

open Float.Model Float.Model.UnpackedFloat

namespace FreeBody.Decimal

/-! ## One operation -/

section

variable {m₁ m₂ : Nat} (s₁ s₂ : Sign) (e₁ e₂ : ℤ)

theorem rounds_mul (h₁ : 0 < m₁) (h₂ : 0 < m₂) (hbits : 2 ^ 52 ≤ m₁ * m₂) :
    Rounds (s₁ * s₂) (m₁ * m₂ * 2 ^ (e₁ + e₂))
      (UnpackedFloat.mul .binary64 (.finite s₁ m₁ e₁ h₁) (.finite s₂ m₂ e₂ h₂)) := by
  rw [← Nat.cast_mul]
  exact rounds_exact (s₁ * s₂) (Or.inr hbits)

theorem rounds_div (h₁ : 0 < m₁) (h₂ : 0 < m₂) :
    Rounds (s₁ / s₂) (m₁ / m₂ * 2 ^ (e₁ - e₂))
      (UnpackedFloat.div .binary64 (.finite s₁ m₁ e₁ h₁) (.finite s₂ m₂ e₂ h₂)) := by
  -- the dividend is shifted left until the quotient has all its bits
  obtain ⟨target, ht⟩ : ∃ target : ℤ, target = min (e₁ - e₂)
      (Format.binary64.targetExponent (totalExponent m₁ e₁ - totalExponent m₂ e₂)) := ⟨_, rfl⟩
  have hdiv : UnpackedFloat.div .binary64 (.finite s₁ m₁ e₁ h₁) (.finite s₂ m₂ e₂ h₂) =
      roundWithAccuracy .binary64 (s₁ / s₂) (m₁ <<< (e₁ - e₂ - target).toNat / m₂) target
        (accuracyOfFraction (m₁ <<< (e₁ - e₂ - target).toNat % m₂) m₂) := by
    rw [ht]
    rfl
  rw [targetExponent_binary64, totalExponent, totalExponent] at ht
  rw [Nat.shiftLeft_eq] at hdiv
  refine ⟨_, m₂, target, h₂, ?_, ?_, hdiv⟩
  · by_cases htarget : target ≤ -1074
    · exact Or.inl htarget
    · right
      have hpow : 2 ^ (m₂.log2 + 53) ≤ m₁ * 2 ^ (e₁ - e₂ - target).toNat := calc
        2 ^ (m₂.log2 + 53) ≤ 2 ^ (m₁.log2 + (e₁ - e₂ - target).toNat) :=
          Nat.pow_le_pow_right (by decide) (by omega)
        _ = 2 ^ m₁.log2 * 2 ^ (e₁ - e₂ - target).toNat := Nat.pow_add 2 _ _
        _ ≤ _ := Nat.mul_le_mul_right _ (Nat.log2_self_le (by omega))
      have hlt : m₂ < 2 ^ (m₂.log2 + 1) := Nat.lt_log2_self
      rw [Nat.le_div_iff_mul_le h₂]
      have : 2 ^ (m₂.log2 + 53) = 2 ^ 52 * 2 ^ (m₂.log2 + 1) := by ring
      omega
  · rw [zpow_add_toNat (by norm_num : (2 : ℚ) ≠ 0) (by omega : target ≤ e₁ - e₂)]
    push_cast
    ring

theorem rounds_round (sign : Sign) {m : Nat} (hm : 0 < m) (e : ℤ) :
    Rounds sign (m * 2 ^ e) (UnpackedFloat.round .binary64 sign m e) := by
  -- the mantissa is shifted left until it has all its bits
  obtain ⟨shift, hs⟩ : ∃ shift : Nat, shift =
      (e - Format.binary64.targetExponent (totalExponent m e)).toNat := ⟨_, rfl⟩
  have hround : UnpackedFloat.round .binary64 sign m e =
      roundWithAccuracy .binary64 sign (m * 2 ^ shift) (e - shift) .exact := by
    rw [hs, ← Nat.shiftLeft_eq]
    rfl
  have hvalue : (m : ℚ) * 2 ^ e = (m * 2 ^ shift : Nat) * 2 ^ (e - shift) := by
    rw [two_zpow_eq e shift]
    push_cast
    ring
  rw [targetExponent_binary64, totalExponent] at hs
  rw [hround, hvalue]
  refine rounds_exact sign ?_
  have hpow : 2 ^ (m.log2 + shift) ≤ m * 2 ^ shift := by
    rw [Nat.pow_add]
    exact Nat.mul_le_mul_right _ (Nat.log2_self_le (by omega))
  by_cases hsmall : e - shift ≤ -1074
  · exact Or.inl hsmall
  · exact Or.inr (le_trans (Nat.pow_le_pow_right (by decide) (by omega)) hpow)

end

/-! ## Factors that doubles hold -/

/-- The mantissa and exponent of a natural below `2 ^ 53`. -/
def normal (n : Nat) : Nat × ℤ := (n * 2 ^ (52 - n.log2), n.log2 - 52)

theorem isDouble_normal {n : Nat} (hpos : 0 < n) (hlt : n < 2 ^ 53) {k : Nat} (hk : k ≤ 900) :
    IsDouble (normal n).1 ((normal n).2 + k) := by
  have hlog : n.log2 < 53 := (Nat.log2_lt (by omega)).2 hlt
  have hlow := Nat.log2_self_le (n := n) (by omega)
  have hhigh := Nat.lt_log2_self (n := n)
  have h1 : 2 ^ n.log2 * 2 ^ (52 - n.log2) = 2 ^ 52 := by
    rw [← Nat.pow_add]
    congr 1
    omega
  have h2 : 2 ^ (n.log2 + 1) * 2 ^ (52 - n.log2) = 2 ^ 53 := by
    rw [← Nat.pow_add]
    congr 1
    omega
  have hle := Nat.mul_le_mul_right (2 ^ (52 - n.log2)) hlow
  have hlt' := Nat.mul_lt_mul_of_pos_right hhigh (Nat.two_pow_pos (52 - n.log2))
  unfold normal
  simp only
  exact ⟨by omega, by omega, by omega, by omega, Or.inl (by omega)⟩

theorem normal_value {n : Nat} (hpos : 0 < n) (hlt : n < 2 ^ 53) :
    ((normal n).1 : ℚ) * 2 ^ (normal n).2 = n := by
  have hlog : n.log2 < 53 := (Nat.log2_lt (by omega)).2 hlt
  unfold normal
  have h : (2 : ℚ) ^ (52 - n.log2) * 2 ^ ((n.log2 : ℤ) - 52) = 1 := by
    rw [← zpow_natCast, ← zpow_add₀ (by norm_num)]
    have : ((52 - n.log2 : Nat) : ℤ) + ((n.log2 : ℤ) - 52) = 0 := by omega
    rw [this, zpow_zero]
  push_cast
  rw [mul_assoc, h, mul_one]

/-- Naturals below `2 ^ 53` convert exactly. -/
theorem toFloat_eq {n : Nat} (hpos : 0 < n) (hlt : n < 2 ^ 53) :
    n.toUInt64.toFloat = .ofModel (.pack (.finite .positive (normal n).1 (normal n).2
      (isDouble_normal hpos hlt (Nat.zero_le 900)).pos)) := by
  have hd := isDouble_normal hpos hlt (Nat.zero_le 900)
  rw [Nat.cast_zero, add_zero] at hd
  have hlog : n.log2 < 53 := (Nat.log2_lt (by omega)).2 hlt
  have hnat : n.toUInt64.toNat = n := Nat.mod_eq_of_lt (by omega)
  have hround : UnpackedFloat.round .binary64 .positive n 0 =
      .finite .positive (normal n).1 (normal n).2 hd.pos := by
    refine (rounds_round .positive hpos 0).eq_finite hd ?_
    rw [zpow_zero, mul_one, ← normal_value hpos hlt]
    exact contains_self hd.pos
  show Float.ofModel (.pack (UnpackedFloat.normalize .binary64 (n.toUInt64.toNat : ℤ) 0 _)) = _
  rw [hnat]
  unfold UnpackedFloat.normalize
  rw [Int.compare_eq_gt.2 (by omega)]
  show Float.ofModel (.pack (UnpackedFloat.round .binary64 .positive (n : ℤ).toNat 0)) = _
  rw [Int.toNat_natCast, hround]

/-- The powers of ten in the table are exact. -/
theorem powersOfTen_eq : ∀ k : Fin 23, Float.exactlyRepresentablePowersOfTen[k] =
    .ofModel (.pack (.finite .positive (normal (5 ^ k.1)).1 ((normal (5 ^ k.1)).2 + k.1)
      (Nat.mul_pos (Nat.pow_pos (by decide)) (Nat.two_pow_pos _)))) := by
  decide +kernel

/-! ## Reading -/

/-- The power that a decimal is read with. -/
def powerOf (negative : Bool) (k : Nat) : ℤ := if negative then -(k : ℤ) else k

theorem powerOf_natAbs (power : ℤ) : powerOf (power < 0) power.natAbs = power := by
  unfold powerOf
  by_cases h : power < 0
  · rw [if_pos (decide_eq_true h)]
    omega
  · rw [if_neg (by rw [decide_eq_true_iff]; exact h)]
    omega

/-- One operation on doubles that hold both factors. -/
theorem rounds_fast {n : Nat} (hn : 0 < n) (hlt : n < 2 ^ 53) (negative : Bool) {k : Nat}
    (hk : k ≤ 22) (hbound : k < Float.exactlyRepresentablePowersOfTen.size) :
    ∃ f, (if negative then n.toUInt64.toFloat / Float.exactlyRepresentablePowersOfTen[k]
      else n.toUInt64.toFloat * Float.exactlyRepresentablePowersOfTen[k]) = .ofModel (.pack f) ∧
      Rounds .positive (n * 10 ^ powerOf negative k) f := by
  have hfive : 0 < 5 ^ k ∧ 5 ^ k < 2 ^ 53 :=
    ⟨Nat.pow_pos (by decide),
      Nat.lt_of_le_of_lt (Nat.pow_le_pow_right (by decide) hk) (by decide)⟩
  have hd₁ := isDouble_normal hn hlt (Nat.zero_le 900)
  rw [Nat.cast_zero, add_zero] at hd₁
  have hd₂ := isDouble_normal hfive.1 hfive.2 (by omega : k ≤ 900)
  have htable := powersOfTen_eq ⟨k, by omega⟩
  have hten : ((normal (5 ^ k)).1 : ℚ) * 2 ^ ((normal (5 ^ k)).2 + k) = 10 ^ (k : ℤ) := by
    rw [zpow_add₀ (by norm_num), ← mul_assoc, normal_value hfive.1 hfive.2, zpow_natCast,
      zpow_natCast, Nat.cast_pow, ← mul_pow]
    norm_num
  have hbits : 2 ^ 52 ≤ (normal n).1 ∧ 0 < (normal (5 ^ k)).1 :=
    ⟨hd₁.normal.resolve_right (by unfold normal; omega), hd₂.pos⟩
  have hvalue := normal_value hn hlt
  rw [show Float.exactlyRepresentablePowersOfTen[k] = _ from htable, toFloat_eq hn hlt, ← hvalue]
  cases negative
  · rw [if_neg Bool.false_ne_true, powerOf, if_neg Bool.false_ne_true, mul_pack_finite hd₁ hd₂]
    refine ⟨_, rfl, ?_⟩
    have := rounds_mul .positive .positive (normal n).2 ((normal (5 ^ k)).2 + k)
      hd₁.pos hd₂.pos (Nat.le_trans hbits.1 (Nat.le_mul_of_pos_right _ hbits.2))
    rwa [zpow_add₀ (by norm_num), mul_mul_mul_comm, hten] at this
  · rw [if_pos rfl, powerOf, if_pos rfl, div_pack_finite hd₁ hd₂]
    refine ⟨_, rfl, ?_⟩
    have := rounds_div .positive .positive (normal n).2 ((normal (5 ^ k)).2 + k)
      hd₁.pos hd₂.pos
    rwa [zpow_sub₀ (by norm_num), div_mul_div_comm, hten, div_eq_mul_inv, ← zpow_neg] at this

/-- One operation on the exact factors. -/
theorem rounds_slow {n : Nat} (hn : 0 < n) {power : ℤ} (hhigh : power ≤ 2048)
    (hlow : -(2048 + (n.log2 : ℤ)) ≤ power) :
    Rounds .positive (n * 10 ^ power) (UnpackedFloat.ofScientific .binary64 n power) := by
  have hbits : (2 : ℤ) ^ Format.binary64.exponentBits = 2048 := rfl
  unfold UnpackedFloat.ofScientific
  rw [dif_neg (by omega), if_neg (by omega), if_neg (by omega)]
  by_cases hsign : 0 ≤ power
  · have hten : (10 : ℚ) ^ power = (10 ^ power.toNat : Nat) := by
      rw [Nat.cast_pow, Nat.cast_ofNat, ← zpow_natCast, Int.toNat_of_nonneg hsign]
    have hvalue : (n : ℚ) * (10 : ℚ) ^ power =
        ((n <<< 53 : Nat) : ℚ) * (10 ^ power.toNat : Nat) * 2 ^ (-((53 : Nat) : ℤ) + 0) := by
      rw [hten, add_zero, zpow_neg, zpow_natCast, Nat.shiftLeft_eq]
      push_cast
      field_simp
      norm_num
    rw [if_pos hsign, hvalue]
    refine rounds_mul .positive .positive _ _ _ _ ?_
    have hpos : 0 < 10 ^ power.toNat := Nat.pow_pos (by decide)
    have := Nat.le_mul_of_pos_right (n <<< 53) hpos
    rw [Nat.shiftLeft_eq] at this ⊢
    omega
  · have hten : (10 : ℚ) ^ power = ((10 ^ (-power).toNat : Nat) : ℚ)⁻¹ := by
      rw [Nat.cast_pow, Nat.cast_ofNat, ← zpow_natCast, Int.toNat_of_nonneg (by omega), zpow_neg,
        inv_inv]
    have hvalue : (n : ℚ) * (10 : ℚ) ^ power =
        n / (10 ^ (-power).toNat : Nat) * 2 ^ ((0 : ℤ) - 0) := by
      rw [sub_self, zpow_zero, mul_one, hten, div_eq_mul_inv]
    rw [if_neg hsign, hvalue]
    exact rounds_div .positive .positive _ _ _ _

/-- Reading a decimal rounds it once, unless its power is beyond the cutoffs. -/
theorem ofScientific_eq_pack {n : Nat} (hn : 0 < n) (negative : Bool) (k : Nat) :
    ∃ f, Float.ofScientific n negative k = .ofModel (.pack f) ∧
      (Rounds .positive (n * 10 ^ powerOf negative k) f ∨
        2048 < powerOf negative k ∧ f = .infinity .positive ∨
        powerOf negative k < -(2048 + (n.log2 : ℤ)) ∧ f = .zero .positive) := by
  unfold Float.ofScientific
  by_cases hfast : n < 2 ^ 53 ∧ k ≤ 22
  · rw [dif_pos hfast]
    obtain ⟨f, hf, hrounds⟩ := rounds_fast hn hfast.1 negative hfast.2 (Nat.lt_succ_of_le hfast.2)
    exact ⟨f, hf, Or.inl hrounds⟩
  · rw [dif_neg hfast]
    have hpower : (if negative then Int.negOfNat k else Int.ofNat k) = powerOf negative k := by
      rw [Int.negOfNat_eq]
      rfl
    refine ⟨_, rfl, ?_⟩
    rw [hpower]
    generalize powerOf negative k = power
    have hbits : (2 : ℤ) ^ Format.binary64.exponentBits = 2048 := rfl
    by_cases hlarge : 2048 < power
    · refine Or.inr (Or.inl ⟨hlarge, ?_⟩)
      unfold UnpackedFloat.ofScientific
      rw [dif_neg (by omega), if_pos (by omega)]
    by_cases hsmall : power < -(2048 + (n.log2 : ℤ))
    · refine Or.inr (Or.inr ⟨hsmall, ?_⟩)
      unfold UnpackedFloat.ofScientific
      rw [dif_neg (by omega), if_neg (by omega), if_pos (by omega)]
    · exact Or.inl (rounds_slow hn (by omega) (by omega))

section

variable {mantissa : Nat} {exponent : ℤ}

/-- A decimal in the interval around a double has no extreme power. -/
theorem power_bounds (hd : IsDouble mantissa exponent) {n : Nat} (hn : 0 < n) {power : ℤ}
    (h : (Interval.around mantissa exponent).Contains (n * 10 ^ power)) :
    power < 1025 ∧ -1077 - n.log2 ≤ power := by
  obtain ⟨hlow, hhigh⟩ := Contains.bounds hd h
  have hpos := ten_zpow_pos power
  constructor
  · by_contra hge
    have h1 : (2 : ℚ) ^ (1025 : ℤ) ≤ 10 ^ power := two_zpow_le_ten_zpow (by omega) (by omega)
    have h2 : (10 : ℚ) ^ power ≤ n * 10 ^ power :=
      le_mul_of_one_le_left hpos.le (by exact_mod_cast hn)
    exact absurd (h1.trans h2) (not_le.2 hhigh)
  · by_contra hlt
    have h1 : (10 : ℚ) ^ power ≤ 2 ^ power := ten_zpow_le_two_zpow (by omega) (by omega)
    have h2 : (n : ℚ) ≤ 2 ^ ((n.log2 : ℤ) + 1) := by exact_mod_cast Nat.lt_log2_self.le
    have h3 : (n : ℚ) * 10 ^ power ≤ 2 ^ (-1076 : ℤ) := calc
      (n : ℚ) * 10 ^ power ≤ 2 ^ ((n.log2 : ℤ) + 1) * 2 ^ power :=
        mul_le_mul h2 h1 hpos.le (two_zpow_pos _).le
      _ = 2 ^ ((n.log2 : ℤ) + 1 + power) := (zpow_add₀ (by norm_num) _ _).symm
      _ ≤ 2 ^ (-1076 : ℤ) := zpow_le_zpow_right₀ (by norm_num) (by omega)
    exact absurd h3 (not_le.2 hlow)

/-- A decimal in the interval around a double denotes the double. -/
theorem ofScientific_eq (hd : IsDouble mantissa exponent) {n : Nat} (hn : 0 < n)
    {negative : Bool} {k : Nat}
    (h : (Interval.around mantissa exponent).Contains (n * 10 ^ powerOf negative k)) :
    Float.ofScientific n negative k =
      .ofModel (.pack (.finite .positive mantissa exponent hd.pos)) := by
  obtain ⟨hhigh, hlow⟩ := power_bounds hd hn h
  obtain ⟨f, hf, hrounds | ⟨hlarge, -⟩ | ⟨hsmall, -⟩⟩ := ofScientific_eq_pack hn negative k
  · rw [hf, hrounds.eq_finite hd h]
  · omega
  · omega

end

end FreeBody.Decimal
