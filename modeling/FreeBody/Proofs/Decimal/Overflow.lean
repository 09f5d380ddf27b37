import FreeBody.Proofs.Decimal.ReadBack

/-!
# What is too large for a double

The greatest double is `(2 ^ 53 - 1) · 2 ^ 971`.  A number that is half a step above it, or more,
is rounded to infinity, and a smaller one to a finite double: packing keeps an exponent up to 971
(`isFinite_ofModel_pack`), and what a number is rounded to has such an exponent exactly if the
number is below `overflow` (`Rounds.fits_iff`).  So it is for decimals (`isFinite_nearest`) and for
the texts that they are read from (`isFinite_read?_numeral`).
-/

open Float.Model Float.Model.UnpackedFloat

namespace FreeBody.Decimal

/-- The least number that is too large for a double. -/
def overflow : ℚ := 2 ^ 1024 - 2 ^ 970

/-- The greatest relative error of rounding once. -/
def roundoff : ℚ := 1 / 2 ^ 53

/-! ## Packing -/

/-- Whether a value is still finite when it is packed. -/
def Fits : UnpackedFloat → Prop
  | .infinity _ | .notANumber => False
  | .zero _ => True
  | .finite _ _ exponent _ => exponent ≤ 971

theorem field_packComponents (sign : Sign) (e : BitVec 11) (m : BitVec 52) :
    (packComponents .binary64 sign e m).toNat / 2 ^ 52 % 2 ^ 11 = e.toNat := by
  have he := e.isLt
  have hm := m.isLt
  rw [toNat_packComponents]
  omega

theorem isFinite_ofModel_pack (f : UnpackedFloat) :
    (Float.ofModel (.pack f)).isFinite = true ↔ Fits f := by
  have hbits : (Float.ofModel (.pack f)).toBits.toNat =
      (UnpackedFloat.pack .binary64 f).toNat := rfl
  rw [isFinite_iff_field, hbits]
  cases f with
  | infinity sign =>
    refine iff_of_false (not_not_intro ?_) not_false
    exact field_packComponents sign (-1#11) 0
  | notANumber =>
    refine iff_of_false (not_not_intro ?_) not_false
    exact field_packComponents .positive (-1#11) _
  | zero sign =>
    refine iff_of_true ?_ trivial
    rw [show UnpackedFloat.pack .binary64 (.zero sign) =
      packComponents .binary64 sign 0#11 0#52 from rfl, field_packComponents]
    decide
  | finite sign mantissa exponent hpos =>
    have hbiased : exponent + (Format.binary64.exponentBias : ℤ) + (52 : Nat) =
        exponent + 1075 := by
      show exponent + 1023 + 52 = _
      omega
    show _ ↔ exponent ≤ 971
    unfold UnpackedFloat.pack
    rw [hbiased]
    dsimp only
    split_ifs with hlarge hnormal
    · refine iff_of_false (not_not_intro (field_packComponents sign (-1#11) 0)) ?_
      have : 2 ^ Format.binary64.exponentBits = 2048 := rfl
      omega
    · have : 2 ^ Format.binary64.exponentBits = 2048 := rfl
      rw [field_packComponents, BitVec.toNat_ofNat]
      omega
    · have : 2 ^ Format.binary64.exponentBits = 2048 := rfl
      rw [field_packComponents]
      exact iff_of_true (by decide) (by omega)

/-! ## Finite values -/

/-- The values of finite doubles. -/
inductive IsFinite : UnpackedFloat → Prop
  | zero (sign : Sign) : IsFinite (.zero sign)
  | finite (sign : Sign) {mantissa : Nat} {exponent : ℤ} (hd : IsDouble mantissa exponent) :
    IsFinite (.finite sign mantissa exponent hd.pos)

theorem isFinite_unpack {x : Float} (h : x.isFinite = true) : IsFinite x.toModel.unpack := by
  obtain ⟨negative, mantissa, exponent, hx⟩ := isFinite_iff.1 h
  rcases Nat.eq_zero_or_pos mantissa with rfl | hpos
  · rw [eq_pack_zero_of_ofFloat hx]
    cases negative
    · exact .zero .positive
    · exact .zero .negative
  · have hd := isDouble_of_ofFloat hx hpos
    have hunpack : (Float.Model.pack (.finite (signOf negative) mantissa exponent hpos)).unpack =
        .finite (signOf negative) mantissa exponent hpos := unpack_pack_finite hd _
    rw [eq_pack_of_ofFloat hx hpos]
    show IsFinite (Float.Model.unpack _)
    rw [hunpack]
    exact .finite _ hd

theorem IsFinite.fits {f : UnpackedFloat} (h : IsFinite f) : Fits f := by
  cases h with
  | zero => trivial
  | finite _ hd => exact hd.le

theorem isFinite_neg (x : Float) : (-x).isFinite = x.isFinite := by
  have hneg : (-x).isFinite = true ↔ Fits x.toModel.unpack.neg := isFinite_ofModel_pack _
  rw [Bool.eq_iff_iff, hneg]
  constructor
  · intro h
    show x.toModel.unpack.isFinite = true
    cases hx : x.toModel.unpack with
    | infinity sign => rw [hx] at h; exact h.elim
    | notANumber => rw [hx] at h; exact h.elim
    | zero sign => rfl
    | finite sign mantissa exponent hpos => rfl
  · intro h
    have hfinite := isFinite_unpack h
    generalize x.toModel.unpack = f at hfinite
    cases hfinite with
    | zero => trivial
    | finite _ hd => exact hd.le

theorem isInf_of_isFinite {x : Float} (h : x.isFinite = true) : x.isInf = false := by
  show x.toModel.unpack.isInf = false
  have hfinite := isFinite_unpack h
  generalize x.toModel.unpack = f at hfinite
  cases hfinite <;> rfl

/-! ## Rounding to an even number -/

section

variable {a b N : Nat}

theorem divHalfEven_le (hb : 0 < b) (h : a ≤ N * b) : divHalfEven a b ≤ N := by
  have hsplit := Nat.div_add_mod a b
  have hlt := Nat.mod_lt a hb
  have hle : a / b ≤ N := Nat.div_le_of_le_mul (by rwa [Nat.mul_comm])
  unfold divHalfEven
  simp only
  rcases Nat.lt_or_eq_of_le hle with hless | heq
  · split_ifs <;> omega
  · -- then the quotient is whole
    rw [heq] at hsplit ⊢
    have : a % b = 0 := by
      rw [Nat.mul_comm] at h
      omega
    rw [if_pos (by omega)]

theorem le_divHalfEven (hb : 0 < b) (h : N * b ≤ a) : N ≤ divHalfEven a b := by
  have hle : N ≤ a / b := (Nat.le_div_iff_mul_le hb).2 h
  unfold divHalfEven
  simp only
  split_ifs <;> omega

/-- A quotient rounds to less than an even number if it is more than a half below it. -/
theorem divHalfEven_lt_iff (hb : 0 < b) (hN : N % 2 = 0) :
    divHalfEven a b < N ↔ 2 * a + b < 2 * N * b := by
  have hsplit := Nat.div_add_mod a b
  have hlt := Nat.mod_lt a hb
  unfold divHalfEven
  simp only
  generalize a / b = q at *
  generalize a % b = m at *
  have hN' : 2 * N * b = 2 * (b * N) := by ring
  rcases Nat.lt_trichotomy (q + 1) N with h | h | h
  · have : b * (q + 2) ≤ b * N := Nat.mul_le_mul_left b h
    have e : b * (q + 2) = b * q + 2 * b := by ring
    refine iff_of_true ?_ (by omega)
    split_ifs <;> omega
  · subst h
    have e : b * (q + 1) = b * q + b := by ring
    split_ifs <;> omega
  · have : b * N ≤ b * q := Nat.mul_le_mul_left b (by omega)
    refine iff_of_false ?_ (by omega)
    split_ifs <;> omega

end

/-- A quotient is rounded up by half a step at most. -/
theorem divHalfEven_mul_le {a b : Nat} (hb : 0 < b) : 2 * divHalfEven a b * b ≤ 2 * a + b := by
  have hsplit := Nat.div_add_mod a b
  have hlt := Nat.mod_lt a hb
  unfold divHalfEven
  simp only
  generalize a / b = q at *
  generalize a % b = m at *
  have e1 : 2 * q * b = 2 * (b * q) := by ring
  have e2 : 2 * (q + 1) * b = 2 * (b * q) + 2 * b := by ring
  split_ifs with h1 h2
  · omega
  · omega
  · rcases Nat.mod_two_eq_zero_or_one q with h | h <;> rw [h]
    · rw [Nat.add_zero]
      omega
    · omega

/-- And it is rounded down by half a step at most. -/
theorem le_divHalfEven_mul {a b : Nat} (hb : 0 < b) : 2 * a ≤ (2 * divHalfEven a b + 1) * b := by
  have hsplit := Nat.div_add_mod a b
  have hlt := Nat.mod_lt a hb
  unfold divHalfEven
  simp only
  generalize a / b = q at *
  generalize a % b = m at *
  have e1 : (2 * q + 1) * b = 2 * (b * q) + b := by ring
  have e2 : (2 * (q + 1) + 1) * b = 2 * (b * q) + 3 * b := by ring
  split_ifs with h1 h2
  · omega
  · omega
  · rcases Nat.mod_two_eq_zero_or_one q with h | h <;> rw [h]
    · rw [show q + 0 = q from rfl]
      omega
    · omega

/-! ## Rounding once -/

section

variable {a b : Nat} {e n : ℤ}

theorem quotient_lt (a : Nat) (hb : 0 < b) (e : ℤ) :
    (a / b : ℚ) * 2 ^ e < 2 ^ (((a / b).log2 : ℤ) + 1 + e) := by
  have hb' : (0 : ℚ) < b := by exact_mod_cast hb
  have hlt : a < 2 ^ ((a / b).log2 + 1) * b :=
    (Nat.div_lt_iff_lt_mul hb).1 Nat.lt_log2_self
  rw [zpow_add₀ (by norm_num), mul_lt_mul_iff_left₀ (two_zpow_pos e), div_lt_iff₀ hb']
  exact_mod_cast hlt

theorem le_quotient (hq : 0 < a / b) (e : ℤ) :
    (2 : ℚ) ^ (((a / b).log2 : ℤ) + e) ≤ a / b * 2 ^ e := by
  have hself : ((2 ^ (a / b).log2 : Nat) : ℚ) ≤ (a / b : Nat) := by
    exact_mod_cast Nat.log2_self_le (by omega)
  rw [zpow_add₀ (by norm_num), zpow_natCast, mul_le_mul_iff_left₀ (two_zpow_pos e)]
  push_cast at hself
  exact hself.trans Nat.cast_div_le

/-- The target exponent leaves 53 bits before the point. -/
theorem bounds_of_targetExponent (hb : 0 < b) (he : e ≤ -1074 ∨ 2 ^ 52 ≤ a / b)
    (hn : Format.binary64.targetExponent (totalExponent (a / b) e) = n) :
    (a / b : ℚ) * 2 ^ e < 2 ^ (n + 53) ∧ -1074 ≤ n ∧
      (n = -1074 ∨ (2 : ℚ) ^ (n + 52) ≤ a / b * 2 ^ e) := by
  rw [targetExponent_binary64, totalExponent] at hn
  refine ⟨(quotient_lt a hb e).trans_le (zpow_le_zpow_right₀ (by norm_num) (by omega)),
    by omega, ?_⟩
  rcases Nat.eq_zero_or_pos (a / b) with hq | hq
  · rw [hq, Nat.log2_zero] at hn
    rw [hq] at he
    omega
  · rcases (by omega : n = -1074 ∨ n + 52 = (a / b).log2 + e) with h | h
    · exact Or.inl h
    · rw [h]
      exact Or.inr (le_quotient hq e)

/-- The number of steps that a quotient rounds to. -/
theorem bounds_of_divHalfEven (hb : 0 < b) (he : e ≤ n) {k : Nat}
    (hk : divHalfEven a (b * 2 ^ (n - e).toNat) = k) :
    ((a / b : ℚ) * 2 ^ e < 2 ^ (n + 53) → k ≤ 2 ^ 53) ∧
      ((2 : ℚ) ^ (n + 52) ≤ a / b * 2 ^ e → 2 ^ 52 ≤ k) ∧
      (k < 2 ^ 53 ↔ 2 * (a / b * 2 ^ e) < (2 ^ 54 - 1 : ℚ) * 2 ^ n) ∧
      (2 * k - 1 : ℚ) * 2 ^ n ≤ 2 * (a / b * 2 ^ e) := by
  have hscale := quotient_le_iff (a := a) hb he
  have hd : 0 < b * 2 ^ (n - e).toNat := Nat.mul_pos hb (Nat.two_pow_pos _)
  generalize b * 2 ^ (n - e).toNat = d at *
  subst hk
  refine ⟨fun h => ?_, fun h => ?_, ?_, ?_⟩
  · refine divHalfEven_le hd ?_
    have hle : (1 : ℚ) * (a / b * 2 ^ e) ≤ 2 ^ 53 * 2 ^ n := by
      rw [one_mul, mul_comm (2 ^ 53 : ℚ), ← two_zpow_add n 53]
      exact h.le
    rw [(hscale _ _).2, one_mul] at hle
    exact_mod_cast hle
  · refine le_divHalfEven hd ?_
    have hle : (2 : ℚ) ^ 52 * 2 ^ n ≤ 1 * (a / b * 2 ^ e) := by
      rw [one_mul, mul_comm (2 ^ 52 : ℚ), ← two_zpow_add n 52]
      exact h
    rw [(hscale _ _).1, one_mul] at hle
    exact_mod_cast hle
  · rw [divHalfEven_lt_iff hd (by decide), ← not_le, ← not_le, (hscale _ _).1, not_iff_not]
    constructor
    · intro h
      have : ((2 * 2 ^ 53 * d : Nat) : ℚ) ≤ (2 * a + d : Nat) := by exact_mod_cast h
      push_cast at this
      linarith
    · intro h
      have : ((2 * 2 ^ 53 * d : Nat) : ℚ) ≤ (2 * a + d : Nat) := by
        push_cast
        linarith
      exact_mod_cast this
  · rw [(hscale _ _).1]
    have : ((2 * divHalfEven a d * d : Nat) : ℚ) ≤ (2 * a + d : Nat) := by
      exact_mod_cast divHalfEven_mul_le hd
    push_cast at this
    linarith

end

theorem overflow_eq : overflow = (2 ^ 54 - 1 : ℚ) * 2 ^ (970 : ℤ) := by
  have h : (2 : ℚ) ^ (1024 : ℤ) = 2 ^ (970 : ℤ) * 2 ^ 54 := two_zpow_eq 1024 54
  rw [overflow, ← zpow_ofNat, ← zpow_ofNat, h]
  ring

theorem two_zpow_1023_lt : (2 : ℚ) ^ (1023 : ℤ) < overflow := by
  have h : (2 : ℚ) ^ (1023 : ℤ) = 2 ^ (970 : ℤ) * 2 ^ 53 := two_zpow_eq 1023 53
  have hpos := two_zpow_pos 970
  rw [overflow_eq, h]
  generalize (2 : ℚ) ^ (970 : ℤ) = x at hpos ⊢
  linarith

theorem overflow_lt : overflow < (2 : ℚ) ^ (1024 : ℤ) := by
  have h : (2 : ℚ) ^ (1024 : ℤ) = 2 ^ (970 : ℤ) * 2 ^ 54 := two_zpow_eq 1024 54
  have hpos := two_zpow_pos 970
  rw [overflow_eq, h]
  generalize (2 : ℚ) ^ (970 : ℤ) = x at hpos ⊢
  linarith

/-- The exponent that a number is rounded to, with a bit more if all bits are carried over, is in
range exactly if the number is below the bound. -/
theorem exponent_le_iff {v : ℚ} {n : ℤ} {k : Nat} (hv : v < 2 ^ (n + 53))
    (hn : n = -1074 ∨ (2 : ℚ) ^ (n + 52) ≤ v)
    (hk : k < 2 ^ 53 ↔ 2 * v < (2 ^ 54 - 1 : ℚ) * 2 ^ n) :
    (if k < 2 ^ 53 then n else n + 1) ≤ 971 ↔ v < overflow := by
  rcases lt_trichotomy n 971 with h | rfl | h
  · refine iff_of_true (by split_ifs <;> omega) ?_
    exact hv.trans_le ((zpow_le_zpow_right₀ (by norm_num) (by omega)).trans two_zpow_1023_lt.le)
  · have h971 : (2 : ℚ) ^ (971 : ℤ) = 2 ^ (970 : ℤ) * 2 ^ 1 := two_zpow_eq 971 1
    have hiff : k < 2 ^ 53 ↔ v < overflow := by
      rw [hk, overflow_eq, h971]
      constructor <;> intro h <;> linarith
    rw [← hiff]
    split_ifs with hlt
    · exact iff_of_true le_rfl hlt
    · exact iff_of_false (by omega) hlt
  · refine iff_of_false (by split_ifs <;> omega) ?_
    rw [not_lt]
    refine overflow_lt.le.trans (le_trans ?_ (hn.resolve_left (by omega)))
    exact zpow_le_zpow_right₀ (by norm_num) (by omega)

/-- What is known of a number `v` that rounds to `k` steps of `2 ^ n`.  All bits are carried over if
`k` has 54 of them. -/
structure RoundsToSteps (v : ℚ) (k : Nat) (n : ℤ) : Prop where
  most : k ≤ 2 ^ 53
  exponent : -1074 ≤ n
  least : n = -1074 ∨ 2 ^ 52 ≤ k
  inRange_iff : (if k < 2 ^ 53 then n else n + 1) ≤ 971 ↔ v < overflow
  grows : (2 : ℚ) ^ (-1022 : ℤ) ≤ v → 2 ^ 52 ≤ k ∧ (k : ℚ) * 2 ^ n ≤ v * (1 + roundoff)

theorem roundsToSteps_divHalfEven {a b k : Nat} {e n : ℤ} (hb : 0 < b)
    (he : e ≤ -1074 ∨ 2 ^ 52 ≤ a / b)
    (hn : Format.binary64.targetExponent (totalExponent (a / b) e) = n)
    (hk : divHalfEven a (b * 2 ^ (n - e).toNat) = k) :
    RoundsToSteps (a / b * 2 ^ e) k n := by
  obtain ⟨hupper, hmin, hlower⟩ := bounds_of_targetExponent hb he hn
  obtain ⟨hmost, hleast, hall, herror⟩ := bounds_of_divHalfEven hb (le_of_targetExponent he hn) hk
  generalize (a / b * 2 ^ e : ℚ) = v at hupper hlower hmost hleast hall herror ⊢
  refine ⟨hmost hupper, hmin, hlower.imp_right hleast, exponent_le_iff hupper hlower hall,
    fun hnormal => ?_⟩
  have hadd : (2 : ℚ) ^ (n + 52) = 2 ^ n * 2 ^ 52 := two_zpow_add n 52
  have hstep : (2 : ℚ) ^ (n + 52) ≤ v := by
    rcases hlower with h | h
    · rwa [show n + 52 = -1022 by omega]
    · exact h
  refine ⟨hleast hstep, ?_⟩
  rw [hadd] at hstep
  rw [roundoff]
  linarith

/-- An exponent stays that of a mantissa with bits to fill it. -/
theorem targetExponent_eq_self {k : Nat} {n : ℤ} (hmost : k < 2 ^ 53) (hn : -1074 ≤ n)
    (hleast : n = -1074 ∨ 2 ^ 52 ≤ k) :
    Format.binary64.targetExponent (totalExponent k n) = n := by
  have hlog : k.log2 < 53 := by
    rcases Nat.eq_zero_or_pos k with rfl | hpos
    · decide
    · exact (Nat.log2_lt (by omega)).2 hmost
  rw [targetExponent_binary64, totalExponent]
  rcases hleast with h | h
  · omega
  · have := (Nat.le_log2 (by omega)).2 h
    omega

section

variable {sign : Sign} {v : ℚ} {f : UnpackedFloat}

/-- What a number is rounded to: a mantissa of at most 53 bits with an exponent that is in range
exactly if the number is below the bound.  A number of normal size keeps 53 bits and becomes larger
by the relative error of one rounding at most. -/
theorem Rounds.spec (h : Rounds sign v f) : ∃ (m : Nat) (exponent : ℤ),
    (m < 2 ^ 53 ∧ -1074 ≤ exponent ∧ (2 ^ 52 ≤ m ∨ exponent = -1074)) ∧
      (exponent ≤ 971 ↔ v < overflow) ∧
      ((2 : ℚ) ^ (-1022 : ℤ) ≤ v →
        2 ^ 52 ≤ m ∧ (m : ℚ) * 2 ^ exponent ≤ v * (1 + roundoff)) ∧
      f = ofMantissa sign m exponent := by
  obtain ⟨a, b, e, hb, he, rfl, rfl⟩ := h
  obtain ⟨n, hn⟩ : ∃ n, Format.binary64.targetExponent (totalExponent (a / b) e) = n := ⟨_, rfl⟩
  obtain ⟨k, hk⟩ : ∃ k, divHalfEven a (b * 2 ^ (n - e).toNat) = k := ⟨_, rfl⟩
  have hle := le_of_targetExponent he hn
  obtain ⟨hmost, hmin, hleast, hrange, hgrows⟩ := roundsToSteps_divHalfEven hb he hn hk
  by_cases hlt : k < 2 ^ 53
  · have hexp := targetExponent_eq_self hlt hmin hleast
    rw [if_pos hlt] at hrange
    refine ⟨k, n, ⟨hlt, hmin, hleast.symm⟩, hrange, hgrows, ?_⟩
    rw [roundWithAccuracy_eq sign hb hn hle hk hexp le_rfl, sub_self, Int.toNat_zero, Nat.pow_zero,
      Nat.div_one]
  · -- all bits were carried over
    obtain rfl : k = 2 ^ 53 := by omega
    have hexp : Format.binary64.targetExponent (totalExponent (2 ^ 53) n) = n + 1 := by
      rw [targetExponent_binary64, totalExponent, Nat.log2_two_pow]
      omega
    have hsame : ((2 ^ 52 : Nat) : ℚ) * 2 ^ (n + 1) = ((2 ^ 53 : Nat) : ℚ) * 2 ^ n := by
      rw [zpow_add₀ (by norm_num)]
      push_cast
      ring
    have hone : (n + 1 - n).toNat = 1 := by omega
    rw [if_neg hlt] at hrange
    refine ⟨2 ^ 52, n + 1, ⟨by decide, by omega, Or.inl le_rfl⟩, hrange,
      fun hnormal => ⟨le_rfl, ?_⟩, ?_⟩
    · rw [hsame]
      exact (hgrows hnormal).2
    · rw [roundWithAccuracy_eq sign hb hn hle hk hexp (by omega), hone]
      rfl

theorem Rounds.fits_iff (h : Rounds sign v f) : Fits f ↔ v < overflow := by
  obtain ⟨m, exponent, hm, hexponent, -, rfl⟩ := h.spec
  rcases Nat.eq_zero_or_pos m with rfl | hpos
  · exact iff_of_true trivial (hexponent.1 (by omega))
  · rw [ofMantissa_of_pos sign hpos]
    exact hexponent

/-- What a number of normal size is rounded to. -/
theorem Rounds.exists_isDouble (h : Rounds sign v f) (hv : (2 : ℚ) ^ (-1022 : ℤ) ≤ v)
    (hlt : v < overflow) : ∃ (m : Nat) (exponent : ℤ) (hd : IsDouble m exponent),
      f = .finite sign m exponent hd.pos ∧ 2 ^ 52 ≤ m ∧
        (m : ℚ) * 2 ^ exponent ≤ v * (1 + roundoff) := by
  obtain ⟨m, exponent, ⟨hmost, hmin, hnormal⟩, hexponent, hround, rfl⟩ := h.spec
  obtain ⟨hbits, herror⟩ := hround hv
  exact ⟨m, exponent, ⟨by omega, hmost, hmin, hexponent.2 hlt, hnormal⟩,
    ofMantissa_of_pos sign (by omega) exponent, hbits, herror⟩

end

/-! ## Decimals -/

theorem isFinite_ofScientific {n : Nat} (hn : 0 < n) (negative : Bool) (k : Nat) :
    (Float.ofScientific n negative k).isFinite = true ↔
      (n * 10 ^ powerOf negative k : ℚ) < overflow := by
  obtain ⟨f, hf, hrounds | ⟨hlarge, rfl⟩ | ⟨hsmall, rfl⟩⟩ := ofScientific_eq_pack hn negative k
  · rw [hf, isFinite_ofModel_pack, hrounds.fits_iff]
  · rw [hf, isFinite_ofModel_pack]
    generalize powerOf negative k = power at *
    refine iff_of_false not_false (not_lt.2 ?_)
    have h1 : (2 : ℚ) ^ (1024 : ℤ) ≤ 10 ^ power := two_zpow_le_ten_zpow (by omega) (by omega)
    exact (overflow_lt.le.trans h1).trans
      (le_mul_of_one_le_left (ten_zpow_pos power).le (by exact_mod_cast hn))
  · rw [hf, isFinite_ofModel_pack]
    generalize powerOf negative k = power at *
    refine iff_of_true trivial ?_
    have h1 : (10 : ℚ) ^ power ≤ 2 ^ power := ten_zpow_le_two_zpow (by omega) (by omega)
    have h2 : (n : ℚ) ≤ 2 ^ ((n.log2 : ℤ) + 1) := by exact_mod_cast Nat.lt_log2_self.le
    calc (n : ℚ) * 10 ^ power ≤ 2 ^ ((n.log2 : ℤ) + 1) * 2 ^ power :=
          mul_le_mul h2 h1 (ten_zpow_pos power).le (two_zpow_pos _).le
      _ = 2 ^ ((n.log2 : ℤ) + 1 + power) := (zpow_add₀ (by norm_num) _ _).symm
      _ ≤ 2 ^ (1023 : ℤ) := zpow_le_zpow_right₀ (by norm_num) (by omega)
      _ < overflow := two_zpow_1023_lt

/-- The double nearest to a decimal is finite exactly if the decimal is below the bound. -/
theorem isFinite_nearest (n : Nat) (power : ℤ) :
    (nearest n power).isFinite = true ↔ (n * 10 ^ power : ℚ) < overflow := by
  unfold nearest
  dsimp only
  split_ifs with hsmall hlarge
  · refine iff_of_true (by decide) ?_
    have hpos : 0 < overflow := (two_zpow_pos 1023).trans two_zpow_1023_lt
    rcases hsmall with rfl | hsmall
    · rwa [Nat.cast_zero, zero_mul]
    · calc (n * 10 ^ power : ℚ) ≤ 10 ^ (((digits n).length : ℤ) + power) :=
          le_ten_zpow_digits n power
        _ ≤ 2 ^ (1023 : ℤ) := ten_zpow_le_two_zpow (by omega) (by omega)
        _ < overflow := two_zpow_1023_lt
  · refine iff_of_false (by decide) (not_lt.2 ?_)
    calc overflow ≤ 2 ^ (1024 : ℤ) := overflow_lt.le
      _ ≤ 2 ^ (1025 : ℤ) := zpow_le_zpow_right₀ (by norm_num) (by omega)
      _ ≤ 10 ^ (310 : ℤ) := two_zpow_1025_le
      _ ≤ 10 ^ (((digits n).length : ℤ) - 1 + power) :=
        zpow_le_zpow_right₀ (by norm_num) (by omega)
      _ ≤ n * 10 ^ power := ten_zpow_digits_le (by omega) power
  · rw [isFinite_ofScientific (by omega), powerOf_natAbs]

/-- The bound has 309 digits. -/
theorem overflow_digits : (10 : ℚ) ^ 308 < overflow ∧ overflow < 10 ^ 309 := by
  have hlow : 10 ^ 308 + 2 ^ 970 < 2 ^ 1024 := by decide +kernel
  have hhigh : 2 ^ 1024 < 10 ^ 309 + 2 ^ 970 := by decide +kernel
  rw [overflow, lt_sub_iff_add_lt, sub_lt_iff_lt_add]
  exact ⟨by exact_mod_cast hlow, by exact_mod_cast hhigh⟩

/-- A natural is rounded once when it is converted. -/
theorem ofNat_rounds {n : Nat} (hn : 0 < n) :
    ∃ f, Float.ofNat n = .ofModel (.pack f) ∧ Rounds .positive n f := by
  obtain ⟨f, hf, hrounds | ⟨hlarge, -⟩ | ⟨hsmall, -⟩⟩ := ofScientific_eq_pack hn false 0
  · have hvalue : (n * 10 ^ powerOf false 0 : ℚ) = n := mul_one _
    exact ⟨f, hf, hvalue ▸ hrounds⟩
  · exact absurd hlarge (by decide)
  · have hzero : powerOf false 0 = 0 := rfl
    omega

/-- A power of ten in range is rounded once. -/
theorem nearest_one_rounds {k : Nat} (hk : k ≤ 308) :
    ∃ f, nearest 1 k = .ofModel (.pack f) ∧ Rounds .positive (10 ^ k) f := by
  have hlen : (digits 1).length = 1 := rfl
  have hpower : powerOf false k = k := rfl
  have hnearest : nearest 1 k = Float.ofScientific 1 false k := by
    unfold nearest
    simp only [hlen]
    rw [if_neg (by omega), if_neg (by omega), decide_eq_false (by omega), Int.natAbs_natCast]
  obtain ⟨f, hf, hrounds | ⟨hlarge, -⟩ | ⟨hsmall, -⟩⟩ := ofScientific_eq_pack Nat.one_pos false k
  · rw [hpower, Nat.cast_one, one_mul, zpow_natCast] at hrounds
    exact ⟨f, hnearest.trans hf, hrounds⟩
  · omega
  · omega

/-- The size of the number that is written with an optional sign and an optional point. -/
def magnitude (s : List Char) : ℚ :=
  value (s.filter isDigit) / 10 ^ (s.dropWhile (· != '.')).tail.length

theorem magnitude_numeral {whole places : List Char} (negative : Bool)
    (hw : ∀ c ∈ whole, isDigit c = true) (hp : ∀ c ∈ places, isDigit c = true) :
    magnitude (sign negative ++ (whole ++ point places)) =
      value (whole ++ places) * 10 ^ (-(places.length : ℤ)) := by
  have hdigits : (sign negative ++ (whole ++ point places)).filter isDigit = whole ++ places := by
    have hsign : (sign negative).filter isDigit = [] := by cases negative <;> rfl
    have hpoint : (point places).filter isDigit = places := by
      unfold point
      split_ifs with hnil
      · exact hnil.symm
      · exact List.filter_eq_self.2 hp
    rw [List.filter_append, List.filter_append, hsign, hpoint, List.filter_eq_self.2 hw,
      List.nil_append]
  have hplaces : ((sign negative ++ (whole ++ point places)).dropWhile (· != '.')).tail =
      places := by
    have hfront : ∀ c ∈ sign negative ++ whole, (c != '.') = true := by
      intro c hc
      rcases List.mem_append.1 hc with hc | hc
      · rw [eq_of_mem_sign hc]
        rfl
      · exact bne_iff_ne.2 (isDigit_ne (hw c hc) (by decide))
    have hstops : Text.Stops (· != '.') (point places) := by
      unfold point
      split_ifs
      · exact Text.stops_nil _
      · exact Text.stops_cons_iff.2 (by decide)
    rw [← List.append_assoc, Text.dropWhile_append_of_stops hfront hstops, point]
    split_ifs with hnil
    · exact hnil.symm
    · rfl
  rw [magnitude, hdigits, hplaces, zpow_neg, zpow_natCast, div_eq_mul_inv]

/-- A numeral reads as a finite double exactly if its size is below the bound. -/
theorem isFinite_read?_numeral {whole places : List Char} (negative : Bool) (hne : whole ≠ [])
    (hw : ∀ c ∈ whole, isDigit c = true) (hp : ∀ c ∈ places, isDigit c = true) {x : Float}
    (h : read? (sign negative ++ (whole ++ point places)) = some x) :
    x.isFinite = true ↔ magnitude (sign negative ++ (whole ++ point places)) < overflow := by
  rw [read?_numeral negative hne hw hp, Option.some_inj] at h
  rw [magnitude_numeral negative hw hp, ← isFinite_nearest, ← h]
  cases negative
  · rfl
  · rw [signed, if_pos rfl, isFinite_neg]

end FreeBody.Decimal
