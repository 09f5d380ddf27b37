import FreeBody.Proofs.Decimal.Sums

/-!
# Scaling by a natural

A positive double times a natural, or over one, is the exact result rounded once.  The product is
infinite exactly if the exact one reaches `overflow` (`IsPositive.mul_ofNat`), and a quotient is
not below any power of two that the exact one is not below (`IsPositive.div_ofNat`).  Rounding to
a whole number gives zero or one or more (`IsPositive.roundsAway`).  None of these takes notice of
the sign.
-/

open Float.Model Float.Model.UnpackedFloat

namespace FreeBody.Decimal

/-! ## Signs -/

theorem roundWithAccuracy_neg (s : Sign) (m : Nat) (e : ℤ) (acc : Accuracy) :
    roundWithAccuracy .binary64 (-s) m e acc = (roundWithAccuracy .binary64 s m e acc).neg := by
  unfold roundWithAccuracy
  dsimp only
  rw [apply_dite UnpackedFloat.neg]
  rfl

section

variable {v : ℚ} {f : UnpackedFloat} {x y : Float}

/-- The negative of what a number is rounded to is packed as the negative double. -/
theorem Rounds.neg_pack (h : Rounds .positive v f) :
    Float.ofModel (.pack f.neg) = -Float.ofModel (.pack f) := by
  obtain ⟨m, e, ⟨hmost, hmin, hnormal⟩, -, -, rfl⟩ := h.spec
  rcases Nat.eq_zero_or_pos m with rfl | hpos
  · have hzero : ofMantissa .positive 0 e = .zero .positive := rfl
    rw [hzero]
    rfl
  · rw [ofMantissa_of_pos .positive hpos]
    rcases le_or_gt e 971 with hsmall | hlarge
    · exact (neg_pack_finite ⟨hpos, hmost, hmin, hsmall, hnormal⟩).symm
    · have hneg : Float.Model.pack (UnpackedFloat.finite .positive m e hpos).neg =
          .pack (.infinity .negative) := pack_of_large .negative hlarge hpos
      rw [hneg, pack_of_large .positive hlarge hpos]
      rfl

/-! ## Parts -/

theorem signOf_injective {b c : Bool} (h : signOf b = signOf c) : b = c := by
  cases b <;> cases c <;> first | rfl | cases h

/-- The parts of a double are what it is unpacked to. -/
theorem ofFloat_of_unpack {m : Nat} {e : ℤ} {hm : 0 < m} {negative : Bool}
    (h : x.toModel.unpack = .finite (signOf negative) m e hm) :
    Binary.ofFloat x = .finite negative m e := by
  have hfinite : x.isFinite = true := congrArg UnpackedFloat.isFinite h
  obtain ⟨negative', m', e', hx⟩ := isFinite_iff.1 hfinite
  rcases Nat.eq_zero_or_pos m' with rfl | hpos
  · rw [eq_pack_zero_of_ofFloat hx] at h
    cases negative' <;> cases h
  · have hunpack : (Float.Model.pack (.finite (signOf negative') m' e' hpos)).unpack =
        .finite (signOf negative') m' e' hpos := unpack_pack_finite (isDouble_of_ofFloat hx hpos) _
    rw [eq_pack_of_ofFloat hx hpos] at h
    obtain ⟨hsign, rfl, rfl⟩ := UnpackedFloat.finite.inj (hunpack.symm.trans h)
    rw [hx, signOf_injective hsign]

theorem unpack_neg {m : Nat} {e : ℤ} (hd : IsDouble m e)
    (h : x.toModel.unpack = .finite .positive m e hd.pos) :
    (-x).toModel.unpack = .finite .negative m e hd.pos := by
  have hneg : (Float.Model.pack (.finite .negative m e hd.pos)).unpack =
      .finite .negative m e hd.pos := unpack_pack_finite hd _
  have hparts : Binary.ofFloat x = .finite false m e := ofFloat_of_unpack h
  rw [eq_pack_of_ofFloat hparts hd.pos]
  exact (congrArg (fun z => z.toModel.unpack) (neg_pack_finite hd)).trans hneg

/-- A positive double and its negative have the same parts but for the sign. -/
theorem IsPositive.parts (h : IsPositive x) : ∃ m e, IsDouble m e ∧ number x = m * 2 ^ e ∧
    Binary.ofFloat x = .finite false m e ∧ Binary.ofFloat (-x) = .finite true m e := by
  obtain ⟨m, e, hd, hx⟩ := h
  exact ⟨m, e, hd, number_eq hx, ofFloat_of_unpack hx, ofFloat_of_unpack (unpack_neg hd hx)⟩

theorem number_of_not_finite (h : x.isFinite = false) : number x = 0 := by
  have hmodel : x.toModel.unpack.isFinite = false := h
  unfold number
  generalize x.toModel.unpack = f at hmodel
  cases f <;> first | rfl | cases hmodel

/-- A finite double is a zero, or a positive double or its negative. -/
theorem sign_cases (h : x.isFinite = true) :
    (∃ sign, x = .ofModel (.pack (.zero sign))) ∨ IsPositive x ∨
      ∃ y, IsPositive y ∧ x = -y ∧ -x = y ∧ number x = -number y := by
  obtain ⟨negative, m, e, hparts⟩ := isFinite_iff.1 h
  rcases Nat.eq_zero_or_pos m with rfl | hm
  · exact Or.inl ⟨_, eq_pack_zero_of_ofFloat hparts⟩
  · have hd := isDouble_of_ofFloat hparts hm
    have hpositive : (Float.Model.pack (.finite .positive m e hm)).unpack =
        .finite .positive m e hm := unpack_pack_finite hd _
    have hx := eq_pack_of_ofFloat hparts hm
    cases negative with
    | false => exact Or.inr (Or.inl ⟨m, e, hd, hx ▸ hpositive⟩)
    | true =>
      have hnegative : x.toModel.unpack = .finite .negative m e hm :=
        hx ▸ unpack_pack_finite hd _
      refine Or.inr (Or.inr ⟨.ofModel (.pack (.finite .positive m e hm)), ⟨m, e, hd, hpositive⟩,
        hx.trans (neg_pack_finite hd).symm, ?_, ?_⟩)
      · show Float.ofModel (.pack x.toModel.unpack.neg) = _
        rw [hnegative]
        rfl
      · have hnumber : number (.ofModel (.pack (.finite .positive m e hm))) = m * 2 ^ e :=
          number_eq hpositive
        rw [hnumber, number, hnegative, toRat_finite]
        simp only [Sign.apply, Int.cast_neg, Int.cast_natCast, neg_mul]

theorem IsPositive.number_lt_overflow (h : IsPositive x) : number x < overflow := by
  obtain ⟨m, e, hd, hx⟩ := h
  have hle := abs_toRat_le (.finite .positive hd)
  have hpos := two_zpow_pos 970
  rw [← hx] at hle
  exact (le_abs_self _).trans_lt (lt_of_lt_of_le (lt_add_of_pos_right _ hpos) hle)

/-! ## Multiplying and dividing -/

section

variable {n : Nat} (hn : 0 < n) (hlt : n < 2 ^ 53)

include hn hlt

theorem unpack_ofNat : ∃ (m : Nat) (e : ℤ) (hd : IsDouble m e),
    (Float.ofNat n).toModel.unpack = .finite .positive m e hd.pos ∧ 2 ^ 52 ≤ m ∧
      (m : ℚ) * 2 ^ e = n := by
  obtain ⟨hd, h⟩ := ofNat_eq_pack hn hlt
  have hunpack : (Float.Model.pack (.finite .positive (normal n).1 (normal n).2 hd.pos)).unpack =
      .finite .positive (normal n).1 (normal n).2 hd.pos := unpack_pack_finite hd _
  refine ⟨_, _, hd, (congrArg (fun z => z.toModel.unpack) h).trans hunpack, ?_,
    normal_value hn hlt⟩
  exact hd.normal.resolve_right (by unfold normal; omega)

/-- A product is rounded once, and infinite if it is too large. -/
theorem IsPositive.mul_ofNat (hx : IsPositive x) :
    (number x * n < overflow ∧ IsPositive (x * Float.ofNat n) ∨
      overflow ≤ number x * n ∧ x * Float.ofNat n = infinity) ∧
    -x * Float.ofNat n = -(x * Float.ofNat n) := by
  have hbits := hx.hasBits
  have hpos := hx.number_pos
  obtain ⟨m, e, hd, hx⟩ := hx
  obtain ⟨m', e', hd', hn', hfull, hvalue⟩ := unpack_ofNat hn hlt
  have hone : (1 : ℚ) ≤ n := by exact_mod_cast hn
  have hproduct : (m : ℚ) * m' * 2 ^ (e + e') = number x * n := by
    rw [number_eq hx, ← hvalue, zpow_add₀ (by norm_num)]
    ring
  have hrounds := rounds_mul .positive .positive e e' hd.pos hd'.pos
    (hfull.trans (Nat.le_mul_of_pos_left m' hd.pos))
  rw [hproduct] at hrounds
  have hmul : x * Float.ofNat n = .ofModel (.pack (UnpackedFloat.mul .binary64
      (.finite .positive m e hd.pos) (.finite .positive m' e' hd'.pos))) := by
    rw [← hx, ← hn']
    rfl
  have hneg : -x * Float.ofNat n = .ofModel (.pack (UnpackedFloat.mul .binary64
      (.finite .negative m e hd.pos) (.finite .positive m' e' hd'.pos))) := by
    rw [← unpack_neg hd hx, ← hn']
    rfl
  have hle := hrounds.le_toRat hbits (le_mul_of_one_le_right hpos.le hone)
  refine ⟨?_, ?_⟩
  · rw [hmul]
    exact (hrounds.double (hpos.trans_le hle)).imp (And.imp_right And.left)
      (And.imp_right And.right)
  · rw [hneg, hmul, ← hrounds.neg_pack]
    exact congrArg (fun f => Float.ofModel (.pack f)) (roundWithAccuracy_neg .positive _ _ _)

/-- A quotient is rounded once, but not below a power of two. -/
theorem IsPositive.div_ofNat (hx : IsPositive x) {k : ℤ} (hk : -1074 ≤ k)
    (hle : (2 : ℚ) ^ k ≤ number x / n) :
    IsPositive (x / Float.ofNat n) ∧ (2 : ℚ) ^ k ≤ number (x / Float.ofNat n) ∧
      -x / Float.ofNat n = -(x / Float.ofNat n) := by
  have hlarge := hx.number_lt_overflow
  have hpos := hx.number_pos
  obtain ⟨m, e, hd, hx⟩ := hx
  obtain ⟨m', e', hd', hn', -, hvalue⟩ := unpack_ofNat hn hlt
  have hone : (1 : ℚ) ≤ n := by exact_mod_cast hn
  have hquotient : (m : ℚ) / m' * 2 ^ (e - e') = number x / n := by
    rw [number_eq hx, ← hvalue, zpow_sub₀ (by norm_num)]
    exact div_mul_div_comm _ _ _ _
  have hrounds := rounds_div .positive .positive e e' hd.pos hd'.pos
  rw [hquotient] at hrounds
  have hdiv : x / Float.ofNat n = .ofModel (.pack (UnpackedFloat.div .binary64
      (.finite .positive m e hd.pos) (.finite .positive m' e' hd'.pos))) := by
    rw [← hx, ← hn']
    rfl
  have hneg : -x / Float.ofNat n = .ofModel (.pack (UnpackedFloat.div .binary64
      (.finite .negative m e hd.pos) (.finite .positive m' e' hd'.pos))) := by
    rw [← unpack_neg hd hx, ← hn']
    rfl
  have hge := hrounds.le_toRat (hasBits_two_zpow hk) hle
  have hless : number x / n < overflow := (div_le_self hpos.le hone).trans_lt hlarge
  obtain ⟨-, hdouble, hnumber⟩ | ⟨habove, -⟩ := hrounds.double ((two_zpow_pos k).trans_le hge)
  · refine ⟨hdiv ▸ hdouble, ?_, ?_⟩
    · rw [hdiv, hnumber]
      exact hge
    · rw [hneg, hdiv, ← hrounds.neg_pack]
      exact congrArg (fun f => Float.ofModel (.pack f)) (roundWithAccuracy_neg .positive _ _ _)
  · exact absurd hless habove.not_gt

end

/-! ## Rounding to a whole number -/

/-- A positive double is rounded to zero, or to one or more. -/
theorem IsPositive.roundsAway (hx : IsPositive x) :
    roundAway x = 0 ∧ roundAway (-x) = -0 ∨
      IsPositive (roundAway x) ∧ 1 ≤ number (roundAway x) ∧ roundAway (-x) = -roundAway x := by
  obtain ⟨m, e, hd, hnumber, hparts, hneg⟩ := hx.parts
  unfold roundAway
  rw [hparts, hneg]
  dsimp only
  by_cases he : 0 ≤ e
  · -- then it is whole
    rw [if_pos he, if_pos he]
    refine Or.inr ⟨hx, ?_, rfl⟩
    have hm : (1 : ℚ) ≤ m := by exact_mod_cast hd.pos
    rw [hnumber]
    exact one_le_mul_of_one_le_of_one_le hm (one_le_zpow₀ (by norm_num) he)
  · rw [if_neg he, if_neg he, if_neg Bool.false_ne_true, if_pos rfl]
    have hunit : 2 ^ 1 ≤ Nat.pow 2 (-e).toNat := Nat.pow_le_pow_right Nat.two_pos (by omega)
    generalize Nat.pow 2 (-e).toNat = unit at hunit ⊢
    have hlt : (2 * m + unit) / (2 * unit) < 2 ^ 53 := by
      have hmost := hd.lt
      rw [Nat.div_lt_iff_lt_mul (by omega)]
      omega
    generalize (2 * m + unit) / (2 * unit) = size at hlt ⊢
    rcases Nat.eq_zero_or_pos size with rfl | hpos
    · exact Or.inl ⟨rfl, rfl⟩
    · obtain ⟨m', e', hd', hn', -, hvalue⟩ := unpack_ofNat hpos hlt
      refine Or.inr ⟨⟨m', e', hd', hn'⟩, ?_, rfl⟩
      rw [number_eq hn', hvalue]
      exact_mod_cast hpos

end

end FreeBody.Decimal
