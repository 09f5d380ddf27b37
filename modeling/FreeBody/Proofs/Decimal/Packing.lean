import FreeBody.Proofs.Decimal.Interval

/-!
# Packing and unpacking doubles

The logical model of doubles computes on unpacked values and packs the results into 64 bits, which
`Binary.ofFloat` takes apart again.  Packing loses nothing of a finite value
(`unpack_pack_finite`), and a double is what its parts are packed to (`eq_pack_of_ofFloat`).
-/

open Float.Model Float.Model.UnpackedFloat

namespace FreeBody.Decimal

/-! ## Fields -/

theorem toNat_packComponents (sign : Sign) (e : BitVec 11) (m : BitVec 52) :
    (packComponents .binary64 sign e m).toNat =
      sign.toBitVec.toNat * 2 ^ 63 + e.toNat * 2 ^ 52 + m.toNat := by
  show (sign.toBitVec ++ e ++ m).toNat = _
  rw [BitVec.toNat_append, BitVec.toNat_append, ← Nat.shiftLeft_add_eq_or_of_lt e.isLt,
    ← Nat.shiftLeft_add_eq_or_of_lt m.isLt, Nat.shiftLeft_eq, Nat.shiftLeft_eq]
  omega

theorem toNat_unpackExponent (b : BitVec 64) :
    (@unpackExponent .binary64 b).toNat = b.toNat / 2 ^ 52 % 2 ^ 11 := by
  show (b.extractLsb 62 52).toNat = _
  rw [BitVec.extractLsb_toNat, Nat.shiftRight_eq_div_pow]

theorem toNat_unpackSign (b : BitVec 64) :
    (@unpackSign .binary64 b).toNat = b.toNat / 2 ^ 63 := by
  show (b.extractLsb 63 63).toNat = _
  rw [BitVec.extractLsb_toNat, Nat.shiftRight_eq_div_pow]
  have := b.isLt
  omega

theorem unpackSign_packComponents (sign : Sign) (e : BitVec 11) (m : BitVec 52) :
    @unpackSign .binary64 (packComponents .binary64 sign e m) = sign.toBitVec := by
  apply BitVec.eq_of_toNat_eq
  have he := e.isLt
  have hm := m.isLt
  rw [toNat_unpackSign, toNat_packComponents]
  omega

theorem ofBitVec_toBitVec (sign : Sign) : Sign.ofBitVec sign.toBitVec = sign := by
  cases sign <;> rfl

/-! ## Unpacking -/

theorem finite_congr {sign sign' : Sign} {m m' : Nat} {e e' : ℤ} {h : 0 < m} {h' : 0 < m'}
    (hs : sign = sign') (hm : m = m') (he : e = e') :
    UnpackedFloat.finite sign m e h = .finite sign' m' e' h' := by
  subst hs hm he
  rfl

theorem unpack_subnormal (sign : Sign) (m : BitVec 52) (hm : 0 < m.toNat) :
    UnpackedFloat.unpack .binary64 (packComponents .binary64 sign 0#11 m) =
      .finite sign m.toNat (-1074) hm := by
  have hne : m ≠ 0#52 := by
    rintro rfl
    exact absurd hm (by decide)
  have hmantissa : @unpackMantissa .binary64 (packComponents .binary64 sign 0#11 m) = m :=
    unpackMantissa_packComponents
  have hexponent : @unpackExponent .binary64 (packComponents .binary64 sign 0#11 m) = 0#11 :=
    unpackExponent_packComponents
  unfold UnpackedFloat.unpack
  dsimp only
  rw [if_neg (by rw [hexponent]; decide), if_pos hexponent, dif_neg (by rw [hmantissa]; exact hne)]
  refine finite_congr ?_ (congrArg BitVec.toNat hmantissa) ?_
  · rw [unpackSign_packComponents, ofBitVec_toBitVec]
  · rw [hexponent]
    rfl

theorem unpack_normal (sign : Sign) (e : BitVec 11) (m : BitVec 52) (h0 : 0 < e.toNat)
    (h1 : e.toNat < 2047) :
    UnpackedFloat.unpack .binary64 (packComponents .binary64 sign e m) =
      .finite sign (m.toNat + 2 ^ 52) (e.toNat - 1075) (by omega) := by
  have hzero : e ≠ 0#11 := by
    rintro rfl
    exact absurd h0 (by decide)
  have hones : e ≠ -1#11 := by
    rintro rfl
    exact absurd h1 (by decide)
  have hm : (1#1 ++ m).toNat = m.toNat + 2 ^ 52 := by
    rw [BitVec.toNat_append, ← Nat.shiftLeft_add_eq_or_of_lt m.isLt, Nat.add_comm]
    rfl
  have hmantissa : @unpackMantissa .binary64 (packComponents .binary64 sign e m) = m :=
    unpackMantissa_packComponents
  have hexponent : @unpackExponent .binary64 (packComponents .binary64 sign e m) = e :=
    unpackExponent_packComponents
  unfold UnpackedFloat.unpack
  dsimp only
  rw [if_neg (by rw [hexponent]; exact hones), if_neg (by rw [hexponent]; exact hzero)]
  refine finite_congr ?_ ?_ ?_
  · rw [unpackSign_packComponents, ofBitVec_toBitVec]
  · rw [hmantissa]
    exact hm
  · rw [hexponent]
    rfl

/-! ## Packing -/

section

variable {mantissa : Nat} {exponent : ℤ}

theorem pack_finite (hd : IsDouble mantissa exponent) (sign : Sign) :
    UnpackedFloat.pack .binary64 (.finite sign mantissa exponent hd.pos) =
      packComponents .binary64 sign
        (BitVec.ofNat 11 (if 2 ^ 52 ≤ mantissa then (exponent + 1075).toNat else 0))
        (BitVec.ofNat 52 mantissa) := by
  have hlog : mantissa.log2 < 53 := (Nat.log2_lt (by have := hd.pos; omega)).2 hd.lt
  have hbiased : exponent + (Format.binary64.exponentBias : ℤ) + (52 : Nat) = exponent + 1075 := by
    show exponent + 1023 + 52 = _
    omega
  have hbits : Format.binary64.mantissaBits = 53 := rfl
  have hge := hd.ge
  have hle := hd.le
  unfold UnpackedFloat.pack
  simp only [hbiased, hbits]
  rw [if_neg (by omega)]
  by_cases hn : 2 ^ 52 ≤ mantissa
  · have : 52 ≤ mantissa.log2 := (Nat.le_log2 (by omega)).2 hn
    rw [if_pos (by omega), if_pos hn]
  · have : mantissa.log2 < 52 := (Nat.log2_lt (by have := hd.pos; omega)).2 (by omega)
    rw [if_neg (by omega), if_neg hn]

/-- Packing loses nothing. -/
theorem unpack_pack_finite (hd : IsDouble mantissa exponent) (sign : Sign) :
    UnpackedFloat.unpack .binary64
        (UnpackedFloat.pack .binary64 (.finite sign mantissa exponent hd.pos)) =
      .finite sign mantissa exponent hd.pos := by
  have hpos := hd.pos
  have hlt := hd.lt
  have hge := hd.ge
  have hle := hd.le
  rw [pack_finite hd]
  by_cases hn : 2 ^ 52 ≤ mantissa
  · have he : (BitVec.ofNat 11 (exponent + 1075).toNat).toNat = (exponent + 1075).toNat := by
      rw [BitVec.toNat_ofNat, Nat.mod_eq_of_lt (by omega)]
    have hm : (BitVec.ofNat 52 mantissa).toNat = mantissa - 2 ^ 52 := by
      rw [BitVec.toNat_ofNat]
      omega
    rw [if_pos hn, unpack_normal sign _ _ (by omega) (by omega)]
    exact finite_congr rfl (by omega) (by omega)
  · have hm : (BitVec.ofNat 52 mantissa).toNat = mantissa := by
      rw [BitVec.toNat_ofNat, Nat.mod_eq_of_lt (by omega)]
    have he := hd.normal.resolve_left hn
    rw [if_neg hn, unpack_subnormal sign _ (by omega)]
    exact finite_congr rfl hm he.symm

/-! ## The parts of a double -/

/-- The sign that a minus stands for. -/
def signOf (negative : Bool) : Sign := if negative then .negative else .positive

theorem toNat_signOf (negative : Bool) : (signOf negative).toBitVec.toNat = negative.toNat := by
  cases negative <;> rfl

/-- The three fields that `Binary.ofFloat` reads a finite value from. -/
theorem fields_of_ofFloat {x : Float} {negative : Bool}
    (h : Binary.ofFloat x = .finite negative mantissa exponent) :
    x.toBits.toNat / 2 ^ 63 = negative.toNat ∧
      (x.toBits.toNat / 2 ^ 52 % 2 ^ 11 = 0 ∧ mantissa = x.toBits.toNat % 2 ^ 52 ∧
          exponent = -1074 ∨
        0 < x.toBits.toNat / 2 ^ 52 % 2 ^ 11 ∧ x.toBits.toNat / 2 ^ 52 % 2 ^ 11 < 2047 ∧
          mantissa = x.toBits.toNat % 2 ^ 52 + 2 ^ 52 ∧
          exponent = ((x.toBits.toNat / 2 ^ 52 % 2 ^ 11 : Nat) : ℤ) - 1075) := by
  have hlt : x.toBits.toNat < 2 ^ 64 := x.toBits.toNat_lt
  unfold Binary.ofFloat at h
  simp only [Nat.pow_eq, beq_iff_eq] at h
  generalize x.toBits.toNat = n at *
  have hsign : (n / 2 ^ 63 == 1).toNat = n / 2 ^ 63 := by
    by_cases h1 : n / 2 ^ 63 = 1
    · rw [h1]
      rfl
    · rw [beq_false_of_ne h1, Bool.toNat_false]
      omega
  split_ifs at h with h2 h3 h4
  · rw [Binary.finite.injEq] at h
    obtain ⟨rfl, rfl, rfl⟩ := h
    exact ⟨hsign.symm, Or.inl ⟨h4, rfl, rfl⟩⟩
  · rw [Binary.finite.injEq] at h
    obtain ⟨rfl, rfl, rfl⟩ := h
    exact ⟨hsign.symm, Or.inr ⟨by omega, by omega, rfl, rfl⟩⟩

theorem eq_ofModel_pack {x : Float} {f : UnpackedFloat}
    (h : x.toBits.toNat = (UnpackedFloat.pack .binary64 f).toNat) : x = .ofModel (.pack f) := by
  rcases x with ⟨⟨bits, valid⟩⟩
  have : bits = UInt64.ofBitVec (UnpackedFloat.pack .binary64 f) := UInt64.toNat_inj.1 h
  subst this
  rfl

/-- The largest exponent field is kept for what is not finite. -/
theorem isFinite_iff_field {x : Float} :
    x.isFinite = true ↔ x.toBits.toNat / 2 ^ 52 % 2 ^ 11 ≠ 2047 := by
  have hones : @unpackExponent .binary64 x.toBits.toBitVec = -1#11 ↔
      x.toBits.toNat / 2 ^ 52 % 2 ^ 11 = 2047 := by
    rw [← BitVec.toNat_inj, toNat_unpackExponent]
    exact Iff.rfl
  rw [Ne, ← hones]
  show UnpackedFloat.isFinite (UnpackedFloat.unpack .binary64 x.toBits.toBitVec) = true ↔ _
  unfold UnpackedFloat.unpack
  dsimp only
  by_cases h : @unpackExponent .binary64 x.toBits.toBitVec = -1#11
  · rw [if_pos h]
    by_cases hm : @unpackMantissa .binary64 x.toBits.toBitVec = 0#52
    · rw [if_pos hm]
      exact iff_of_false Bool.false_ne_true (not_not_intro h)
    · rw [if_neg hm]
      exact iff_of_false Bool.false_ne_true (not_not_intro h)
  · rw [if_neg h]
    by_cases h0 : @unpackExponent .binary64 x.toBits.toBitVec = 0#11
    · rw [if_pos h0]
      by_cases hm : @unpackMantissa .binary64 x.toBits.toBitVec = 0#52
      · rw [dif_pos hm]
        exact iff_of_true rfl h
      · rw [dif_neg hm]
        exact iff_of_true rfl h
    · rw [if_neg h0]
      exact iff_of_true rfl h

theorem isFinite_iff {x : Float} : x.isFinite = true ↔
    ∃ negative mantissa exponent, Binary.ofFloat x = .finite negative mantissa exponent := by
  rw [isFinite_iff_field]
  constructor
  · intro h
    unfold Binary.ofFloat
    simp only [Nat.pow_eq, beq_iff_eq]
    rw [if_neg h]
    split_ifs <;> exact ⟨_, _, _, rfl⟩
  · rintro ⟨negative, mantissa, exponent, h⟩
    obtain ⟨-, ⟨h0, -, -⟩ | ⟨-, h1, -, -⟩⟩ := fields_of_ofFloat h
    · omega
    · omega

/-- The parts that `Binary.ofFloat` finds are those of a double. -/
theorem isDouble_of_ofFloat {x : Float} {negative : Bool}
    (h : Binary.ofFloat x = .finite negative mantissa exponent) (hpos : 0 < mantissa) :
    IsDouble mantissa exponent := by
  obtain ⟨-, ⟨h0, rfl, rfl⟩ | ⟨h0, h1, rfl, rfl⟩⟩ := fields_of_ofFloat h
  · exact ⟨hpos, by omega, le_rfl, by decide, Or.inr rfl⟩
  · exact ⟨hpos, by omega, by omega, by omega, Or.inl (by omega)⟩

/-- A double is its parts packed. -/
theorem eq_pack_of_ofFloat {x : Float} {negative : Bool}
    (h : Binary.ofFloat x = .finite negative mantissa exponent) (hpos : 0 < mantissa) :
    x = .ofModel (.pack (.finite (signOf negative) mantissa exponent hpos)) := by
  apply eq_ofModel_pack
  rw [pack_finite (isDouble_of_ofFloat h hpos), toNat_packComponents, toNat_signOf,
    BitVec.toNat_ofNat, BitVec.toNat_ofNat]
  obtain ⟨hs, ⟨h0, rfl, rfl⟩ | ⟨h0, h1, rfl, rfl⟩⟩ := fields_of_ofFloat h
  · rw [if_neg (by omega)]
    omega
  · rw [if_pos (by omega)]
    omega

theorem eq_pack_zero_of_ofFloat {x : Float} {negative : Bool}
    (h : Binary.ofFloat x = .finite negative 0 exponent) :
    x = .ofModel (.pack (.zero (signOf negative))) := by
  apply eq_ofModel_pack
  show _ = (packComponents .binary64 (signOf negative) 0#11 0#52).toNat
  rw [toNat_packComponents, toNat_signOf, BitVec.toNat_zero, BitVec.toNat_zero]
  obtain ⟨hs, ⟨h0, h1, rfl⟩ | ⟨h0, h1, h2, rfl⟩⟩ := fields_of_ofFloat h
  · omega
  · omega

/-! ## Operations on packed values -/

theorem neg_pack_finite (hd : IsDouble mantissa exponent) :
    -Float.ofModel (.pack (.finite .positive mantissa exponent hd.pos)) =
      .ofModel (.pack (.finite .negative mantissa exponent hd.pos)) := by
  have h : (Float.Model.pack (.finite .positive mantissa exponent hd.pos)).unpack = _ :=
    unpack_pack_finite hd .positive
  show Float.ofModel (.pack (Float.Model.unpack _).neg) = _
  rw [h]
  rfl

theorem mul_pack_finite {m₁ m₂ : Nat} {e₁ e₂ : ℤ} (h₁ : IsDouble m₁ e₁) (h₂ : IsDouble m₂ e₂) :
    Float.ofModel (.pack (.finite .positive m₁ e₁ h₁.pos)) *
        .ofModel (.pack (.finite .positive m₂ e₂ h₂.pos)) =
      .ofModel (.pack (UnpackedFloat.mul .binary64 (.finite .positive m₁ e₁ h₁.pos)
        (.finite .positive m₂ e₂ h₂.pos))) := by
  have u₁ : (Float.Model.pack (.finite .positive m₁ e₁ h₁.pos)).unpack = _ :=
    unpack_pack_finite h₁ .positive
  have u₂ : (Float.Model.pack (.finite .positive m₂ e₂ h₂.pos)).unpack = _ :=
    unpack_pack_finite h₂ .positive
  show Float.ofModel (.pack (UnpackedFloat.mul .binary64 (Float.Model.unpack _)
    (Float.Model.unpack _))) = _
  rw [u₁, u₂]

theorem div_pack_finite {m₁ m₂ : Nat} {e₁ e₂ : ℤ} (h₁ : IsDouble m₁ e₁) (h₂ : IsDouble m₂ e₂) :
    Float.ofModel (.pack (.finite .positive m₁ e₁ h₁.pos)) /
        .ofModel (.pack (.finite .positive m₂ e₂ h₂.pos)) =
      .ofModel (.pack (UnpackedFloat.div .binary64 (.finite .positive m₁ e₁ h₁.pos)
        (.finite .positive m₂ e₂ h₂.pos))) := by
  have u₁ : (Float.Model.pack (.finite .positive m₁ e₁ h₁.pos)).unpack = _ :=
    unpack_pack_finite h₁ .positive
  have u₂ : (Float.Model.pack (.finite .positive m₂ e₂ h₂.pos)).unpack = _ :=
    unpack_pack_finite h₂ .positive
  show Float.ofModel (.pack (UnpackedFloat.div .binary64 (Float.Model.unpack _)
    (Float.Model.unpack _))) = _
  rw [u₁, u₂]

end

end FreeBody.Decimal
