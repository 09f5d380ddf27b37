import FreeBody.Json.Draft
import FreeBody.Proofs.Decimal.Overflow

/-!
# Numbers that are taken in

Reading a number keeps as many leading digits as fit a word, converts them to a double and
multiplies it by a power of ten; both factors and the product are rounded.  The digits that are
dropped make the number no larger, and each rounding makes it larger by one part in `2 ^ 53` at
most.  So a number that stays below the bound after two roundings is taken in
(`readNumber?_isSome`).
-/

namespace FreeBody.Json

open Decimal Float.Model.UnpackedFloat

/-! ## Digits that fit a word -/

namespace Scaled

/-- What is taken in is a front part of the digits. -/
theorem take_eq (step : Int) (ds : List Char) (s : Scaled) (hs : s.word ≤ maxWord) :
    ∃ taken left, ds = taken ++ left ∧
      s.take step ds = (⟨10 ^ taken.length * s.word + value taken,
        s.power + step * taken.length⟩, left) ∧
      10 ^ taken.length * s.word + value taken ≤ maxWord := by
  induction ds generalizing s with
  | nil =>
    refine ⟨[], [], rfl, ?_, ?_⟩
    · simp [take, value]
    · simpa [value] using hs
  | cons c ds ih =>
    unfold take
    simp only
    split_ifs with hfull
    · refine ⟨[], c :: ds, rfl, ?_, ?_⟩
      · simp [value]
      · simpa [value] using hs
    · obtain ⟨taken, left, rfl, htake, hfits⟩ :=
        ih ⟨10 * s.word + (c.toNat - 48), s.power + step⟩ (Nat.le_of_not_lt hfull)
      have hvalue : 10 ^ (c :: taken).length * s.word + value (c :: taken) =
          10 ^ taken.length * (10 * s.word + (c.toNat - 48)) + value taken := by
        rw [value_cons, List.length_cons, Nat.pow_succ]
        ring
      refine ⟨c :: taken, left, rfl, ?_, by rwa [hvalue]⟩
      rw [htake, hvalue, List.length_cons]
      simp only [Prod.mk.injEq, Scaled.mk.injEq, and_true, true_and]
      push_cast
      ring

/-- Digits that fit are all taken in. -/
theorem take_of_fits (s : Scaled) (step : Int) {ds : List Char}
    (h : 10 ^ ds.length * s.word + value ds ≤ maxWord) :
    s.take step ds =
      (⟨10 ^ ds.length * s.word + value ds, s.power + step * ds.length⟩, []) := by
  induction ds generalizing s with
  | nil => simp [take, value]
  | cons c ds ih =>
    have hvalue : 10 ^ (c :: ds).length * s.word + value (c :: ds) =
        10 ^ ds.length * (10 * s.word + (c.toNat - 48)) + value ds := by
      rw [value_cons, List.length_cons, Nat.pow_succ]
      ring
    have hfits : 10 * s.word + (c.toNat - 48) ≤ maxWord := by
      have hpow : 0 < 10 ^ ds.length := Nat.pow_pos (by decide)
      have := Nat.le_mul_of_pos_left (10 * s.word + (c.toNat - 48)) hpow
      omega
    have hrest := ih ⟨10 * s.word + (c.toNat - 48), s.power + step⟩ (by rwa [← hvalue])
    unfold take
    simp only
    rw [if_neg (Nat.not_lt_of_le hfits), hrest, hvalue, List.length_cons]
    simp only [Prod.mk.injEq, Scaled.mk.injEq, and_true, true_and]
    push_cast
    ring

/-! ## Scaling -/

theorem one_le_roundoff : (1 : ℚ) ≤ 1 + roundoff := by
  rw [roundoff]
  norm_num

/-- A natural and a power of ten, both rounded, have a finite product if the exact product stays
below the bound after two roundings. -/
theorem isFinite_mul_nearest {n k : Nat} (hk : k ≤ 308)
    (h : (n * 10 ^ k : ℚ) * (1 + roundoff) ^ 2 < overflow) :
    (Float.ofNat n * nearest 1 k).isFinite = true := by
  have hr := one_le_roundoff
  have hten : (1 : ℚ) ≤ 10 ^ k := one_le_pow₀ (by norm_num)
  have hsmall : (2 : ℚ) ^ (-1022 : ℤ) ≤ 1 :=
    zpow_le_one_of_nonpos₀ (by norm_num) (by decide)
  have hsquare : (1 : ℚ) ≤ (1 + roundoff) ^ 2 := one_le_pow₀ hr
  rcases Nat.eq_zero_or_pos n with rfl | hn
  · -- a zero stays a zero
    have hfinite : (nearest 1 k).isFinite = true := by
      rw [isFinite_nearest, Nat.cast_one, one_mul, zpow_natCast]
      exact (pow_le_pow_right₀ (by norm_num) hk).trans_lt overflow_digits.1
    have hk' := isFinite_unpack hfinite
    refine (isFinite_ofModel_pack _).2 ?_
    show Fits (Float.Model.UnpackedFloat.mul .binary64 (.zero .positive) _)
    generalize (nearest 1 k).toModel.unpack = f at hk'
    cases hk' <;> trivial
  · have hone : (1 : ℚ) ≤ n := by exact_mod_cast hn
    obtain ⟨f, hf, hfr⟩ := ofNat_rounds hn
    obtain ⟨g, hg, hgr⟩ := nearest_one_rounds hk
    have hexact : (n * 10 ^ k : ℚ) < overflow :=
      (le_mul_of_one_le_right (by positivity) hsquare).trans_lt h
    have hn_lt : (n : ℚ) < overflow :=
      (le_mul_of_one_le_right (by positivity) hten).trans_lt hexact
    have hk_lt : (10 ^ k : ℚ) < overflow :=
      (le_mul_of_one_le_left (by positivity) hone).trans_lt hexact
    obtain ⟨m₁, e₁, hd₁, rfl, hbits, herror₁⟩ := hfr.exists_isDouble (hsmall.trans hone) hn_lt
    obtain ⟨m₂, e₂, hd₂, rfl, -, herror₂⟩ := hgr.exists_isDouble (hsmall.trans hten) hk_lt
    have hproduct := rounds_mul .positive .positive e₁ e₂ hd₁.pos hd₂.pos
      (Nat.le_trans hbits (Nat.le_mul_of_pos_right _ hd₂.pos))
    rw [hf, hg, mul_pack_finite hd₁ hd₂, isFinite_ofModel_pack, hproduct.fits_iff]
    refine lt_of_le_of_lt ?_ h
    rw [zpow_add₀ (by norm_num), mul_mul_mul_comm]
    calc (m₁ * 2 ^ e₁ * (m₂ * 2 ^ e₂) : ℚ) ≤ n * (1 + roundoff) * (10 ^ k * (1 + roundoff)) :=
          mul_le_mul herror₁ herror₂ (by positivity) (by positivity)
      _ = n * 10 ^ k * (1 + roundoff) ^ 2 := by ring

/-- A number that stays below the bound after two roundings is not too large. -/
theorem toFloat?_isSome {s : Scaled}
    (h : (s.word * 10 ^ s.power : ℚ) * (1 + roundoff) ^ 2 < overflow) : s.toFloat?.isSome := by
  obtain ⟨word, power⟩ := s
  unfold toFloat?
  simp only at h ⊢
  split_ifs with hneg hle hinf
  · rfl
  · obtain ⟨k, rfl⟩ := Int.eq_ofNat_of_zero_le (Int.not_lt.1 hneg)
    rw [zpow_natCast] at h
    rw [isInf_of_isFinite (isFinite_mul_nearest (by omega) h)] at hinf
    cases hinf
  · rfl
  · rfl
  · -- only a zero is taken in with such a power
    rcases Nat.eq_zero_or_pos word with rfl | hpos
    · contradiction
    · have hone : (1 : ℚ) ≤ word := by exact_mod_cast hpos
      have hpower : (10 : ℚ) ^ 309 ≤ 10 ^ power := by
        rw [← zpow_natCast]
        exact zpow_le_zpow_right₀ (by norm_num) (by push_cast; omega)
      have hlarge : (10 : ℚ) ^ 309 ≤ word * 10 ^ power * (1 + roundoff) ^ 2 :=
        (hpower.trans (le_mul_of_one_le_left (by positivity) hone)).trans
          (le_mul_of_one_le_right (by positivity) (one_le_pow₀ one_le_roundoff))
      exact absurd (overflow_digits.2.trans_le hlarge) (not_lt.2 h.le)

end Scaled

/-! ## Numbers -/

/-- The power of ten that an exponent stands for. -/
def shiftOf (exponent : Option (Bool × List Char)) : ℤ :=
  exponent.elim 0 fun e => if e.1 then -(value e.2 : ℤ) else value e.2

section

variable {whole places : List Char}

/-- What is kept of the digits around a point is no larger than the number they write. -/
theorem scaled_le (hwhole : ∀ c ∈ whole, isDigit c = true) (hlength : whole.length ≤ 19)
    (places : List Char) :
    ∃ s : Scaled, s.word * 10 ^ s.power ≤
        (value (whole ++ places) * 10 ^ (-(places.length : ℤ)) : ℚ) ∧
      Scaled.take ⟨0, 0⟩ 0 whole = (⟨value whole, 0⟩, []) ∧
      (Scaled.take ⟨value whole, 0⟩ (-1) places).1 = s := by
  have hfits : value whole ≤ maxWord := by
    have hlt := value_lt hwhole
    have hpow : 10 ^ whole.length ≤ 10 ^ 19 := Nat.pow_le_pow_right (by decide) hlength
    have : 10 ^ 19 ≤ maxWord + 1 := by decide
    omega
  obtain ⟨taken, left, rfl, htake, -⟩ := Scaled.take_eq (-1) places ⟨value whole, 0⟩ hfits
  refine ⟨_, ?_, ?_, rfl⟩
  · rw [htake]
    simp only
    have hpow : (10 : ℚ) ^ (-(taken.length : ℤ)) =
        10 ^ left.length * 10 ^ (-((taken ++ left).length : ℤ)) := by
      rw [← zpow_natCast, ← zpow_add₀ (by norm_num), List.length_append]
      congr 1
      push_cast
      ring
    have hvalue : 10 ^ left.length * (10 ^ taken.length * value whole + value taken) ≤
        value (whole ++ (taken ++ left)) := by
      rw [value_append, value_append, List.length_append, Nat.pow_add]
      nlinarith
    have hcast : ((10 ^ left.length * (10 ^ taken.length * value whole + value taken) : Nat) : ℚ) ≤
        value (whole ++ (taken ++ left)) := by exact_mod_cast hvalue
    rw [show (0 : ℤ) + -1 * (taken.length : ℤ) = -(taken.length : ℤ) by ring, hpow]
    calc _ = ((10 ^ left.length * (10 ^ taken.length * value whole + value taken) : Nat) : ℚ) *
          10 ^ (-((taken ++ left).length : ℤ)) := by push_cast; ring
      _ ≤ _ := mul_le_mul_of_nonneg_right hcast (ten_zpow_pos _).le
  · have hstart : 10 ^ whole.length * (⟨0, 0⟩ : Scaled).word + value whole ≤ maxWord := by
      simpa using hfits
    simpa using Scaled.take_of_fits ⟨0, 0⟩ 0 hstart

/-- A number that stays below the bound after two roundings is taken in. -/
theorem readNumber?_isSome (negative : Bool) {places : Option (List Char)}
    {exponent : Option (Bool × List Char)} (hwhole : ∀ c ∈ whole, isDigit c = true)
    (hlength : whole.length ≤ 19) (hexponent : (shiftOf exponent).natAbs ≤ maxExponent)
    (h : (value (whole ++ places.getD []) *
      10 ^ (shiftOf exponent - ((places.getD []).length : ℤ)) : ℚ) * (1 + roundoff) ^ 2 <
        overflow) :
    (readNumber? negative whole places exponent).isSome := by
  obtain ⟨s, hs, hhead, htake⟩ := scaled_le hwhole hlength (places.getD [])
  have hsize (down : Bool) (shift : Nat)
      (hshift : (if down then -(shift : ℤ) else shift) = shiftOf exponent) :
      (if maxExponent < shift then if s.word == 0 || down then some 0 else none
        else Scaled.toFloat?
          ⟨s.word, if down then s.power - shift else s.power + shift⟩).isSome := by
    have hpower : (if down then s.power - (shift : ℤ) else s.power + shift) =
        s.power + shiftOf exponent := by
      rw [← hshift]
      cases down <;> rfl
    have hle : shift ≤ maxExponent := by
      rw [← hshift] at hexponent
      cases down
      · exact hexponent
      · rwa [if_pos rfl, Int.natAbs_neg] at hexponent
    rw [if_neg (Nat.not_lt_of_le hle), hpower]
    refine Scaled.toFloat?_isSome (lt_of_le_of_lt ?_ h)
    refine mul_le_mul_of_nonneg_right ?_ (by positivity)
    simp only
    rw [zpow_add₀ (by norm_num), ← mul_assoc, sub_eq_neg_add, zpow_add₀ (by norm_num), ← mul_assoc]
    exact mul_le_mul_of_nonneg_right hs (ten_zpow_pos _).le
  unfold readNumber?
  rw [hhead]
  simp only [List.length_nil, Nat.cast_zero, add_zero, htake]
  rcases exponent with _ | ⟨down, ds⟩
  · cases places with
    | none =>
      simp only
      split_ifs <;> rfl
    | some places => exact (Option.isSome_map ..).trans (hsize false 0 rfl)
  · cases places with
    | none => exact (Option.isSome_map ..).trans (hsize down (value ds) rfl)
    | some places => exact (Option.isSome_map ..).trans (hsize down (value ds) rfl)

end

end FreeBody.Json
