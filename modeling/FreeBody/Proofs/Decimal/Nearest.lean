import FreeBody.Proofs.Decimal.Arithmetic

/-!
# Rounding keeps the order

A number is rounded to a whole number of steps, the nearest one (`Rounds.exists_steps`).  So no
number of 53 bits lies between it and what it is rounded to (`Rounds.le_toRat`,
`Rounds.toRat_le`).
-/

open Float.Model Float.Model.UnpackedFloat

namespace FreeBody.Decimal

/-! ## Steps -/

/-- What is known of a number `v` whose nearest number of steps of `2 ^ n` is `k`. -/
structure Nearest (v : ℚ) (k : Nat) (n : ℤ) : Prop where
  exponent : -1074 ≤ n
  most : v < 2 ^ (n + 53) ∧ k ≤ 2 ^ 53
  least : n = -1074 ∨ (2 : ℚ) ^ (n + 52) ≤ v ∧ 2 ^ 52 ≤ k
  le_of_le : ∀ j : Nat, (j : ℚ) * 2 ^ n ≤ v → j ≤ k
  ge_of_ge : ∀ j : Nat, v ≤ j * 2 ^ n → k ≤ j
  near : 2 * v ≤ (2 * k + 1) * 2 ^ n

theorem nearest_divHalfEven {a b k : Nat} {e n : ℤ} (hb : 0 < b)
    (he : e ≤ -1074 ∨ 2 ^ 52 ≤ a / b)
    (hn : Format.binary64.targetExponent (totalExponent (a / b) e) = n)
    (hk : divHalfEven a (b * 2 ^ (n - e).toNat) = k) :
    Nearest (a / b * 2 ^ e) k n := by
  obtain ⟨hupper, hmin, hlower⟩ := bounds_of_targetExponent hb he hn
  have hle := le_of_targetExponent he hn
  obtain ⟨hmost, hleast, -, -⟩ := bounds_of_divHalfEven hb hle hk
  have hscale := quotient_le_iff (a := a) hb hle
  have hd : 0 < b * 2 ^ (n - e).toNat := Nat.mul_pos hb (Nat.two_pow_pos _)
  generalize b * 2 ^ (n - e).toNat = d at *
  subst hk
  refine ⟨hmin, ⟨hupper, hmost hupper⟩, hlower.imp_right fun h => ⟨h, hleast h⟩, ?_, ?_, ?_⟩
  · intro j hj
    rw [← one_mul (a / b * 2 ^ e : ℚ), (hscale _ _).1, one_mul] at hj
    exact le_divHalfEven hd (by exact_mod_cast hj)
  · intro j hj
    rw [← one_mul (a / b * 2 ^ e : ℚ), (hscale _ _).2, one_mul] at hj
    exact divHalfEven_le hd (by exact_mod_cast hj)
  · rw [(hscale _ _).2]
    exact_mod_cast le_divHalfEven_mul hd

section

variable {v : ℚ} {f : UnpackedFloat}

/-- What a number is rounded to is its nearest number of steps. -/
theorem Rounds.exists_steps (h : Rounds .positive v f) :
    ∃ (k : Nat) (n : ℤ), Nearest v k n ∧ toRat f = k * 2 ^ n := by
  obtain ⟨a, b, e, hb, he, rfl, rfl⟩ := h
  obtain ⟨n, hn⟩ : ∃ n, Format.binary64.targetExponent (totalExponent (a / b) e) = n := ⟨_, rfl⟩
  obtain ⟨k, hk⟩ : ∃ k, divHalfEven a (b * 2 ^ (n - e).toNat) = k := ⟨_, rfl⟩
  have hle := le_of_targetExponent he hn
  have hnearest := nearest_divHalfEven hb he hn hk
  refine ⟨k, n, hnearest, ?_⟩
  by_cases hlt : k < 2 ^ 53
  · have hexp := targetExponent_eq_self hlt hnearest.exponent
      (hnearest.least.imp_right And.right)
    rw [roundWithAccuracy_eq .positive hb hn hle hk hexp le_rfl, sub_self, Int.toNat_zero,
      Nat.pow_zero, Nat.div_one, toRat_ofMantissa]
  · -- all bits were carried over
    obtain rfl : k = 2 ^ 53 := le_antisymm hnearest.most.2 (by omega)
    have hexp : Format.binary64.targetExponent (totalExponent (2 ^ 53) n) = n + 1 := by
      have := hnearest.exponent
      rw [targetExponent_binary64, totalExponent, Nat.log2_two_pow]
      omega
    have hone : (n + 1 - n).toNat = 1 := by omega
    rw [roundWithAccuracy_eq .positive hb hn hle hk hexp (by omega), hone, toRat_ofMantissa,
      zpow_add₀ (by norm_num)]
    push_cast
    ring

/-! ## Numbers of 53 bits -/

/-- Whether `y` is a number of 53 bits, however large. -/
def HasBits (y : ℚ) : Prop := ∃ (m : Nat) (e : ℤ), m < 2 ^ 53 ∧ -1074 ≤ e ∧ y = m * 2 ^ e

theorem hasBits_of_le {m : Nat} {e : ℤ} (hm : m ≤ 2 ^ 53) (he : -1074 ≤ e) :
    HasBits (m * 2 ^ e) := by
  rcases Nat.lt_or_eq_of_le hm with hlt | rfl
  · exact ⟨m, e, hlt, he, rfl⟩
  · refine ⟨2 ^ 52, e + 1, by decide, by omega, ?_⟩
    rw [zpow_add₀ (by norm_num)]
    push_cast
    ring

theorem hasBits_two_zpow {e : ℤ} (he : -1074 ≤ e) : HasBits (2 ^ e) :=
  ⟨1, e, by decide, he, by rw [Nat.cast_one, one_mul]⟩

/-- A number of 53 bits is a whole number of steps, or too small to be rounded in them. -/
theorem HasBits.steps {y : ℚ} (hy : HasBits y) (n : ℤ) :
    (∃ j : Nat, y = j * 2 ^ n) ∨ y < 2 ^ 52 * 2 ^ n ∧ -1074 < n := by
  obtain ⟨m, e, hm, he, rfl⟩ := hy
  rcases le_or_gt n e with hle | hlt
  · refine Or.inl ⟨m * 2 ^ (e - n).toNat, ?_⟩
    rw [zpow_add_toNat (by norm_num) hle]
    push_cast
    ring
  · refine Or.inr ⟨?_, by omega⟩
    have hstep : (2 : ℚ) ^ (e + 1) ≤ 2 ^ n := zpow_le_zpow_right₀ (by norm_num) (by omega)
    have hcast : (m : ℚ) < 2 ^ 53 := by exact_mod_cast hm
    rw [zpow_add₀ (by norm_num)] at hstep
    calc (m : ℚ) * 2 ^ e < 2 ^ 53 * 2 ^ e := mul_lt_mul_of_pos_right hcast (two_zpow_pos e)
      _ = 2 ^ 52 * (2 ^ e * 2 ^ (1 : ℤ)) := by ring
      _ ≤ 2 ^ 52 * 2 ^ n := mul_le_mul_of_nonneg_left hstep (by positivity)

/-- Rounding down does not pass a number of 53 bits. -/
theorem Rounds.le_toRat (h : Rounds .positive v f) {y : ℚ} (hy : HasBits y) (hle : y ≤ v) :
    y ≤ toRat f := by
  obtain ⟨k, n, hnearest, hf⟩ := h.exists_steps
  have hpos := two_zpow_pos n
  rw [hf]
  rcases hy.steps n with ⟨j, rfl⟩ | ⟨hsmall, hn⟩
  · have hj : (j : ℚ) ≤ k := by exact_mod_cast hnearest.le_of_le j hle
    exact mul_le_mul_of_nonneg_right hj hpos.le
  · have hk : ((2 ^ 52 : Nat) : ℚ) ≤ k := by
      exact_mod_cast (hnearest.least.resolve_left (by omega)).2
    push_cast at hk
    exact hsmall.le.trans (mul_le_mul_of_nonneg_right hk hpos.le)

/-- Nor does rounding up. -/
theorem Rounds.toRat_le (h : Rounds .positive v f) {y : ℚ} (hy : HasBits y) (hle : v ≤ y) :
    toRat f ≤ y := by
  obtain ⟨k, n, hnearest, hf⟩ := h.exists_steps
  have hpos := two_zpow_pos n
  rw [hf]
  rcases hy.steps n with ⟨j, rfl⟩ | ⟨hsmall, hn⟩
  · have hj : (k : ℚ) ≤ j := by exact_mod_cast hnearest.ge_of_ge j hle
    exact mul_le_mul_of_nonneg_right hj hpos.le
  · have hk : (k : ℚ) ≤ (2 ^ 52 : Nat) := by
      exact_mod_cast hnearest.ge_of_ge (2 ^ 52) (by push_cast; exact hle.trans hsmall.le)
    have hv := (hnearest.least.resolve_left (by omega)).1
    have hsplit : (2 : ℚ) ^ (n + 52) = 2 ^ n * 2 ^ 52 := two_zpow_add n 52
    rw [hsplit, mul_comm] at hv
    push_cast at hk
    exact (mul_le_mul_of_nonneg_right hk hpos.le).trans (hv.trans hle)

/-! ## One addition -/

variable {x s : ℚ} {k : ℤ}

/-- As long as a sum is below `2 ^ 53` times the least power of two that is not below `s`, adding
`s` takes it on by a quarter of that power or more. -/
theorem Rounds.add_le_toRat (h : Rounds .positive (x + s) f) (hx : HasBits x)
    (hbelow : x < 2 ^ 53 * 2 ^ k) (hk : -1074 ≤ k) (hlow : (2 : ℚ) ^ (k - 1) < s)
    (hhigh : s ≤ 2 ^ k) : x + 2 ^ (k - 2) ≤ toRat f := by
  obtain ⟨m, n, hnearest, hf⟩ := h.exists_steps
  have hhalf : (2 : ℚ) ^ k = 2 ^ (k - 1) * 2 ^ 1 := two_zpow_eq k 1
  have hquarter : (2 : ℚ) ^ k = 2 ^ (k - 2) * 2 ^ 2 := two_zpow_eq k 2
  have hpos := two_zpow_pos (k - 2)
  rcases lt_trichotomy n k with hless | rfl | hmore
  · -- the steps are so small that half of one does not matter
    have hstep : (2 : ℚ) ^ n ≤ 2 ^ (k - 1) := zpow_le_zpow_right₀ (by norm_num) (by omega)
    have hnear := hnearest.near
    rw [hf]
    linarith
  · rcases hx.steps n with ⟨j, rfl⟩ | ⟨hsmall, hn⟩
    · -- `s` is more than half a step
      have hnear := hnearest.near
      have hlt : (j : ℚ) * 2 ^ n < m * 2 ^ n := by linarith
      have hsucc : (j : ℚ) + 1 ≤ m := by
        exact_mod_cast (lt_of_mul_lt_mul_right hlt (two_zpow_pos n).le)
      have hmul := mul_le_mul_of_nonneg_right hsucc (two_zpow_pos n).le
      rw [hf]
      linarith
    · -- `x` has the steps of the next smaller numbers, and half a step of the sum is one of them
      have hleast : (2 : ℚ) ^ (n + 52) ≤ x + s := (hnearest.least.resolve_left (by omega)).1
      have hsplit : (2 : ℚ) ^ (n + 52) = 2 ^ n * 2 ^ 52 := two_zpow_add n 52
      rcases hx.steps (n - 1) with ⟨j, rfl⟩ | ⟨hsmaller, -⟩
      · have hlt : (j : ℚ) * 2 ^ (n - 1) < 2 ^ 53 * 2 ^ (n - 1) := by linarith
        have hj := lt_of_mul_lt_mul_right hlt (two_zpow_pos (n - 1)).le
        have hbits : HasBits ((j + 1 : Nat) * 2 ^ (n - 1)) :=
          hasBits_of_le (by exact_mod_cast hj) (by omega)
        have hle := h.le_toRat hbits (by push_cast; linarith)
        push_cast at hle
        linarith
      · linarith
  · -- the sum has passed the bound
    have hleast : (2 : ℚ) ^ (n + 52) ≤ x + s := (hnearest.least.resolve_left (by omega)).1
    have hstep : (2 : ℚ) ^ (k + 53) ≤ 2 ^ (n + 52) := zpow_le_zpow_right₀ (by norm_num) (by omega)
    have hsplit : (2 : ℚ) ^ (k + 53) = 2 ^ k * 2 ^ 53 := two_zpow_add k 53
    have hbound := h.le_toRat (hasBits_two_zpow (by omega : -1074 ≤ k + 53)) (hstep.trans hleast)
    rcases hx.steps k with ⟨j, rfl⟩ | ⟨hsmall, -⟩
    · have hj : (j : ℚ) + 1 ≤ 2 ^ 53 := by
        exact_mod_cast lt_of_mul_lt_mul_right hbelow (two_zpow_pos k).le
      have hmul := mul_le_mul_of_nonneg_right hj (two_zpow_pos k).le
      linarith
    · linarith

/-- From there on nothing is added: the half of a step is rounded to even. -/
theorem Rounds.toRat_add_le (h : Rounds .positive (x + s) f) (hle : x ≤ 2 ^ 53 * 2 ^ k)
    (hk : -1074 ≤ k) (hfinite : k ≤ 970) (hhigh : s ≤ 2 ^ k) : toRat f ≤ 2 ^ 53 * 2 ^ k := by
  have hdouble : (2 : ℚ) ^ (k + 1) = 2 ^ k * 2 := by rw [zpow_add₀ (by norm_num), zpow_one]
  rcases le_or_gt (x + s) (2 ^ 53 * 2 ^ k) with hbelow | habove
  · have hbits : HasBits ((2 ^ 53 : Nat) * 2 ^ k) := hasBits_of_le le_rfl hk
    push_cast at hbits
    exact h.toRat_le hbits hbelow
  · have hd : IsDouble (2 ^ 52) (k + 1) := ⟨by decide, by decide, by omega, by omega, Or.inl le_rfl⟩
    have hcontains : (Interval.around (2 ^ 52) (k + 1)).Contains (x + s) := by
      have hstep : (2 : ℚ) ^ k = 2 ^ (k + 1 - 2) * 2 := by
        rw [show k + 1 - 2 = k - 1 by omega]
        exact (two_zpow_eq k 1).trans (by rw [pow_one]; rfl)
      have hlow := mul_le_mul_of_nonneg_right (around_low (k + 1) hd.pos).2
        (two_zpow_pos (k + 1 - 2)).le
      have hpos := two_zpow_pos (k + 1 - 2)
      unfold Interval.Contains
      rw [if_pos (around_closed.2 (by decide)), around_high, around_exponent]
      push_cast at hlow ⊢
      constructor <;> linarith
    rw [h.eq_finite hd hcontains, toRat_finite, hdouble]
    apply le_of_eq
    simp only [Sign.apply]
    push_cast
    ring

end

end FreeBody.Decimal
