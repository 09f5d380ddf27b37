import FreeBody.Proofs.Decimal.Interval

/-!
# The search for a shortest decimal ends in the interval

A grid finer than the interval around a double has a point in it, and the search gets down to such
a grid within its steps (`shortest_contains`).
-/

namespace FreeBody.Decimal

theorem holds_of_gridPoint? {i : Interval} {tie : Tie} {power : ℤ} {c : Nat}
    (h : i.gridPoint? tie power = some c) : i.holds power c = true := by
  unfold Interval.gridPoint? at h
  simp only at h
  split at h
  next hb _ =>
    rw [Option.some_inj] at h
    rwa [← h]
  next _ ha =>
    rw [Option.some_inj] at h
    rwa [← h]
  next => exact absurd h (by simp)
  next hb ha =>
    generalize i.mid * (weights power i.exponent).2 / (weights power i.exponent).1 = below at *
    have hc : c = below ∨ c = below + 1 := by
      cases tie <;> simp only at h <;> split_ifs at h <;> rw [Option.some_inj] at h <;> omega
    rcases hc with rfl | rfl
    · exact hb
    · exact ha

theorem gridPoint?_isSome_of_holds {i : Interval} (tie : Tie) {power : ℤ}
    (h : i.holds power
      (i.mid * (weights power i.exponent).2 / (weights power i.exponent).1) = true) :
    (i.gridPoint? tie power).isSome := by
  unfold Interval.gridPoint?
  simp only [h]
  generalize i.holds power _ = above
  cases above
  · rfl
  · generalize 2 * _ = twice
    simp only
    split_ifs
    · rfl
    · rfl
    · cases tie <;> rfl

section

variable {mantissa : Nat} {exponent : ℤ}

/-- A step of at most a quarter of the double's cannot pass the interval by. -/
theorem gridPoint?_isSome (hm : 0 < mantissa) (tie : Tie) {power : ℤ}
    (h : (10 : ℚ) ^ power ≤ 2 ^ (exponent - 2)) :
    ((Interval.around mantissa exponent).gridPoint? tie power).isSome := by
  have hholds : (Interval.around mantissa exponent).holds power
      ((Interval.around mantissa exponent).mid * (weights power (exponent - 2)).2 /
        (weights power (exponent - 2)).1) = true := by
    obtain ⟨hp, hq⟩ := weights_pos power (exponent - 2)
    set below := (Interval.around mantissa exponent).mid * (weights power (exponent - 2)).2 /
      (weights power (exponent - 2)).1 with hbelow
    have hstep := two_zpow_pos (exponent - 2)
    have hlow := (around_low exponent hm).2
    -- the point is at most, and less than a step from, the double
    have h1 : (below : ℚ) * 10 ^ power ≤ ((4 * mantissa : Nat) : ℚ) * 2 ^ (exponent - 2) :=
      (weights_le_iff power (exponent - 2) (4 * mantissa) below).2.1 (Nat.div_mul_le_self _ _)
    have h2 : ((4 * mantissa : Nat) : ℚ) * 2 ^ (exponent - 2) < (below + 1 : Nat) * 10 ^ power := by
      rw [← not_le, ← (weights_le_iff power (exponent - 2) (4 * mantissa) (below + 1)).2, not_le]
      exact Nat.lt_mul_of_div_lt (Nat.lt_succ_self _) hp
    push_cast at h1 h2
    rw [holds_iff_contains]
    unfold Interval.Contains
    rw [around_high, around_exponent]
    split_ifs
    · constructor <;> nlinarith
    · constructor <;> nlinarith
  exact gridPoint?_isSome_of_holds tie hholds

theorem holds_search {i : Interval} {tie : Tie} {steps : Nat} {power : ℤ}
    (h : (i.gridPoint? tie (power - steps)).isSome) :
    i.holds (i.search tie steps power).2 (i.search tie steps power).1 = true := by
  induction steps generalizing power with
  | zero =>
    rw [Nat.cast_zero, sub_zero] at h
    obtain ⟨c, hc⟩ := Option.isSome_iff_exists.1 h
    unfold Interval.search
    rw [hc]
    exact holds_of_gridPoint? hc
  | succ steps ih =>
    unfold Interval.search
    rcases hc : i.gridPoint? tie power with _ | c
    · refine ih ?_
      rwa [show power - 1 - steps = power - (steps + 1 : Nat) by push_cast; ring]
    · exact holds_of_gridPoint? hc

/-- The shortest decimal of a double denotes it. -/
theorem shortest_contains (hd : IsDouble mantissa exponent) (tie : Tie) :
    (Interval.around mantissa exponent).Contains
      ((shortest tie mantissa exponent).1 * 10 ^ (shortest tie mantissa exponent).2) := by
  rw [← holds_iff_contains]
  refine holds_search (gridPoint?_isSome hd.pos tie (ten_zpow_le_two_zpow ?_ ?_))
  all_goals
    have hlog : mantissa.log2 < 53 := (Nat.log2_lt (by have := hd.pos; omega)).2 hd.lt
    have hge := hd.ge
    have hle := hd.le
    unfold topPower
    omega

end

end FreeBody.Decimal
