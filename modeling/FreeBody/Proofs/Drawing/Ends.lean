import FreeBody.Proofs.Decimal.Sums

/-!
# When the loop of a grid ends

The loop that draws the lines of a grid draws one at each sum below the bound, up to the first sum
that is not below it (`Ruling.draw_eq_of_first`).  With a step and a bound that are numbers above
zero there is such a sum exactly if the bound is not too large for the step
(`ends_iff_reachable`); then there are fewer than `2 ^ 55` lines, and each is further on than the
one before (`gridLines_of_ends`).
-/

namespace FreeBody.Drawing

open Decimal (IsPositive Reachable number sumAfter)

/-- The loop draws a line at each sum up to the first one that is not below the bound. -/
theorem Ruling.draw_eq_of_first {r : Ruling} {i n : Nat}
    (hbelow : ∀ j < n, sumAfter r.step (i + j) < r.bound)
    (hfirst : ¬ sumAfter r.step (i + n) < r.bound) (drawn : List String) :
    r.draw (sumAfter r.step i) drawn =
      some (drawn.reverse ++ (List.range' i n).map fun j => r.line (sumAfter r.step j)) := by
  induction n generalizing i drawn with
  | zero =>
    rw [Nat.add_zero] at hfirst
    rw [draw, if_neg hfirst, List.range'_zero, List.map_nil, List.append_nil]
  | succ n ih =>
    have hnext : ∀ j < n, sumAfter r.step (i + 1 + j) < r.bound := by
      intro j hj
      rw [Nat.add_right_comm, Nat.add_assoc]
      exact hbelow (j + 1) (Nat.succ_lt_succ hj)
    have hhere : sumAfter r.step i < r.bound := hbelow 0 n.succ_pos
    rw [← Nat.add_assoc, Nat.add_right_comm] at hfirst
    rw [draw, if_pos hhere]
    show r.draw (sumAfter r.step (i + 1)) _ = _
    rw [ih hnext hfirst, List.reverse_cons, List.append_assoc, List.range'_succ, List.map_cons,
      List.singleton_append]

/-- A loop that does not end gives no lines. -/
theorem gridLines_of_not_ends {line : Float → String} {step bound : Float}
    (h : ¬ Ends step bound) : gridLines line step bound = none := by
  rwa [← gridLines_isSome_iff line, Option.not_isSome_iff_eq_none] at h

section

variable {step bound : Float} (hstep : IsPositive step) (hbound : IsPositive bound)

include hstep hbound

theorem ends_iff_reachable : Ends step bound ↔ Reachable (number step) (number bound) := by
  constructor
  · rintro ⟨n, hn⟩
    by_contra hmore
    exact hn (Decimal.sumAfter_lt hstep hbound hmore n)
  · intro hreachable
    obtain ⟨n, -, hn⟩ := Decimal.exists_not_sumAfter_lt hstep hbound hreachable
    exact ⟨n, hn⟩

/-- A loop that ends has drawn a line at each of the sums below the bound, and each of them was
more than the one before. -/
theorem gridLines_of_ends (h : Ends step bound) : ∃ n < 2 ^ 55,
    (∀ i < n, sumAfter step i < bound ∧ sumAfter step i < sumAfter step (i + 1)) ∧
      ¬ sumAfter step n < bound ∧ ∀ line,
        gridLines line step bound =
          some ((List.range n).map fun i => line (sumAfter step i)) := by
  have hreachable := (ends_iff_reachable hstep hbound).1 h
  obtain ⟨m, hm, hstop⟩ := Decimal.exists_not_sumAfter_lt hstep hbound hreachable
  -- the first sum that is not below the bound
  obtain ⟨n, hn, hfirst⟩ : ∃ n, ¬ sumAfter step n < bound ∧ ∀ i < n, sumAfter step i < bound := by
    refine ⟨Nat.find h, Nat.find_spec h, fun i hi => ?_⟩
    exact not_not.1 (Nat.find_min h hi)
  have hle : n ≤ m := by
    by_contra hmore
    exact hstop (hfirst m (by omega))
  refine ⟨n, by omega, fun i hi => ⟨hfirst i hi, ?_⟩, hn, fun line => ?_⟩
  · exact Decimal.sumAfter_lt_succ hstep hbound hreachable fun j hj => hfirst j (by omega)
  · rw [List.range_eq_range']
    refine Ruling.draw_eq_of_first (r := ⟨line, step, bound⟩) (i := 0) ?_ ?_ []
    · simpa using hfirst
    · simpa using hn

end

/-- Steps of at most `2 ^ k` do not lead beyond `2 ^ 53` times that. -/
theorem not_ends_of_far {step bound : Float} (hstep : step.isFinite = true ∧ 0 < step)
    (hbound : bound.isFinite = true ∧ 0 < bound) {k : ℤ}
    (hnear : (Binary.ofFloat step).value ≤ 2 ^ k)
    (hfar : ¬ (Binary.ofFloat bound).value ≤ 2 ^ 53 * 2 ^ k) : ¬ Ends step bound := by
  rw [ends_iff_reachable (Decimal.isPositive_of_lt hstep.1 hstep.2)
    (Decimal.isPositive_of_lt hbound.1 hbound.2), Decimal.number_eq_value hstep.1,
    Decimal.number_eq_value hbound.1]
  exact fun hreachable => hfar (hreachable k hnear)

/-- The usual distance does not lead to the edge of a canvas of this size. -/
theorem not_ends_wide : ¬ Ends 20 1e18 :=
  not_ends_of_far (k := 5) (by decide +kernel) (by decide +kernel) (by decide +kernel)
    (by decide +kernel)

theorem not_ends_huge : ¬ Ends 1e280 1e300 :=
  not_ends_of_far (k := 931) (by decide +kernel) (by decide +kernel) (by decide +kernel)
    (by decide +kernel)

section

variable {d : Diagram} (hshown : d.showGrid = some true)

include hshown

/-- A grid whose lines do not get to the right edge of the canvas is never finished. -/
theorem not_gridEnds_of_width {style : Style} (hspacing : ¬ style.gridSpacing ≤ 0)
    (h : ¬ Ends style.gridSpacing d.width) : ¬ d.GridEnds style :=
  fun hends => h (hends hshown hspacing).1

theorem not_gridEnds_wide (hwidth : d.width = 1e18) : ¬ d.GridEnds {} := by
  refine not_gridEnds_of_width hshown (by decide) ?_
  rw [hwidth]
  exact not_ends_wide

theorem not_gridEnds_huge (hwidth : d.width = 1e300) :
    ¬ d.GridEnds { gridSpacing := 1e280 } := by
  refine not_gridEnds_of_width hshown (by decide +kernel) ?_
  rw [hwidth]
  exact not_ends_huge

end

end FreeBody.Drawing
