import FreeBody.Drawing.Picture
import FreeBody.Proofs.Composition.Exact
import FreeBody.Proofs.Diagram.Validity
import FreeBody.Proofs.Drawing.Ends

/-!
# The end of the grid

The lines of a grid stand at the sums of its spacing below the size of the canvas, and the loop
that draws them ends when a sum is not below the size.  Sums of doubles need not get there: on a
canvas of more than `2 ^ 53` times the spacing, rounded up to a power of two, they get stuck, and
on any other they grow until they are there (`grid_ends_iff`, `grid_never_ends`).
-/

namespace FreeBody.Drawing

open Decimal (sumAfter Reachable)

theorem isPositive_of_isSize {x : Float} (h : IsSize x) : Decimal.IsPositive x :=
  Decimal.isPositive_of_lt h.1 h.2

theorem ends_iff {step bound : Float} (hstep : IsSize step) (hbound : IsSize bound) :
    Ends step bound ↔ Reachable (Binary.ofFloat step).value (Binary.ofFloat bound).value := by
  rw [ends_iff_reachable (isPositive_of_isSize hstep) (isPositive_of_isSize hbound),
    Decimal.number_eq_value hstep.1, Decimal.number_eq_value hbound.1]

/-! ## Grids of valid diagrams -/

/-- **The loops of a grid.**  On a valid diagram, of whatever size, and with whatever spacing, both
loops end exactly if neither side is more than `2 ^ 53` times any power of two that is not below
the spacing; and if the diagram shows its grid, there is a picture exactly then.  A loop that ends
has grown from each sum to the next, and has drawn a line at each sum below the side; one that does
not end has no lines to give. -/
theorem grid_ends_iff {d : Diagram} (hvalid : d.issues = []) {style : Style}
    (hspacing : IsSize style.gridSpacing) :
    (Ends style.gridSpacing d.width ∧ Ends style.gridSpacing d.height ↔
        ∀ k : ℤ, (Binary.ofFloat style.gridSpacing).value ≤ 2 ^ k →
          d.exactSize.width ≤ 2 ^ 53 * 2 ^ k ∧ d.exactSize.height ≤ 2 ^ 53 * 2 ^ k) ∧
      (d.showGrid = some true → ((d.render style).isSome = true ↔
        Ends style.gridSpacing d.width ∧ Ends style.gridSpacing d.height)) ∧
      ∀ side ∈ [d.width, d.height],
        (Ends style.gridSpacing side → ∃ n < 2 ^ 55,
          (∀ i < n, sumAfter style.gridSpacing i < side ∧
            sumAfter style.gridSpacing i < sumAfter style.gridSpacing (i + 1)) ∧
          ¬ sumAfter style.gridSpacing n < side ∧
          ∀ line, gridLines line style.gridSpacing side =
            some ((List.range n).map fun i => line (sumAfter style.gridSpacing i))) ∧
        (¬ Ends style.gridSpacing side → ∀ line, gridLines line style.gridSpacing side = none) := by
  have hwidth : IsSize d.width := (Diagram.issues_eq_nil_iff.1 hvalid).width
  have hheight : IsSize d.height := (Diagram.issues_eq_nil_iff.1 hvalid).height
  have hstep := isPositive_of_isSize hspacing
  refine ⟨?_, fun hshown => ?_, fun side hside => ?_⟩
  · rw [ends_iff hspacing hwidth, ends_iff hspacing hheight]
    constructor
    · rintro ⟨hw, hh⟩ k hk
      exact ⟨hw k hk, hh k hk⟩
    · intro h
      exact ⟨fun k hk => (h k hk).1, fun k hk => (h k hk).2⟩
  · rw [Diagram.render_isSome_iff]
    exact ⟨fun h => h hshown hstep.not_le_zero, Diagram.gridEnds_of_ends⟩
  · have hsize : IsSize side := by
      simp only [List.mem_cons, List.not_mem_nil, or_false] at hside
      rcases hside with rfl | rfl
      · exact hwidth
      · exact hheight
    exact ⟨gridLines_of_ends hstep (isPositive_of_isSize hsize),
      fun h line => gridLines_of_not_ends h⟩

/-- A usual canvas with the usual spacing. -/
theorem grid_ends_usual :
    let d : Diagram := { id := "d", width := 600, height := 400, showGrid := some true }
    let style : Style := {}
    d.issues = [] ∧ IsSize style.gridSpacing ∧
      Ends style.gridSpacing d.width ∧ Ends style.gridSpacing d.height := by
  intro d style
  have hvalid : d.issues = [] := by decide
  have hspacing : IsSize style.gridSpacing := by decide
  refine ⟨hvalid, hspacing, (grid_ends_iff hvalid hspacing).1.2 fun k hk => ?_⟩
  have hvalue : (Binary.ofFloat style.gridSpacing).value = 20 := by decide +kernel
  obtain ⟨hwidth, hheight⟩ : d.exactSize.width = 600 ∧ d.exactSize.height = 400 := by
    decide +kernel
  rw [hvalue] at hk
  rw [hwidth, hheight]
  constructor <;> linarith

/-- On the canvas of a valid diagram that is `10 ^ 20` times as wide as the spacing, the loop does
not end. -/
theorem grid_never_ends :
    let d : Diagram := { id := "d", width := 1e300, height := 400, showGrid := some true }
    let style : Style := { gridSpacing := 1e280 }
    d.issues = [] ∧ IsSize style.gridSpacing ∧ ¬ Ends style.gridSpacing d.width ∧
      (∀ line, gridLines line style.gridSpacing d.width = none) ∧ d.render style = none := by
  intro d style
  have hvalid : d.issues = [] := by decide +kernel
  have hspacing : IsSize style.gridSpacing := by decide +kernel
  have hnever : ¬ Ends style.gridSpacing d.width := not_ends_huge
  exact ⟨hvalid, hspacing, hnever, fun line => gridLines_of_not_ends hnever,
    Diagram.render_eq_none_iff.2 (not_gridEnds_huge rfl rfl)⟩

end FreeBody.Drawing
