import FreeBody.Markup.Coordinate
import FreeBody.Proofs.Decimal.Digits
import FreeBody.Proofs.Text.Pieces

/-!
# Numbers in markup

A number in markup is written with digits and the few other characters of numerals
(`isNumeral_of_mem_coordinate`), so no other character stands in values that are put together
from numbers (`not_mem_corners`).
-/

namespace FreeBody.Markup

/-- A character of a number in markup, or of a word that stands for one. -/
def isNumeral (c : Char) : Bool := Decimal.isDigit c || c ∈ ['-', '.', 'N', 'a', 'i', 'n', 'f']

theorem isNumeral_of_mem_pointed {n places : Nat} {c : Char} (h : c ∈ Decimal.pointed n places) :
    isNumeral c = true := by
  have hdigit : ∀ d ∈ Decimal.padZeros (places + 1) (Decimal.digits n), isNumeral d = true := by
    intro d hd
    rcases List.mem_append.1 hd with hd | hd
    · rw [List.eq_of_mem_replicate hd]
      rfl
    · rw [isNumeral, Decimal.isDigit_of_mem_digits hd]
      rfl
  unfold Decimal.pointed at h
  simp only at h
  split at h
  · exact hdigit c h
  · rcases List.mem_append.1 h with h | h
    · exact hdigit c (List.mem_of_mem_take h)
    · rcases List.mem_cons.1 h with rfl | h
      · rfl
      · exact hdigit c (List.mem_of_mem_drop h)

theorem isNumeral_of_mem_fixed {places : Nat} {x : Float} {c : Char}
    (h : c ∈ (Decimal.fixed places x).toList) : isNumeral c = true := by
  unfold Decimal.fixed at h
  split at h
  next negative mantissa exponent =>
    rw [String.toList_ofList, List.mem_append] at h
    rcases h with h | h
    · rw [Decimal.eq_of_mem_sign h]
      rfl
    · exact isNumeral_of_mem_pointed h
  next other _ =>
    have hword : ∀ b : Binary, ((Decimal.wordOf b).getD "").toList.all isNumeral = true := by
      rintro (_ | negative | _)
      · decide
      · cases negative <;> decide
      · show ("" : String).toList.all isNumeral = true
        decide
    exact List.all_eq_true.1 (hword _) c h

theorem isNumeral_of_mem_coordinate {x : Float} {c : Char} (h : c ∈ (coordinate x).toList) :
    isNumeral c = true := by
  have hzero : ∀ c ∈ ("0" : String).toList, isNumeral c = true := by decide
  unfold coordinate at h
  split at h
  · exact hzero c h
  · simp only at h
    split at h
    · exact hzero c h
    · rw [String.toList_ofList, trimPlaces, List.mem_reverse] at h
      exact isNumeral_of_mem_fixed (List.mem_reverse.1 ((List.dropWhile_suffix _).mem
        ((List.dropWhile_suffix _).mem h)))

section

variable {c : Char}

theorem not_mem_coordinate (hc : isNumeral c = false) (x : Float) : c ∉ (coordinate x).toList := by
  intro h
  have := isNumeral_of_mem_coordinate h
  rw [hc] at this
  cases this

theorem not_mem_toString (hc : isNumeral c = false) (n : Nat) : c ∉ (toString n).toList := by
  intro h
  rw [Decimal.toList_toString] at h
  rw [isNumeral, Decimal.isDigit_of_mem_digits h] at hc
  cases hc

theorem not_mem_intercalate {separator : String} (hc : c ∉ separator.toList) {ss : List String}
    (h : ∀ s ∈ ss, c ∉ s.toList) : c ∉ (String.intercalate separator ss).toList := by
  induction ss with
  | nil =>
    rw [String.intercalate_nil]
    exact List.not_mem_nil
  | cons s ss ih =>
    rw [List.forall_mem_cons] at h
    cases ss with
    | nil => rw [String.intercalate_singleton]; exact h.1
    | cons t ss =>
      rw [String.intercalate_cons_cons, String.toList_append, String.toList_append,
        List.mem_append, List.mem_append, not_or, not_or]
      exact ⟨⟨h.1, hc⟩, ih h.2⟩

theorem not_mem_corners (hc : isNumeral c = false) (hseparator : c ∉ [',', ' ']) (vs : List Vec) :
    c ∉ (corners vs).toList := by
  simp only [List.mem_cons, List.not_mem_nil, or_false, not_or] at hseparator
  refine not_mem_intercalate (by simp [hseparator]) fun s hs => ?_
  obtain ⟨v, -, rfl⟩ := List.mem_map.1 hs
  simp [not_mem_coordinate hc, hseparator]

end

end FreeBody.Markup
