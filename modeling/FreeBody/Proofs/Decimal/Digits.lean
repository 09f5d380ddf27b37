import FreeBody.Decimal.Text
import FreeBody.Text.Blank
import Mathlib.Algebra.Group.Nat.Defs

/-!
# Digits and the numbers they write

`digits` writes a natural number and `value` reads a run of digits back.  Leading zeros do not
count, and zeros behind a number multiply it.

    value (digits n) = n                                    (value_digits)
    value (s ++ t) = 10 ^ t.length * value s + value t      (value_append)
-/

namespace FreeBody.Decimal

theorem isDigit_eq (c : Char) : isDigit c = c.isDigit := rfl

theorem isDigit_of_mem_digits {n : Nat} {c : Char} (h : c ∈ digits n) : isDigit c = true := by
  rw [isDigit_eq]
  exact Nat.isDigit_of_mem_toDigits (by decide) (by decide) h

theorem isSpace_eq_false_of_isDigit {c : Char} (h : isDigit c = true) :
    Text.isSpace c = false := by
  rw [Bool.eq_false_iff]
  intro hs
  simp only [Text.isSpace, Bool.or_eq_true, beq_iff_eq] at hs
  rcases hs with ((rfl | rfl) | rfl) | rfl <;> exact absurd h (by decide)

theorem toList_toString (n : Nat) : (toString n).toList = digits n := Nat.toList_repr

theorem digits_ne_nil (n : Nat) : digits n ≠ [] := Nat.toDigits_ne_nil

theorem eq_of_mem_sign {negative : Bool} {c : Char} (h : c ∈ sign negative) : c = '-' := by
  cases negative
  · exact absurd h List.not_mem_nil
  · exact List.mem_singleton.1 h

theorem value_eq_ofDigitChars (s : List Char) : value s = Nat.ofDigitChars 10 s 0 := rfl

theorem value_digits (n : Nat) : value (digits n) = n := by
  rw [value_eq_ofDigitChars, digits]
  exact Nat.ofDigitChars_ten_toDigits

theorem value_append (s t : List Char) :
    value (s ++ t) = 10 ^ t.length * value s + value t := by
  simp only [value_eq_ofDigitChars]
  rw [Nat.ofDigitChars_append, Nat.ofDigitChars_eq_ofDigitChars_zero]

theorem value_zeros (k : Nat) : value (List.replicate k '0') = 0 := by
  rw [value_eq_ofDigitChars, Nat.ofDigitChars_replicate_zero, Nat.mul_zero]

theorem value_cons (c : Char) (s : List Char) :
    value (c :: s) = 10 ^ s.length * (c.toNat - 48) + value s := by
  rw [← List.singleton_append, value_append]
  simp [value]

theorem digit_lt {c : Char} (h : isDigit c = true) : c.toNat - 48 < 10 := by
  have hle : c ≤ '9' := of_decide_eq_true (Bool.and_eq_true_iff.1 h).2
  have : c.toNat ≤ 57 := UInt32.le_iff_toNat_le.1 hle
  omega

theorem value_lt {s : List Char} (h : ∀ c ∈ s, isDigit c = true) : value s < 10 ^ s.length := by
  induction s with
  | nil => exact Nat.one_pos
  | cons c s ih =>
    rw [List.forall_mem_cons] at h
    have hc : 10 ^ s.length * (c.toNat - 48) ≤ 10 ^ s.length * 9 :=
      Nat.mul_le_mul_left _ (Nat.le_of_lt_succ (digit_lt h.1))
    have hs := ih h.2
    rw [value_cons, List.length_cons, Nat.pow_succ]
    omega

/-- A number with `length` digits lies between two powers of ten. -/
theorem lt_pow_length_digits (n : Nat) : n < 10 ^ (digits n).length := by
  have hpos : 0 < (digits n).length := List.length_pos_iff.2 (digits_ne_nil n)
  exact (Nat.length_toDigits_le_iff (by decide) hpos).1 (Nat.le_refl _)

theorem pow_length_digits_le {n : Nat} (hn : 0 < n) : 10 ^ ((digits n).length - 1) ≤ n := by
  by_cases h1 : (digits n).length ≤ 1
  · rw [Nat.sub_eq_zero_of_le h1]
    exact hn
  · apply Nat.le_of_not_lt
    intro hlt
    have hle : (digits n).length ≤ (digits n).length - 1 :=
      (Nat.length_toDigits_le_iff (by decide) (by omega)).2 hlt
    omega

/-- A positive number is not written with a zero in front. -/
theorem digits_ne_zero_cons {n : Nat} (hn : 0 < n) (rest : List Char) : digits n ≠ '0' :: rest := by
  intro h
  have hpow := pow_length_digits_le hn
  have hvalue := value_digits n
  have hlt : value rest < 10 ^ rest.length :=
    value_lt fun c hc => isDigit_of_mem_digits (h ▸ List.mem_cons_of_mem '0' hc)
  have hzero : 10 ^ rest.length * ('0'.toNat - 48) = 0 := Nat.mul_zero _
  rw [h, value_cons, hzero] at hvalue
  rw [h, List.length_cons, Nat.add_sub_cancel] at hpow
  omega

end FreeBody.Decimal
