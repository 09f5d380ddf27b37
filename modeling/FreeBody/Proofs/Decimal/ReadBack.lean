import FreeBody.Decimal.Text
import FreeBody.Proofs.Decimal.Digits
import FreeBody.Proofs.Decimal.Scientific
import FreeBody.Proofs.Decimal.Shortest
import FreeBody.Proofs.Text.Pieces

/-!
# Decimal text reads back

The text of a finite double is a numeral: a sign, digits, and perhaps a point with digits behind it
(`plain_eq_numeral`).  It reads as the double:

    x.isFinite = true → read? (plain x).toList = some x                       (read?_plain)
-/

open Float.Model Float.Model.UnpackedFloat

namespace FreeBody.Decimal

/-! ## Numerals -/

/-- A point with digits behind it, if there are any. -/
def point (places : List Char) : List Char := if places = [] then [] else '.' :: places

/-- What a numeral with a sign reads as. -/
def signed (negative : Bool) (size : Float) : Float := if negative then -size else size

theorem isDigit_ne {c d : Char} (hc : isDigit c = true) (hd : isDigit d = false) : c ≠ d := by
  rintro rfl
  rw [hc] at hd
  cases hd

theorem takeSign_sign_append {c : Char} (hc : isDigit c = true) (negative : Bool)
    (rest : List Char) : takeSign (sign negative ++ c :: rest) = (negative, c :: rest) := by
  cases negative
  · show takeSign (c :: rest) = _
    unfold takeSign
    split
    next h => exact absurd (List.cons.inj h).1 (isDigit_ne hc (by decide))
    next h => exact absurd (List.cons.inj h).1 (isDigit_ne hc (by decide))
    next => rfl
  · rfl

theorem stops_point (places : List Char) : Text.Stops isDigit (point places) := by
  unfold point
  split_ifs
  · exact Text.stops_nil isDigit
  · exact Text.stops_cons_iff.2 (by decide)

theorem read?_numeral {whole places : List Char} (negative : Bool) (hne : whole ≠ [])
    (hw : ∀ c ∈ whole, isDigit c = true) (hp : ∀ c ∈ places, isDigit c = true) :
    read? (sign negative ++ (whole ++ point places)) =
      some (signed negative (nearest (value (whole ++ places)) (-places.length))) := by
  have hsign : takeSign (sign negative ++ (whole ++ point places)) =
      (negative, whole ++ point places) := by
    obtain ⟨c, more, rfl⟩ := List.exists_cons_of_ne_nil hne
    exact takeSign_sign_append (hw c List.mem_cons_self) negative _
  have htake : places.takeWhile isDigit = places := by
    have := Text.takeWhile_append_of_stops hp (Text.stops_nil isDigit)
    rwa [List.append_nil] at this
  have hdrop : places.dropWhile isDigit = [] := by
    have := Text.dropWhile_append_of_stops hp (Text.stops_nil isDigit)
    rwa [List.append_nil] at this
  have hempty : whole.isEmpty = false := by
    rw [List.isEmpty_eq_false_iff]
    exact hne
  unfold read?
  simp only [hsign, Text.takeWhile_append_of_stops hw (stops_point places),
    Text.dropWhile_append_of_stops hw (stops_point places), hempty, Bool.false_and]
  by_cases hplaces : places = []
  · subst hplaces
    rfl
  · rw [point, if_neg hplaces]
    simp only [htake, hdrop, Bool.false_eq_true, if_false, readExponent?, Option.map_some,
      zero_sub]
    rfl

/-! ## Positional notation -/

theorem isDigit_of_mem_replicate {k : Nat} {c : Char} (h : c ∈ List.replicate k '0') :
    isDigit c = true := by
  rw [List.eq_of_mem_replicate h]
  decide

theorem value_padZeros (width : Nat) (s : List Char) : value (padZeros width s) = value s := by
  rw [padZeros, value_append, value_zeros, Nat.mul_zero, Nat.zero_add]

theorem isDigit_of_mem_padZeros {width n : Nat} {c : Char} (h : c ∈ padZeros width (digits n)) :
    isDigit c = true := by
  rcases List.mem_append.1 h with h | h
  · exact isDigit_of_mem_replicate h
  · exact isDigit_of_mem_digits h

theorem length_padZeros (width : Nat) (s : List Char) :
    (padZeros width s).length = max width s.length := by
  rw [padZeros, List.length_append, List.length_replicate]
  omega

/-- Whether no zero stands in front of other digits. -/
def NoLeadingZero (whole : List Char) : Prop := ∀ rest, whole = '0' :: rest → rest = []

/-- Positional notation is a numeral of the same value; its whole part has the digits in front of
the point, or a zero. -/
theorem positional_eq (n : Nat) (power : ℤ) : ∃ whole places : List Char, whole ≠ [] ∧
    (∀ c ∈ whole, isDigit c = true) ∧ (∀ c ∈ places, isDigit c = true) ∧
    positional n power = whole ++ point places ∧
    (value (whole ++ places) : ℚ) * 10 ^ (-(places.length : ℤ)) = n * 10 ^ power ∧
    (0 < n → NoLeadingZero whole) ∧ (whole.length : ℤ) = max 1 ((digits n).length + power) ∧
    (0 ≤ power → places = []) := by
  have hpos : 0 < (digits n).length := List.length_pos_iff.2 (digits_ne_nil n)
  unfold positional
  by_cases hpower : 0 ≤ power
  · obtain ⟨k, rfl⟩ := Int.eq_ofNat_of_zero_le hpower
    rw [if_pos hpower]
    refine ⟨digits n ++ List.replicate k '0', [], ?_, ?_, ?_, ?_, ?_, fun hn => ?_, ?_,
      fun _ => rfl⟩
    · exact fun h => digits_ne_nil n (List.append_eq_nil_iff.1 h).1
    · intro c hc
      rcases List.mem_append.1 hc with hc | hc
      · exact isDigit_of_mem_digits hc
      · exact isDigit_of_mem_replicate hc
    · exact fun c hc => absurd hc List.not_mem_nil
    · exact (List.append_nil _).symm
    · rw [List.append_nil, value_append, value_digits, value_zeros, List.length_replicate,
        List.length_nil, Nat.cast_zero, neg_zero, zpow_zero, zpow_natCast]
      push_cast
      ring
    · intro rest h
      obtain ⟨c, more, hdigits⟩ := List.exists_cons_of_ne_nil (digits_ne_nil n)
      rw [hdigits, List.cons_append] at h
      rw [(List.cons.inj h).1] at hdigits
      exact absurd hdigits (digits_ne_zero_cons hn more)
    · rw [List.length_append, List.length_replicate]
      omega
  · obtain ⟨k, hk⟩ := Int.eq_ofNat_of_zero_le (by omega : 0 ≤ -power)
    obtain rfl : power = -k := by omega
    have hlen := length_padZeros (k + 1) (digits n)
    rw [if_neg hpower, neg_neg, Int.toNat_natCast, pointed, if_neg (by omega)]
    refine ⟨(padZeros (k + 1) (digits n)).take ((padZeros (k + 1) (digits n)).length - k),
      (padZeros (k + 1) (digits n)).drop ((padZeros (k + 1) (digits n)).length - k),
      ?_, ?_, ?_, ?_, ?_, fun hn => ?_, ?_, fun h => absurd h hpower⟩
    · rw [← List.length_pos_iff, List.length_take]
      omega
    · exact fun c hc => isDigit_of_mem_padZeros (List.mem_of_mem_take hc)
    · exact fun c hc => isDigit_of_mem_padZeros (List.mem_of_mem_drop hc)
    · rw [point, if_neg]
      rw [← List.length_eq_zero_iff, List.length_drop]
      omega
    · have hplaces : (padZeros (k + 1) (digits n)).length -
          ((padZeros (k + 1) (digits n)).length - k) = k := by omega
      rw [List.take_append_drop, value_padZeros, value_digits, List.length_drop, hplaces]
    · intro rest h
      rcases Nat.lt_or_ge k (digits n).length with hlt | hge
      · -- no zeros are put in front
        have hpad : padZeros (k + 1) (digits n) = digits n := by
          rw [padZeros, Nat.sub_eq_zero_of_le hlt]
          rfl
        rw [hpad] at h
        have hfront := List.take_append_drop ((digits n).length - k) (digits n)
        rw [h, List.cons_append] at hfront
        exact absurd hfront.symm (digits_ne_zero_cons hn _)
      · have := congrArg List.length h
        rw [List.length_take, List.length_cons] at this
        exact List.length_eq_zero_iff.1 (by omega)
    · rw [List.length_take]
      omega

/-! ## Reading a double back -/

theorem le_ten_zpow_digits (n : Nat) (power : ℤ) :
    (n * 10 ^ power : ℚ) ≤ 10 ^ (((digits n).length : ℤ) + power) := by
  have h : (n : ℚ) ≤ 10 ^ ((digits n).length : ℤ) := by
    exact_mod_cast (lt_pow_length_digits n).le
  rw [zpow_add₀ (by norm_num)]
  exact mul_le_mul_of_nonneg_right h (ten_zpow_pos power).le

theorem ten_zpow_digits_le {n : Nat} (hn : 0 < n) (power : ℤ) :
    (10 : ℚ) ^ (((digits n).length : ℤ) - 1 + power) ≤ n * 10 ^ power := by
  have hlen : 0 < (digits n).length := List.length_pos_iff.2 (digits_ne_nil n)
  have h : (10 : ℚ) ^ (((digits n).length : ℤ) - 1) ≤ n := by
    have := pow_length_digits_le hn
    rw [← Nat.cast_pred hlen, zpow_natCast]
    exact_mod_cast this
  rw [zpow_add₀ (by norm_num)]
  exact mul_le_mul_of_nonneg_right h (ten_zpow_pos power).le

theorem two_zpow_1025_le : (2 : ℚ) ^ (1025 : ℤ) ≤ 10 ^ (310 : ℤ) := calc
  (2 : ℚ) ^ (1025 : ℤ) = (2 ^ 205) ^ 5 := by rw [← pow_mul]; exact zpow_natCast 2 1025
  _ ≤ (10 ^ 62) ^ 5 := pow_le_pow_left₀ (by norm_num) (by norm_num) 5
  _ = 10 ^ (310 : ℤ) := by rw [← pow_mul]; exact (zpow_natCast 10 310).symm

section

variable {mantissa : Nat} {exponent : ℤ}

/-- A decimal in the interval around a double is far from the cutoffs. -/
theorem size_bounds (hd : IsDouble mantissa exponent) {n : Nat} (hn : 0 < n) {power : ℤ}
    (h : (Interval.around mantissa exponent).Contains (n * 10 ^ power)) :
    -330 ≤ (digits n).length + power ∧ (digits n).length + power ≤ 310 := by
  obtain ⟨hlow, hhigh⟩ := Contains.bounds hd h
  constructor
  · by_contra hlt
    have h3 : (n : ℚ) * 10 ^ power ≤ 2 ^ (-1076 : ℤ) := calc
      (n : ℚ) * 10 ^ power ≤ 10 ^ (((digits n).length : ℤ) + power) := le_ten_zpow_digits n power
      _ ≤ 2 ^ (-1076 : ℤ) := ten_zpow_le_two_zpow (by omega) (by omega)
    exact absurd h3 (not_le.2 hlow)
  · by_contra hlt
    have h3 : (2 : ℚ) ^ (1025 : ℤ) ≤ n * 10 ^ power := calc
      (2 : ℚ) ^ (1025 : ℤ) ≤ 10 ^ (310 : ℤ) := two_zpow_1025_le
      _ ≤ 10 ^ (((digits n).length : ℤ) - 1 + power) :=
        zpow_le_zpow_right₀ (by norm_num) (by omega)
      _ ≤ n * 10 ^ power := ten_zpow_digits_le hn power
    exact absurd h3 (not_le.2 hhigh)

theorem nearest_eq (hd : IsDouble mantissa exponent) {n : Nat} {power : ℤ}
    (h : (Interval.around mantissa exponent).Contains (n * 10 ^ power)) :
    nearest n power = .ofModel (.pack (.finite .positive mantissa exponent hd.pos)) := by
  have hn : 0 < n := by
    by_contra h0
    rw [Nat.eq_zero_of_not_pos h0, Nat.cast_zero, zero_mul] at h
    exact absurd (Contains.bounds hd h).1 (not_lt.2 (two_zpow_pos _).le)
  obtain ⟨hlow, hhigh⟩ := size_bounds hd hn h
  unfold nearest
  dsimp only
  rw [if_neg (by omega), if_neg (by omega)]
  exact ofScientific_eq hd hn (by rwa [powerOf_natAbs])

end

/-- The text of a finite double is a numeral, which reads as the double. -/
theorem plain_eq_numeral {x : Float} {negative : Bool} {mantissa : Nat} {exponent : ℤ}
    (h : Binary.ofFloat x = .finite negative mantissa exponent) :
    ∃ whole places : List Char, whole ≠ [] ∧
      (∀ c ∈ whole, isDigit c = true) ∧ (∀ c ∈ places, isDigit c = true) ∧
      (plain x).toList = sign negative ++ (whole ++ point places) ∧
      signed negative (nearest (value (whole ++ places)) (-places.length)) = x := by
  by_cases hm : mantissa = 0
  · subst hm
    refine ⟨['0'], [], by simp, List.forall_mem_singleton.2 rfl, by simp, ?_, ?_⟩
    · unfold plain
      rw [h]
      exact String.toList_ofList
    · rw [eq_pack_zero_of_ofFloat h]
      cases negative
      · rfl
      · rfl
  · have hd := isDouble_of_ofFloat h (Nat.pos_of_ne_zero hm)
    obtain ⟨whole, places, hne, hw, hp, htext, hvalue, -⟩ :=
      positional_eq (shortest .up mantissa exponent).1 (shortest .up mantissa exponent).2
    refine ⟨whole, places, hne, hw, hp, ?_, ?_⟩
    · unfold plain
      rw [h]
      split
      next heq => exact absurd (Binary.finite.inj heq).2.1 hm
      next heq =>
        obtain ⟨rfl, rfl, rfl⟩ := Binary.finite.inj heq
        simp only
        rw [String.toList_ofList, htext]
      next hno => exact absurd rfl (hno _ _ _)
    · rw [nearest_eq hd (by rw [hvalue]; exact shortest_contains hd .up),
        eq_pack_of_ofFloat h hd.pos]
      cases negative
      · rfl
      · exact neg_pack_finite hd

theorem plain_of_not_finite {x : Float} (h : x.isFinite = false) :
    (plain x).toList = ['N', 'a', 'N'] ∨ (plain x).toList = ['i', 'n', 'f'] ∨
      (plain x).toList = ['-', 'i', 'n', 'f'] := by
  unfold plain
  rcases hx : Binary.ofFloat x with _ | negative | ⟨negative, mantissa, exponent⟩
  · exact Or.inl rfl
  · cases negative
    · exact Or.inr (Or.inl rfl)
    · exact Or.inr (Or.inr rfl)
  · rw [isFinite_iff.2 ⟨negative, mantissa, exponent, hx⟩] at h
    cases h

/-- The text of a finite double reads as the double. -/
theorem read?_plain {x : Float} (h : x.isFinite = true) : read? (plain x).toList = some x := by
  obtain ⟨negative, mantissa, exponent, hx⟩ := isFinite_iff.1 h
  obtain ⟨whole, places, hne, hw, hp, htext, hvalue⟩ := plain_eq_numeral hx
  rw [htext, read?_numeral negative hne hw hp, hvalue]

/-! ## The characters of a decimal -/

/-- Whether `c` may stand in a decimal. -/
def isDecimalChar (c : Char) : Bool := isDigit c || ['+', '-', '.', 'e', 'E'].contains c

section

variable {s : List Char} {c : Char}

theorem isDecimalChar_of_isDigit (h : isDigit c = true) : isDecimalChar c = true := by
  rw [isDecimalChar, h, Bool.true_or]

theorem isDecimalChar_of_takeSign (h : ∀ c ∈ (takeSign s).2, isDecimalChar c = true) :
    ∀ c ∈ s, isDecimalChar c = true := by
  unfold takeSign at h
  split at h
  next => exact List.forall_mem_cons.2 ⟨rfl, h⟩
  next => exact List.forall_mem_cons.2 ⟨rfl, h⟩
  next => exact h

theorem isDecimalChar_of_takeWhile (h : ∀ c ∈ s.dropWhile isDigit, isDecimalChar c = true) :
    ∀ c ∈ s, isDecimalChar c = true := by
  intro c hc
  rw [← List.takeWhile_append_dropWhile (p := isDigit) (l := s), List.mem_append] at hc
  rcases hc with hc | hc
  · exact isDecimalChar_of_isDigit (List.all_eq_true.1 List.all_takeWhile c hc)
  · exact h c hc

theorem isDecimalChar_of_readExponent? {e : Int} (h : readExponent? s = some e) :
    ∀ c ∈ s, isDecimalChar c = true := by
  cases s with
  | nil => exact List.forall_mem_nil _
  | cons c rest =>
    simp only [readExponent?] at h
    split at h
    next hc =>
      simp only [Bool.and_eq_true, Bool.or_eq_true, beq_iff_eq] at hc
      have hds : ∀ d ∈ (takeSign rest).2, isDecimalChar d = true := fun d hd =>
        isDecimalChar_of_isDigit (List.all_eq_true.1 hc.2 d hd)
      refine List.forall_mem_cons.2 ⟨?_, isDecimalChar_of_takeSign hds⟩
      rcases hc.1.1 with rfl | rfl <;> rfl
    next => cases h

/-- A text that is read as a decimal holds no other characters. -/
theorem isDecimalChar_of_read? {x : Float} (h : read? s = some x) :
    ∀ c ∈ s, isDecimalChar c = true := by
  apply isDecimalChar_of_takeSign
  apply isDecimalChar_of_takeWhile
  simp only [read?] at h
  split at h
  next more hrest =>
    simp only at h
    split at h
    next => cases h
    next =>
      obtain ⟨e, he, -⟩ := Option.map_eq_some_iff.1 h
      rw [hrest]
      exact List.forall_mem_cons.2
        ⟨rfl, isDecimalChar_of_takeWhile (isDecimalChar_of_readExponent? he)⟩
  next =>
    simp only at h
    split at h
    next => cases h
    next =>
      obtain ⟨e, he, -⟩ := Option.map_eq_some_iff.1 h
      exact isDecimalChar_of_readExponent? he

end

end FreeBody.Decimal
