import FreeBody.Markup.Coordinate
import FreeBody.Proofs.Decimal.Scaling
import Mathlib.Data.List.TakeWhile

/-!
# Plain decimals

A number in markup is written without needless zeros, in at most three places, and without an
exponent (`IsPlain`).  It is first multiplied by a thousand and later divided by it, and the
product may be too large for a double although the number is not; then the word `inf` is written.

    IsPlain (coordinate x).toList ↔ ¬ TooLarge x                       (isPlain_coordinate_iff)
    (coordinate (-x)).toList = opposite (coordinate x).toList          (coordinate_neg)
-/

namespace FreeBody.Markup

open Decimal (isDigit point sign IsPositive number overflow NoLeadingZero)

/-! ## Plain decimals -/

/-- The digits in front of the point. -/
def wholeOf (s : List Char) : List Char := s.takeWhile isDigit

/-- What stands behind the point. -/
def placesOf (s : List Char) : List Char := (s.dropWhile isDigit).tail

/-- A decimal above zero: digits, of which none is a needless zero, and perhaps a point with one to
three digits, of which the last is no zero. -/
structure IsMagnitude (s : List Char) : Prop where
  parts : s = wholeOf s ++ point (placesOf s)
  whole_ne_nil : wholeOf s ≠ []
  whole_zero : (wholeOf s).head? = some '0' → wholeOf s = ['0'] ∧ placesOf s ≠ []
  places_digits : ∀ c ∈ placesOf s, isDigit c = true
  places_length : (placesOf s).length ≤ 3
  places_last : (placesOf s).getLast? ≠ some '0'

theorem isMagnitude_iff {s : List Char} : IsMagnitude s ↔
    s = wholeOf s ++ point (placesOf s) ∧ wholeOf s ≠ [] ∧
      ((wholeOf s).head? = some '0' → wholeOf s = ['0'] ∧ placesOf s ≠ []) ∧
      (∀ c ∈ placesOf s, isDigit c = true) ∧ (placesOf s).length ≤ 3 ∧
      (placesOf s).getLast? ≠ some '0' :=
  ⟨fun h => ⟨h.1, h.2, h.3, h.4, h.5, h.6⟩,
    fun ⟨h1, h2, h3, h4, h5, h6⟩ => ⟨h1, h2, h3, h4, h5, h6⟩⟩

instance (s : List Char) : Decidable (IsMagnitude s) := decidable_of_iff _ isMagnitude_iff.symm

/-- A zero, or a decimal above or below it. -/
def IsPlain (s : List Char) : Prop :=
  s = ['0'] ∨ IsMagnitude s ∨ s.head? = some '-' ∧ IsMagnitude s.tail

instance (s : List Char) : Decidable (IsPlain s) := inferInstanceAs (Decidable (_ ∨ _))

example : IsPlain "-7.25".toList ∧ ¬ IsPlain "-0".toList ∧ ¬ IsPlain "1.50".toList := by decide

/-- The signs that a number may have in front. -/
def signs : List (List Char) := [[], ['+'], ['-']]

/-- A number as the markup language reads it: digits in front of a point or behind it, with or
without a sign and an exponent. -/
def IsNumber (s : List Char) : Prop :=
  ∃ front whole places rest : List Char, s = front ++ (whole ++ point places) ++ rest ∧
    front ∈ signs ∧ (∀ c ∈ whole ++ places, isDigit c = true) ∧ whole ++ places ≠ [] ∧
    (rest = [] ∨ ∃ e front' ds, rest = e :: (front' ++ ds) ∧ e ∈ ['e', 'E'] ∧ front' ∈ signs ∧
      ds ≠ [] ∧ ∀ c ∈ ds, isDigit c = true)

section

variable {s whole places : List Char} {c : Char}

theorem mem_point (h : c ∈ point places) : c = '.' ∨ c ∈ places := by
  unfold point at h
  split at h
  · exact absurd h List.not_mem_nil
  · exact List.mem_cons.1 h

theorem IsMagnitude.whole_digits (c : Char) (hc : c ∈ wholeOf s) : isDigit c = true :=
  List.all_eq_true.1 List.all_takeWhile c hc

theorem IsMagnitude.isNumber (h : IsMagnitude s) (front : List Char) (hfront : front ∈ signs) :
    IsNumber (front ++ s) := by
  refine ⟨front, wholeOf s, placesOf s, [], ?_, hfront, ?_, ?_, Or.inl rfl⟩
  · rw [List.append_nil, ← h.parts]
  · exact List.forall_mem_append.2 ⟨IsMagnitude.whole_digits, h.places_digits⟩
  · exact fun hnil => h.whole_ne_nil (List.append_eq_nil_iff.1 hnil).1

/-- A plain decimal is a number. -/
theorem IsPlain.isNumber (h : IsPlain s) : IsNumber s := by
  rcases h with rfl | h | ⟨hsign, h⟩
  · exact ⟨[], ['0'], [], [], rfl, by decide, by decide, by decide, Or.inl rfl⟩
  · exact h.isNumber [] (by decide)
  · obtain ⟨rest, rfl⟩ := List.head?_eq_some_iff.1 hsign
    exact h.isNumber ['-'] (by decide)

/-- A number holds no other characters than decimals do. -/
theorem IsNumber.isDecimalChar (h : IsNumber s) (hc : c ∈ s) : Decimal.isDecimalChar c = true := by
  obtain ⟨front, whole, places, rest, rfl, hfront, hdigits, -, hrest⟩ := h
  have hsigns : ∀ front ∈ signs, ∀ c ∈ front, Decimal.isDecimalChar c = true := by decide
  rw [List.forall_mem_append] at hdigits
  rcases List.mem_append.1 hc with hc | hc
  · rcases List.mem_append.1 hc with hc | hc
    · exact hsigns front hfront c hc
    · rcases List.mem_append.1 hc with hc | hc
      · exact Decimal.isDecimalChar_of_isDigit (hdigits.1 c hc)
      · rcases mem_point hc with rfl | hc
        · rfl
        · exact Decimal.isDecimalChar_of_isDigit (hdigits.2 c hc)
  · rcases hrest with rfl | ⟨e, front', ds, rfl, he, hfront', -, hds⟩
    · exact absurd hc List.not_mem_nil
    · have hexponent : ∀ e ∈ ['e', 'E'], Decimal.isDecimalChar e = true := by decide
      rcases List.mem_cons.1 hc with rfl | hc
      · exact hexponent c he
      · rcases List.mem_append.1 hc with hc | hc
        · exact hsigns front' hfront' c hc
        · exact Decimal.isDecimalChar_of_isDigit (hds c hc)

/-! ## Trimming -/

/-- Digits without the zeros at their end. -/
def trimZeros (places : List Char) : List Char := (places.reverse.dropWhile (· == '0')).reverse

theorem trimZeros_prefix (places : List Char) : trimZeros places <+: places := by
  have := List.dropWhile_suffix (l := places.reverse) (· == '0')
  rwa [← List.reverse_prefix, List.reverse_reverse] at this

theorem getLast?_trimZeros (places : List Char) : (trimZeros places).getLast? ≠ some '0' := by
  rw [trimZeros, List.getLast?_reverse]
  intro h
  have := Text.stops_dropWhile (· == '0') places.reverse '0' h
  cases this

/-- Only zeros are trimmed to nothing. -/
theorem trimZeros_eq_nil (h : trimZeros places = []) : ∀ c ∈ places, c = '0' := by
  rw [trimZeros, List.reverse_eq_nil_iff, List.dropWhile_eq_nil_iff] at h
  intro c hc
  exact beq_iff_eq.1 (h c (List.mem_reverse.2 hc))

theorem trimPlaces_append {front : List Char} (hne : whole ≠ [])
    (hw : ∀ c ∈ whole, isDigit c = true) (hp : ∀ c ∈ places, isDigit c = true) :
    trimPlaces (front ++ whole ++ '.' :: places) =
      front ++ whole ++ point (trimZeros places) := by
  have hpoint : ∀ c, isDigit c = true → (c == '.') = false := fun c hc =>
    beq_false_of_ne (Decimal.isDigit_ne hc (by decide))
  have hreverse : (front ++ whole ++ '.' :: places).reverse =
      places.reverse ++ '.' :: (front ++ whole).reverse := by simp
  have hdot : ('.' == '0') = false := by decide
  rw [trimPlaces, hreverse, List.dropWhile_append]
  by_cases hzeros : places.reverse.dropWhile (· == '0') = []
  · -- then the point goes as well
    have hstops : Text.Stops (· == '.') (front ++ whole).reverse := by
      obtain ⟨c, more, hwhole⟩ := List.exists_cons_of_ne_nil
        (fun h => hne (List.reverse_eq_nil_iff.1 h) : whole.reverse ≠ [])
      rw [List.reverse_append, hwhole, List.cons_append]
      refine Text.stops_cons_iff.2 (hpoint c (hw c ?_))
      rw [← List.mem_reverse, hwhole]
      exact List.mem_cons_self
    have hnil : trimZeros places = [] := by rw [trimZeros, hzeros]; rfl
    rw [hzeros, hnil, List.isEmpty_nil, if_pos rfl, List.dropWhile_cons, hdot,
      if_neg Bool.false_ne_true, List.dropWhile_cons, if_pos (beq_self_eq_true _),
      Text.dropWhile_of_stops hstops,
      List.reverse_reverse, point, if_pos rfl, List.append_nil]
  · have hne' : trimZeros places ≠ [] := fun h => hzeros (List.reverse_eq_nil_iff.1 h)
    have hstops : Text.Stops (· == '.') (places.reverse.dropWhile (· == '0') ++
        '.' :: (front ++ whole).reverse) := by
      refine Text.stops_append hzeros (Text.stops_of_forall fun c hc => hpoint c (hp c ?_)) _
      exact List.mem_reverse.1 ((List.dropWhile_suffix _).mem hc)
    rw [List.isEmpty_eq_false_iff.2 hzeros, if_neg Bool.false_ne_true,
      Text.dropWhile_of_stops hstops, point, if_neg hne', trimZeros]
    simp

/-- The parts of a magnitude, put together. -/
theorem isMagnitude_append (hne : whole ≠ []) (hw : ∀ c ∈ whole, isDigit c = true)
    (hzero : NoLeadingZero whole) (hp : ∀ c ∈ places, isDigit c = true)
    (hlength : places.length ≤ 3) (hlast : places.getLast? ≠ some '0')
    (hpositive : whole = ['0'] → places ≠ []) :
    IsMagnitude (whole ++ point places) := by
  have hwhole : wholeOf (whole ++ point places) = whole :=
    Text.takeWhile_append_of_stops hw (Decimal.stops_point places)
  have hplaces : placesOf (whole ++ point places) = places := by
    rw [placesOf, Text.dropWhile_append_of_stops hw (Decimal.stops_point places), point]
    split
    next h => exact h.symm
    next => rfl
  refine ⟨by rw [hwhole, hplaces], by rwa [hwhole], ?_, by rwa [hplaces], by rwa [hplaces],
    by rwa [hplaces]⟩
  rw [hwhole, hplaces]
  intro hhead
  obtain ⟨rest, rfl⟩ := List.head?_eq_some_iff.1 hhead
  obtain rfl := hzero rest rfl
  exact ⟨rfl, hpositive rfl⟩

end

/-! ## Thousandths -/

theorem length_pointed (n : Nat) {places : Nat} (h : 0 < places) :
    (Decimal.pointed n places).length = max (places + 1) (Decimal.digits n).length + 1 := by
  have hlength := Decimal.length_padZeros (places + 1) (Decimal.digits n)
  rw [Decimal.pointed, if_neg (by omega), List.length_append, List.length_cons, List.length_take,
    List.length_drop]
  omega

theorem trimPlaces_pointed {n : Nat} (hn : 0 < n) :
    ∃ s, IsMagnitude s ∧ ∀ front, trimPlaces (front ++ Decimal.pointed n 3) = front ++ s := by
  obtain ⟨whole, places, hne, hw, hp, htext, hvalue, hzero, hlength, -⟩ :=
    Decimal.positional_eq n (-3)
  have hpointed : Decimal.positional n (-3) = Decimal.pointed n 3 := rfl
  rw [hpointed] at htext
  have hplaces : places.length = 3 := by
    have htotal := length_pointed n (by decide : 0 < 3)
    rw [htext, List.length_append, point] at htotal
    split at htotal
    next hnil =>
      rw [List.length_nil] at htotal
      omega
    next =>
      rw [List.length_cons] at htotal
      omega
  have hpoint : point places = '.' :: places := by
    rw [point, if_neg]
    rintro rfl
    cases hplaces
  refine ⟨whole ++ point (trimZeros places), ?_, fun front => ?_⟩
  · have hkept := trimZeros_prefix places
    refine isMagnitude_append hne hw (hzero hn) (fun c hc => hp c (hkept.subset hc))
      (hkept.length_le.trans hplaces.le) (getLast?_trimZeros places) ?_
    rintro rfl hnil
    have hall : ['0'] ++ places = List.replicate (1 + 3) '0' := by
      rw [List.eq_replicate_iff, List.length_append, hplaces]
      exact ⟨rfl, List.forall_mem_append.2 ⟨by decide, trimZeros_eq_nil hnil⟩⟩
    rw [hall, Decimal.value_zeros, Nat.cast_zero, zero_mul] at hvalue
    have hpos : (0 : ℚ) < n * 10 ^ (-3 : ℤ) :=
      mul_pos (by exact_mod_cast hn) (Decimal.ten_zpow_pos _)
    exact hpos.ne hvalue
  · rw [htext, hpoint, ← List.append_assoc, trimPlaces_append hne hw hp, List.append_assoc]

/-- The text of a number of thousandths. -/
def thousandths (z : Float) : List Char :=
  if roundAway z / 1000 == 0 then ['0']
  else trimPlaces (Decimal.fixed 3 (roundAway z / 1000)).toList

theorem toList_coordinate {x : Float} (h : x.isFinite = true) :
    (coordinate x).toList = thousandths (x * 1000) := by
  unfold coordinate thousandths
  rw [h]
  simp only [Bool.not_true, Bool.false_eq_true, if_false]
  split
  · rfl
  · exact String.toList_ofList

theorem coordinate_of_not_finite {x : Float} (h : x.isFinite = false) : coordinate x = "0" := by
  unfold coordinate
  rw [h]
  rfl

/-- What is too large is written as a word. -/
theorem thousandths_infinity : thousandths Decimal.infinity = "inf".toList ∧
    thousandths (-Decimal.infinity) = "-inf".toList := by
  decide +kernel

section

variable {x y z : Float}

theorem ne_zero_of_isPositive (h : IsPositive x) : (x == 0) = false ∧ (-x == 0) = false := by
  obtain ⟨m, e, hd, hx⟩ := h
  have hzero : (0 : Float).toModel.unpack = .zero .positive := rfl
  constructor
  · show Float.Model.UnpackedFloat.beq x.toModel.unpack (0 : Float).toModel.unpack = false
    rw [hx, hzero]
    rfl
  · show Float.Model.UnpackedFloat.beq (-x).toModel.unpack (0 : Float).toModel.unpack = false
    rw [Decimal.unpack_neg hd hx, hzero]
    rfl

theorem power_eq (e : ℤ) : ((Binary.power e).1 : ℚ) = 2 ^ e * (Binary.power e).2 := by
  unfold Binary.power
  simp only [Nat.pow_eq, Nat.cast_pow, Nat.cast_ofNat]
  rw [← zpow_natCast, ← zpow_natCast, ← zpow_add₀ (by norm_num)]
  congr 1
  omega

/-- A double that is not below a thousandth by much has one in its three places. -/
theorem fixed_of_isPositive (h : IsPositive x) (hle : (2 : ℚ) ^ (-10 : ℤ) ≤ number x) :
    ∃ n, 0 < n ∧ (Decimal.fixed 3 x).toList = Decimal.pointed n 3 ∧
      (Decimal.fixed 3 (-x)).toList = ['-'] ++ Decimal.pointed n 3 := by
  obtain ⟨m, e, -, hnumber, hparts, hneg⟩ := h.parts
  have hdown : 0 < (Binary.power e).2 := Nat.two_pow_pos _
  refine ⟨divHalfEven (m * (Binary.power e).1 * Nat.pow 10 3) (Binary.power e).2, ?_, ?_, ?_⟩
  · have hround := Decimal.le_divHalfEven_mul (a := m * (Binary.power e).1 * Nat.pow 10 3) hdown
    refine Nat.pos_of_ne_zero fun hzero => ?_
    rw [hzero] at hround
    have hcast : ((2 * (m * (Binary.power e).1 * Nat.pow 10 3) : Nat) : ℚ) ≤
        (1 * (Binary.power e).2 : Nat) := by exact_mod_cast hround
    have hpos : (0 : ℚ) < (Binary.power e).2 := by exact_mod_cast hdown
    push_cast [power_eq] at hcast
    have hmul := mul_le_mul_of_nonneg_right hle hpos.le
    rw [hnumber] at hmul
    norm_num at hcast hmul
    nlinarith
  · unfold Decimal.fixed
    rw [hparts]
    exact String.toList_ofList
  · unfold Decimal.fixed
    rw [hneg]
    exact String.toList_ofList

theorem thousandths_of_isPositive (h : IsPositive z) :
    thousandths z = ['0'] ∧ thousandths (-z) = ['0'] ∨
      IsMagnitude (thousandths z) ∧ thousandths (-z) = '-' :: thousandths z := by
  unfold thousandths
  rcases h.roundsAway with ⟨hzero, hneg⟩ | ⟨hpositive, hone, hneg⟩
  · rw [hzero, hneg]
    exact Or.inl (by decide +kernel)
  · have hle : (2 : ℚ) ^ (-10 : ℤ) ≤ number (roundAway z) / (1000 : Nat) := by
      rw [le_div_iff₀ (by norm_num)]
      norm_num
      linarith
    obtain ⟨hquotient, hlow, hsign⟩ :
        IsPositive (roundAway z / 1000) ∧ (2 : ℚ) ^ (-10 : ℤ) ≤ number (roundAway z / 1000) ∧
          -roundAway z / 1000 = -(roundAway z / 1000) :=
      hpositive.div_ofNat (n := 1000) (by decide) (by decide) (by decide) hle
    obtain ⟨hne, hne'⟩ := ne_zero_of_isPositive hquotient
    obtain ⟨n, hn, htext, htext'⟩ := fixed_of_isPositive hquotient hlow
    obtain ⟨s, hs, htrim⟩ := trimPlaces_pointed hn
    have hplain := htrim []
    rw [List.nil_append, List.nil_append] at hplain
    rw [hneg, hsign, hne, hne', if_neg Bool.false_ne_true, if_neg Bool.false_ne_true, htext, htext',
      htrim, hplain]
    exact Or.inr ⟨hs, rfl⟩

/-! ## Coordinates -/

/-- Whether a thousand times a number is too large for a double. -/
def TooLarge (x : Float) : Prop := overflow ≤ 1000 * |number x|

/-- What is written for a positive double and its negative. -/
theorem coordinate_of_isPositive (h : IsPositive x) :
    ¬ TooLarge x ∧ (coordinate x).toList = ['0'] ∧ (coordinate (-x)).toList = ['0'] ∨
      ¬ TooLarge x ∧ IsMagnitude (coordinate x).toList ∧
        (coordinate (-x)).toList = '-' :: (coordinate x).toList ∨
      TooLarge x ∧ (coordinate x).toList = "inf".toList ∧
        (coordinate (-x)).toList = "-inf".toList := by
  have hfinite : x.isFinite = true := by
    obtain ⟨m, e, -, -, hparts, -⟩ := h.parts
    exact Decimal.isFinite_iff.2 ⟨_, _, _, hparts⟩
  have hlarge : TooLarge x ↔ overflow ≤ number x * (1000 : Nat) := by
    rw [TooLarge, abs_of_pos h.number_pos, mul_comm]
    norm_num
  obtain ⟨hcases, hsign⟩ :
      (number x * (1000 : Nat) < overflow ∧ IsPositive (x * 1000) ∨
        overflow ≤ number x * (1000 : Nat) ∧ x * 1000 = Decimal.infinity) ∧
        -x * 1000 = -(x * 1000) := h.mul_ofNat (n := 1000) (by decide) (by decide)
  rw [toList_coordinate hfinite, toList_coordinate (by rwa [Decimal.isFinite_neg]), hsign, hlarge]
  rcases hcases with ⟨hsmall, hpositive⟩ | ⟨habove, hinfinity⟩
  · rcases thousandths_of_isPositive hpositive with hzero | hnonzero
    · exact Or.inl ⟨hsmall.not_ge, hzero⟩
    · exact Or.inr (Or.inl ⟨hsmall.not_ge, hnonzero⟩)
  · rw [hinfinity]
    exact Or.inr (Or.inr ⟨habove, thousandths_infinity⟩)

/-- What is written for a number and its negative. -/
theorem coordinate_cases (x : Float) :
    ¬ TooLarge x ∧ (coordinate x).toList = ['0'] ∧ (coordinate (-x)).toList = ['0'] ∨
      ∃ s, (IsMagnitude s ∧ ¬ TooLarge x ∨ s = "inf".toList ∧ TooLarge x) ∧
        ((coordinate x).toList = s ∧ (coordinate (-x)).toList = '-' :: s ∨
          (coordinate x).toList = '-' :: s ∧ (coordinate (-x)).toList = s) := by
  have hzero {x : Float} (h : number x = 0) : ¬ TooLarge x := by
    rw [TooLarge, h, abs_zero, mul_zero, not_le]
    exact (Decimal.two_zpow_pos 1023).trans Decimal.two_zpow_1023_lt
  cases hfinite : x.isFinite with
  | false =>
    have hneg : (-x).isFinite = false := by rwa [Decimal.isFinite_neg]
    rw [coordinate_of_not_finite hfinite, coordinate_of_not_finite hneg]
    exact Or.inl ⟨hzero (Decimal.number_of_not_finite hfinite), rfl, rfl⟩
  | true =>
    rcases Decimal.sign_cases hfinite with ⟨sign, rfl⟩ | hx | ⟨y, hy, hx, hneg, hnumber⟩
    · refine Or.inl ⟨hzero ?_, ?_⟩
      · cases sign <;> rfl
      · cases sign <;> decide +kernel
    · rcases coordinate_of_isPositive hx with h | ⟨hsmall, hs, h⟩ | ⟨hlarge, hinf, h⟩
      · exact Or.inl h
      · exact Or.inr ⟨_, Or.inl ⟨hs, hsmall⟩, Or.inl ⟨rfl, h⟩⟩
      · exact Or.inr ⟨_, Or.inr ⟨rfl, hlarge⟩, Or.inl ⟨hinf, h⟩⟩
    · have hsame : TooLarge x ↔ TooLarge y := by rw [TooLarge, TooLarge, hnumber, abs_neg]
      rw [hsame, hneg]
      rw [hx]
      rcases coordinate_of_isPositive hy with ⟨hsmall, h, h'⟩ | ⟨hsmall, hs, h⟩ | ⟨hlarge, hinf, h⟩
      · exact Or.inl ⟨hsmall, h', h⟩
      · exact Or.inr ⟨_, Or.inl ⟨hs, hsmall⟩, Or.inr ⟨h, rfl⟩⟩
      · exact Or.inr ⟨_, Or.inr ⟨rfl, hlarge⟩, Or.inr ⟨h, hinf⟩⟩

end

/-! ## What is written -/

/-- The words for what is too large. -/
def infinities : List (List Char) := ["inf".toList, "-inf".toList]

/-- What is written for a number. -/
def IsWritten (s : List Char) : Prop := IsPlain s ∨ s ∈ infinities

instance (s : List Char) : Decidable (IsWritten s) := inferInstanceAs (Decidable (_ ∨ _))

/-- A number with the other sign; zero has none. -/
def opposite (s : List Char) : List Char :=
  if s = ['0'] then s
  else if s.head? = some '-' then s.tail
  else '-' :: s

section

variable {s : List Char}

theorem IsNumber.not_infinity (h : IsNumber s) : s ∉ infinities := by
  have hword : ∀ s ∈ infinities, 'i' ∈ s := by decide
  intro hs
  exact absurd (h.isDecimalChar (hword s hs)) (by decide)

theorem IsMagnitude.head?_ne (h : IsMagnitude s) : s.head? ≠ some '-' := by
  obtain ⟨c, more, hwhole⟩ := List.exists_cons_of_ne_nil h.whole_ne_nil
  have hc : isDigit c = true := IsMagnitude.whole_digits c (hwhole ▸ List.mem_cons_self)
  rw [h.parts, hwhole]
  intro hhead
  obtain rfl := Option.some.inj hhead
  cases hc

theorem IsMagnitude.ne_zero (h : IsMagnitude s) : s ≠ ['0'] := by
  rintro rfl
  exact (h.whole_zero rfl).2 rfl

variable (x : Float)

/-- A number is written plainly, or with the word for what is too large. -/
theorem coordinate_written :
    ¬ TooLarge x ∧ IsPlain (coordinate x).toList ∨
      TooLarge x ∧ (coordinate x).toList ∈ infinities := by
  rcases coordinate_cases x with ⟨hsmall, h, -⟩ | ⟨s, hs, hcases⟩
  · exact Or.inl ⟨hsmall, Or.inl h⟩
  · rcases hs with ⟨hs, hsmall⟩ | ⟨rfl, hlarge⟩
    · refine Or.inl ⟨hsmall, ?_⟩
      rcases hcases with ⟨h, -⟩ | ⟨h, -⟩
      · exact Or.inr (Or.inl (h ▸ hs))
      · exact Or.inr (Or.inr (h ▸ ⟨rfl, hs⟩))
    · refine Or.inr ⟨hlarge, ?_⟩
      rcases hcases with ⟨h, -⟩ | ⟨h, -⟩ <;> rw [h] <;> decide

theorem isWritten_coordinate : IsWritten (coordinate x).toList :=
  (coordinate_written x).imp And.right And.right

theorem isNumber_coordinate_iff : IsNumber (coordinate x).toList ↔ ¬ TooLarge x := by
  rcases coordinate_written x with ⟨hsmall, h⟩ | ⟨hlarge, h⟩
  · exact iff_of_true h.isNumber hsmall
  · exact iff_of_false (fun hnumber => hnumber.not_infinity h) (not_not_intro hlarge)

theorem isPlain_coordinate_iff : IsPlain (coordinate x).toList ↔ ¬ TooLarge x := by
  rcases coordinate_written x with ⟨hsmall, h⟩ | ⟨hlarge, h⟩
  · exact iff_of_true h hsmall
  · exact iff_of_false (fun hplain => hplain.isNumber.not_infinity h) (not_not_intro hlarge)

/-- A number and its negative are written alike but for the sign. -/
theorem coordinate_neg : (coordinate (-x)).toList = opposite (coordinate x).toList := by
  unfold opposite
  rcases coordinate_cases x with ⟨-, h, hneg⟩ | ⟨s, hs, hcases⟩
  · rw [h, hneg, if_pos rfl]
  · have hword : "inf".toList ≠ ['0'] ∧ "inf".toList.head? ≠ some '-' := by decide
    have hs : s ≠ ['0'] ∧ s.head? ≠ some '-' := by
      rcases hs with ⟨hs, -⟩ | ⟨rfl, -⟩
      · exact ⟨hs.ne_zero, hs.head?_ne⟩
      · exact hword
    rcases hcases with ⟨h, hneg⟩ | ⟨h, hneg⟩
    · rw [h, hneg, if_neg hs.1, if_neg hs.2]
    · rw [h, hneg, if_neg (by simp)]
      exact (if_pos rfl).symm

end

end FreeBody.Markup
