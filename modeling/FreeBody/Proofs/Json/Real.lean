import FreeBody.Proofs.Json.Magnitude
import FreeBody.Proofs.Json.Number

/-!
# Doubles that are read

The text of a finite double is scanned as a number (`draft_realText_of_isFinite`).  It is a
numeral of a size in the interval around the double, and that is too large to be taken in for
none: the three greatest doubles, whose intervals come near the bound, are tried one by one.
-/

namespace FreeBody.Json

open Decimal (digits isDigit value point sign NoLeadingZero overflow roundoff)
open Text (Stops)

/-! ## Scanning a numeral -/

section

variable {negative : Bool} {whole places : List Char}

/-- The text of an exponent, if there is one. -/
def exponentPart (e : Option ℤ) : List Char := e.elim [] exponentText

/-- How an exponent is scanned. -/
def scannedExponent (e : Option ℤ) : Option (Bool × List Char) :=
  e.map fun e => (decide (e < 0), digits e.natAbs)

theorem shiftOf_scannedExponent (e : Option ℤ) : shiftOf (scannedExponent e) = e.getD 0 := by
  cases e with
  | none => rfl
  | some e =>
    show (if decide (e < 0) then -(value (digits e.natAbs) : ℤ) else value (digits e.natAbs)) = e
    rw [Decimal.value_digits]
    by_cases h : e < 0
    · rw [if_pos (decide_eq_true h)]
      omega
    · rw [if_neg (by simpa using h)]
      omega

theorem stops_exponentPart (e : Option ℤ) : Stops isDigit (exponentPart e) := by
  cases e with
  | none => exact Text.stops_nil _
  | some e => exact Text.stops_cons_iff.2 (by decide)

theorem scanExponent_exponentPart (places : Option (List Char)) (e : Option ℤ) :
    scanExponent negative whole places (exponentPart e) =
      finishNumber negative whole places (scannedExponent e) [] := by
  cases e with
  | none => rfl
  | some e =>
    have htake : (digits e.natAbs).takeWhile isDigit = digits e.natAbs := by
      have := Text.takeWhile_append_of_stops
        (fun c => Decimal.isDigit_of_mem_digits (n := e.natAbs)) (Text.stops_nil isDigit)
      rwa [List.append_nil] at this
    have hdrop : (digits e.natAbs).dropWhile isDigit = [] := by
      have := Text.dropWhile_append_of_stops
        (fun c => Decimal.isDigit_of_mem_digits (n := e.natAbs)) (Text.stops_nil isDigit)
      rwa [List.append_nil] at this
    have hempty : (digits e.natAbs).isEmpty = false :=
      List.isEmpty_eq_false_iff.2 (Decimal.digits_ne_nil _)
    have hsign : Decimal.takeSign ((if e < 0 then '-' else '+') :: digits e.natAbs) =
        (decide (e < 0), digits e.natAbs) := by
      by_cases h : e < 0
      · rw [if_pos h, decide_eq_true h]
        rfl
      · rw [if_neg h, decide_eq_false h]
        rfl
    show scanExponent negative whole places ('e' :: (if e < 0 then '-' else '+') :: digits e.natAbs)
      = _
    unfold scanExponent
    simp only [beq_self_eq_true, Bool.true_or, if_true, hsign, htake, hdrop, hempty,
      Bool.false_eq_true, if_false]
    rfl

/-- The places behind a point, if there are any. -/
def scannedPlaces (places : List Char) : Option (List Char) :=
  if places = [] then none else some places

theorem scanPlaces_point (hp : ∀ c ∈ places, isDigit c = true) (e : Option ℤ) :
    scanPlaces negative whole (point places ++ exponentPart e) =
      finishNumber negative whole (scannedPlaces places) (scannedExponent e) [] := by
  unfold point scannedPlaces
  split_ifs with hnil
  · rw [← scanExponent_exponentPart]
    cases e <;> rfl
  · rw [← scanExponent_exponentPart]
    have htake := Text.takeWhile_append_of_stops hp (stops_exponentPart e)
    have hdrop := Text.dropWhile_append_of_stops hp (stops_exponentPart e)
    have hempty : places.isEmpty = false := List.isEmpty_eq_false_iff.2 hnil
    rw [List.cons_append]
    unfold scanPlaces
    simp only [htake, hdrop, hempty, Bool.false_eq_true, if_false]

end

/-- The parts of a numeral that is scanned whole, with few digits before the point. -/
structure Numeral where
  whole : List Char
  places : List Char
  exponent : Option ℤ
  whole_ne_nil : whole ≠ []
  isDigit_whole : ∀ c ∈ whole, isDigit c = true
  noLeadingZero : NoLeadingZero whole
  isDigit_places : ∀ c ∈ places, isDigit c = true
  length_le : whole.length ≤ 19

namespace Numeral

variable (m : Numeral)

/-- The text of a numeral. -/
def text : List Char := m.whole ++ (point m.places ++ exponentPart m.exponent)

/-- The number that a numeral stands for. -/
def size : ℚ := value (m.whole ++ m.places) * 10 ^ (m.exponent.getD 0 - m.places.length)

theorem scanNumber_text (negative : Bool) : scanNumber negative m.text =
    finishNumber negative m.whole (scannedPlaces m.places) (scannedExponent m.exponent) [] := by
  have hstops : Stops isDigit (point m.places ++ exponentPart m.exponent) := by
    unfold point
    split_ifs
    · exact stops_exponentPart m.exponent
    · exact Text.stops_cons_iff.2 (by decide)
  rw [← scanPlaces_point m.isDigit_places, text]
  unfold scanNumber
  simp only [Text.takeWhile_append_of_stops m.isDigit_whole hstops,
    Text.dropWhile_append_of_stops m.isDigit_whole hstops]
  split
  next hnil => exact absurd hnil m.whole_ne_nil
  next c more hzero => cases m.noLeadingZero _ hzero
  next => rfl

/-- A numeral that stays below the bound after two roundings is scanned as a number. -/
theorem draft_text (negative : Bool) (he : (m.exponent.getD 0).natAbs ≤ maxExponent)
    (h : m.size * (1 + roundoff) ^ 2 < overflow) :
    ∃ k, draft (sign negative ++ m.text) = (.number (.value k), some []) := by
  have hplaces : (scannedPlaces m.places).getD [] = m.places := by
    unfold scannedPlaces
    split_ifs with hnil
    · exact hnil.symm
    · rfl
  have hsome : (readNumber? negative m.whole (scannedPlaces m.places)
      (scannedExponent m.exponent)).isSome :=
    readNumber?_isSome negative m.isDigit_whole m.length_le (by rwa [shiftOf_scannedExponent])
      (by rwa [shiftOf_scannedExponent, hplaces])
  obtain ⟨k, hk⟩ := Option.isSome_iff_exists.1 hsome
  have hscan : scanNumber negative m.text = (.value k, some []) := by
    rw [m.scanNumber_text, finishNumber, hk]
  obtain ⟨c, more, hwhole⟩ := List.exists_cons_of_ne_nil m.whole_ne_nil
  have hc := m.isDigit_whole c (hwhole ▸ List.mem_cons_self)
  obtain ⟨rest, htext⟩ : ∃ rest, m.text = c :: rest :=
    ⟨_, by rw [text, hwhole, List.cons_append]⟩
  rw [htext] at hscan ⊢
  refine ⟨k, ?_⟩
  cases negative
  · have hskip : Text.skipSpaces (c :: rest) = c :: rest :=
      Text.skipSpaces_of_stops (Text.stops_cons_iff.2 (Decimal.isSpace_eq_false_of_isDigit hc))
    show scan _ (c :: rest) = _
    rw [scan_digit _ hc hskip, hscan]
  · have hskip : Text.skipSpaces ('-' :: c :: rest) = '-' :: c :: rest := rfl
    show scan _ ('-' :: c :: rest) = _
    rw [scan_minus _ hskip, hscan]

end Numeral

/-! ## The text of a double -/

/-- The digits of a decimal with a point in their middle are a numeral. -/
theorem exists_numeral_positional {n : Nat} (hn : 0 < n) {power : ℤ}
    (hlength : ((digits n).length : ℤ) + power ≤ 16) : ∃ m : Numeral, m.exponent = none ∧
      (0 ≤ power → m.places = []) ∧ Decimal.positional n power = m.text ∧
      m.size = n * 10 ^ power := by
  obtain ⟨whole, places, hne, hw, hp, htext, hvalue, hzero, hwhole, hplaces⟩ :=
    Decimal.positional_eq n power
  refine ⟨⟨whole, places, none, hne, hw, hzero hn, hp, by omega⟩, rfl, hplaces, ?_, ?_⟩
  · rw [htext]
    exact congrArg _ (List.append_nil _).symm
  · rw [← hvalue]
    exact congrArg _ (congrArg _ (zero_sub _))

/-- A whole number gets a place. -/
theorem exists_numeral_whole {n : Nat} (hn : 0 < n) {power : ℤ} (hpower : 0 ≤ power)
    (hlength : ((digits n).length : ℤ) + power ≤ 16) : ∃ m : Numeral, m.exponent = none ∧
      Decimal.positional n power ++ ['.', '0'] = m.text ∧ m.size = n * 10 ^ power := by
  obtain ⟨m, hexponent, hplaces, htext, hsize⟩ := exists_numeral_positional hn hlength
  have hnil := hplaces hpower
  refine ⟨{ m with places := ['0'], exponent := none, isDigit_places := by decide }, rfl, ?_, ?_⟩
  · rw [htext, Numeral.text, hnil, hexponent, List.append_assoc]
    rfl
  · have hten : value (m.whole ++ ['0']) = 10 * value m.whole := Decimal.value_append m.whole ['0']
    rw [← hsize, Numeral.size, Numeral.size, hten, hnil, hexponent, List.append_nil]
    show ((10 * value m.whole : Nat) : ℚ) * 10 ^ (-1 : ℤ) = value m.whole * 10 ^ (0 : ℤ)
    push_cast
    norm_num
    ring

/-- Digits with an exponent: one of them stands in front of the point. -/
theorem exists_numeral_exponent (n : Nat) (power : ℤ) {d : Char} {more : List Char}
    (hd : digits n = d :: more) : ∃ m : Numeral,
      m.exponent = some ((digits n).length + power - 1) ∧
      m.text = d :: (point more ++ exponentText ((digits n).length + power - 1)) ∧
      m.size = n * 10 ^ power := by
  have hdigits : ∀ c ∈ d :: more, isDigit c = true :=
    fun c hc => Decimal.isDigit_of_mem_digits (hd ▸ hc)
  rw [List.forall_mem_cons] at hdigits
  refine ⟨⟨[d], more, some ((digits n).length + power - 1), List.cons_ne_nil _ _,
    List.forall_mem_singleton.2 hdigits.1, fun rest h => (List.cons.inj h).2.symm, hdigits.2,
    Nat.le_of_lt_succ (by simp)⟩, rfl, rfl, ?_⟩
  rw [Numeral.size, Option.getD_some, List.singleton_append, ← hd, Decimal.value_digits]
  congr 2
  rw [hd, List.length_cons]
  push_cast
  ring

/-- The decimal of a double is written as a numeral. -/
theorem exists_numeral {n : Nat} (hn : 0 < n) (power : ℤ) : ∃ m : Numeral,
    (m.exponent.getD 0).natAbs ≤ ((digits n).length + power - 1).natAbs ∧
      scaledText n power = m.text ∧ m.size = n * 10 ^ power := by
  obtain ⟨d, more, hd⟩ := List.exists_cons_of_ne_nil (Decimal.digits_ne_nil n)
  unfold scaledText
  simp only
  split_ifs with hwhole hnear
  · simp only [Bool.and_eq_true, decide_eq_true_eq] at hwhole
    obtain ⟨m, he, htext, hsize⟩ := exists_numeral_whole hn hwhole.1 hwhole.2
    exact ⟨m, by simp [he], htext, hsize⟩
  · simp only [Bool.and_eq_true, decide_eq_true_eq] at hnear
    obtain ⟨m, he, -, htext, hsize⟩ := exists_numeral_positional hn hnear.2
    exact ⟨m, by simp [he], htext, hsize⟩
  · obtain ⟨m, he, htext, hsize⟩ := exists_numeral_exponent n power hd
    refine ⟨m, by rw [he, Option.getD_some], ?_, hsize⟩
    rw [htext, hd]
    cases more <;> rfl

section

variable {mantissa : Nat} {exponent : ℤ}

/-- What lies in the interval around a double stays below the bound after two roundings, but for
the three greatest doubles. -/
theorem lt_overflow_of_contains {v : ℚ} (hd : Decimal.IsDouble mantissa exponent)
    (h : (Decimal.Interval.around mantissa exponent).Contains v)
    (htop : ¬(exponent = 971 ∧ 2 ^ 53 - 3 ≤ mantissa)) : v * (1 + roundoff) ^ 2 < overflow := by
  have hhigh := (Decimal.Contains.half hd.pos h).2.1
  have hnonneg : (0 : ℚ) ≤ 2 * mantissa + 1 := by positivity
  have hpos := Decimal.two_zpow_pos 970
  have hlt := hd.lt
  have hle := hd.le
  have hexpand : v * (1 + roundoff) ^ 2 = 2 * v * ((1 + roundoff) ^ 2 / 2) := by ring
  rw [Decimal.overflow_eq, hexpand]
  by_cases he : exponent = 971
  · have hm : (mantissa : ℚ) + 4 ≤ 2 ^ 53 := by exact_mod_cast (by omega : mantissa + 4 ≤ 2 ^ 53)
    have hstep : (2 : ℚ) ^ (971 : ℤ) = 2 ^ (970 : ℤ) * 2 ^ 1 := Decimal.two_zpow_eq 971 1
    rw [he, hstep] at hhigh
    generalize (2 : ℚ) ^ (970 : ℤ) = x at hpos hhigh ⊢
    rw [roundoff]
    nlinarith
  · have hm : (mantissa : ℚ) + 1 ≤ 2 ^ 53 := by exact_mod_cast hlt
    have hstep : (2 : ℚ) ^ exponent ≤ 2 ^ (970 : ℤ) := zpow_le_zpow_right₀ (by norm_num) (by omega)
    have hmul := mul_le_mul_of_nonneg_left hstep hnonneg
    generalize (2 : ℚ) ^ (970 : ℤ) = x at hpos hmul ⊢
    rw [roundoff]
    nlinarith

end

/-- Whether a draft is that of a number with nothing behind it. -/
def isNumberDraft : Draft × Option (List Char) → Bool
  | (.number (.value _), some []) => true
  | _ => false

theorem exists_of_isNumberDraft {out : Draft × Option (List Char)}
    (h : isNumberDraft out = true) : ∃ k, out = (.number (.value k), some []) := by
  unfold isNumberDraft at h
  split at h
  next k => exact ⟨k, rfl⟩
  next => cases h

/-- The digits of the greatest doubles are read as finite doubles, too. -/
theorem draft_greatest : ∀ (negative : Bool) (below : Fin 3),
    isNumberDraft (draft (sign negative ++ scaledText
      (Decimal.shortest .even (2 ^ 53 - 1 - below) 971).1
      (Decimal.shortest .even (2 ^ 53 - 1 - below) 971).2)) = true := by
  decide +kernel

theorem draft_shortest (negative : Bool) {mantissa : Nat} {exponent : ℤ}
    (hd : Decimal.IsDouble mantissa exponent) :
    ∃ k, draft (sign negative ++ scaledText (Decimal.shortest .even mantissa exponent).1
      (Decimal.shortest .even mantissa exponent).2) = (.number (.value k), some []) := by
  by_cases htop : exponent = 971 ∧ 2 ^ 53 - 3 ≤ mantissa
  · have hlt := hd.lt
    have hm : 2 ^ 53 - 1 - (2 ^ 53 - 1 - mantissa) = mantissa := by omega
    have hgreatest := draft_greatest negative ⟨2 ^ 53 - 1 - mantissa, by omega⟩
    rw [hm, ← htop.1] at hgreatest
    exact exists_of_isNumberDraft hgreatest
  · have hcontains := Decimal.shortest_contains hd .even
    generalize Decimal.shortest .even mantissa exponent = p at hcontains ⊢
    obtain ⟨n, power⟩ := p
    simp only at hcontains ⊢
    have hn : 0 < n := by
      by_contra h0
      rw [Nat.eq_zero_of_not_pos h0, Nat.cast_zero, zero_mul] at hcontains
      exact absurd (Decimal.Contains.bounds hd hcontains).1 (not_lt.2 (Decimal.two_zpow_pos _).le)
    obtain ⟨hlow, hhigh⟩ := Decimal.size_bounds hd hn hcontains
    obtain ⟨m, he, htext, hsize⟩ := exists_numeral hn power
    have hmax : maxExponent = 0x7FFFFFFF := rfl
    rw [htext]
    refine m.draft_text negative (by omega) ?_
    rw [hsize]
    exact lt_overflow_of_contains hd hcontains htop

/-- The text of a finite double is scanned as a number. -/
theorem draft_realText_of_isFinite {x : Float} (h : x.isFinite = true) :
    ∃ k, draft (realText x).toList = (.number (.value k), some []) := by
  obtain ⟨negative, mantissa, exponent, hx⟩ := Decimal.isFinite_iff.1 h
  unfold realText
  rw [hx]
  split
  next negative _ heq =>
    rw [String.toList_ofList]
    cases negative
    · exact ⟨_, rfl⟩
    · exact ⟨_, rfl⟩
  next negative mantissa exponent hne heq =>
    obtain ⟨rfl, rfl, rfl⟩ := Binary.finite.inj heq
    have hpos := Nat.pos_of_ne_zero hne
    rw [String.toList_ofList]
    exact draft_shortest _ (Decimal.isDouble_of_ofFloat hx hpos)
  next hno => exact absurd rfl (hno _ _ _)

end FreeBody.Json
