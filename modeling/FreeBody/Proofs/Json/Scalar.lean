import FreeBody.Json.Draft
import FreeBody.Json.Writer
import FreeBody.Proofs.Text.Pieces
import Mathlib.Data.List.Basic
import Mathlib.Tactic.SplitIfs

/-!
# Strings and numbers in front of other text

A string is read back whatever it holds (`scanString_stringText`).  A number is read as it is
when it stands alone, as long as what stands behind it does not go on with it
(`scan_number_append`).
-/

namespace FreeBody.Json

open Text (Stops skipSpaces)

/-! ## Strings -/

/-- A control character is written with two hexadecimal digits. -/
theorem hexCode?_padZeros : ∀ n, n < 32 →
    (Decimal.padZeros 2 (Nat.toDigits 16 n)).length = 2 ∧
      hexCode? '0' '0' ((Decimal.padZeros 2 (Nat.toDigits 16 n)).getD 0 '0')
        ((Decimal.padZeros 2 (Nat.toDigits 16 n)).getD 1 '0') = some n := by
  decide

theorem scanString_plain {c : Char} (hquote : c ≠ '"') (hslash : c ≠ '\\')
    (hcontrol : ¬ c.toNat < 32) (o : OpenString) (rest : List Char) :
    scanString o (c :: rest) = scanString (o.push c) rest := by
  rw [scanString.eq_def]
  split
  case h_7 heq =>
    obtain ⟨rfl, rfl⟩ := List.cons.inj heq
    rw [if_neg hcontrol]
  case h_1 heq => cases heq
  case h_2 heq => exact absurd (List.cons.inj heq).1 hquote
  all_goals
    next heq => exact absurd (List.cons.inj heq).1 hslash

theorem scanString_escape {e c : Char} (hu : e ≠ 'u') (he : escaped? e = some c) (o : OpenString)
    (rest : List Char) : scanString o ('\\' :: e :: rest) = scanString (o.push c) rest := by
  rw [scanString.eq_def]
  split
  case h_5 heq =>
    obtain ⟨rfl, rfl⟩ := List.cons.inj (List.cons.inj heq).2
    rw [he]
  case h_1 heq => cases heq
  case h_2 heq => exact absurd (List.cons.inj heq).1 (by decide)
  case h_3 heq | h_4 heq => exact absurd (List.cons.inj (List.cons.inj heq).2).1 hu
  case h_6 heq => cases (List.cons.inj heq).2
  case h_7 hslash _ heq =>
    obtain ⟨rfl, rfl⟩ := List.cons.inj heq
    exact absurd rfl (hslash e rest rfl)

theorem scanString_control {c : Char} (hcontrol : c.toNat < 32) (chars rest : List Char) :
    scanString ⟨some chars, none⟩
        (['\\', 'u', '0', '0'] ++ Decimal.padZeros 2 (Nat.toDigits 16 c.toNat) ++ rest) =
      scanString ⟨some (c :: chars), none⟩ rest := by
  obtain ⟨hlength, hcode⟩ := hexCode?_padZeros c.toNat hcontrol
  obtain ⟨a, b, hab⟩ := List.length_eq_two.1 hlength
  rw [hab] at hcode ⊢
  replace hcode : hexCode? '0' '0' a b = some c.toNat := hcode
  have hunit : OpenString.pushUnit ⟨some chars, none⟩ c.toNat = ⟨some (c :: chars), none⟩ := by
    have htrail : ¬ 0xDC00 ≤ c.toNat := by omega
    have hlead : ¬ 0xD800 ≤ c.toNat := by omega
    simp [OpenString.pushUnit, htrail, hlead]
  show scanString _ ('\\' :: 'u' :: '0' :: '0' :: a :: b :: rest) = _
  rw [scanString, hcode, ← hunit]

/-- A character inside a string is read back as it was. -/
theorem scanString_stringChar (c : Char) (chars rest : List Char) :
    scanString ⟨some chars, none⟩ (stringChar c ++ rest) =
      scanString ⟨some (c :: chars), none⟩ rest := by
  unfold stringChar
  split_ifs with hquote hslash hline hreturn htab hback hfeed hcontrol
  case pos => subst hquote; rfl
  case pos => subst hslash; rfl
  case pos => subst hline; rfl
  case pos => subst hreturn; rfl
  case pos => subst htab; rfl
  case pos => subst hback; rfl
  case pos => subst hfeed; rfl
  case pos => exact scanString_control hcontrol chars rest
  case neg => exact scanString_plain hquote hslash hcontrol _ rest

theorem scanString_flatMap (s chars rest : List Char) :
    scanString ⟨some chars, none⟩ (s.flatMap stringChar ++ '"' :: rest) =
      (.value (String.ofList (chars.reverse ++ s)), some rest) := by
  induction s generalizing chars with
  | nil =>
    rw [List.append_nil]
    rfl
  | cons c s ih =>
    rw [List.flatMap_cons, List.append_assoc, scanString_stringChar, ih, List.reverse_cons,
      List.append_assoc]
    rfl

theorem toList_stringText (s : String) (rest : List Char) :
    (stringText s).toList ++ rest = '"' :: (s.toList.flatMap stringChar ++ '"' :: rest) := by
  simp [stringText]

/-- A string is read back. -/
theorem scanString_stringText (s : String) (rest : List Char) :
    scanString ⟨some [], none⟩ (s.toList.flatMap stringChar ++ '"' :: rest) =
      (.value s, some rest) := by
  rw [scanString_flatMap, List.reverse_nil, List.nil_append, String.ofList_toList]

/-! ## Numbers -/

/-- Whether a number may go on with `c`. -/
def continuesNumber (c : Char) : Bool := Decimal.isDigit c || c == '.' || c == 'e' || c == 'E'

section

variable {rest : List Char}

theorem stops_isDigit (h : Stops continuesNumber rest) : Stops Decimal.isDigit rest := by
  intro c hc
  have := h c hc
  simp only [continuesNumber, Bool.or_eq_false_iff] at this
  exact this.1.1.1

theorem head_ne (h : Stops continuesNumber rest) {c : Char} {more : List Char}
    (hc : rest = c :: more) : c ≠ '.' ∧ c ≠ 'e' ∧ c ≠ 'E' := by
  subst hc
  have := Text.stops_cons_iff.1 h
  simp only [continuesNumber, Bool.or_eq_false_iff, beq_eq_false_iff_ne] at this
  exact ⟨this.1.1.2, this.1.2, this.2⟩

end

/-! What is read of a number does not depend on what stands behind it.  The lemmas follow the
parts of a number from its end to its front. -/

section

variable {negative : Bool} {whole : List Char} {places : Option (List Char)}
  {x : Scalar Number} {s after rest : List Char} (h : Stops continuesNumber rest)

include h

omit h in
theorem finishNumber_append {exponent : Option (Bool × List Char)}
    (hn : finishNumber negative whole places exponent s = (x, some after)) (rest : List Char) :
    finishNumber negative whole places exponent (s ++ rest) = (x, some (after ++ rest)) := by
  unfold finishNumber at hn ⊢
  cases hr : readNumber? negative whole places exponent <;>
    · rw [hr, Prod.mk.injEq, Option.some.injEq] at hn
      obtain ⟨rfl, rfl⟩ := hn
      rfl

omit h in
theorem brokenNumber_ne : brokenNumber s ≠ (x, some after) := by
  intro hn
  cases hn

theorem scanExponent_append
    (hn : scanExponent negative whole places s = (x, some after)) :
    scanExponent negative whole places (s ++ rest) = (x, some (after ++ rest)) := by
  cases s with
  | nil =>
    have hfinish := finishNumber_append hn rest
    rw [List.nil_append] at hfinish ⊢
    cases rest with
    | nil => exact hfinish
    | cons c rest =>
      obtain ⟨-, he, hE⟩ := head_ne h rfl
      simp only [scanExponent]
      rw [if_neg (by simp [he, hE])]
      exact hfinish
  | cons c tail =>
    rw [List.cons_append]
    simp only [scanExponent] at hn ⊢
    split at hn
    next hc =>
      rw [if_pos hc]
      -- an exponent has digits, so its sign is not cut off from them
      have hsign : Decimal.takeSign (tail ++ rest) =
          ((Decimal.takeSign tail).1, (Decimal.takeSign tail).2 ++ rest) := by
        cases tail with
        | nil => exact absurd hn brokenNumber_ne
        | cons d tail =>
          simp only [Decimal.takeSign, List.cons_append]
          split <;> simp_all
      obtain ⟨htake, hdrop⟩ := Text.run_append_of_stops (stops_isDigit h) (Decimal.takeSign tail).2
      rw [hsign, htake, hdrop]
      split at hn
      next => exact absurd hn brokenNumber_ne
      next hds =>
        rw [if_neg hds]
        exact finishNumber_append hn rest
    next hc =>
      rw [if_neg hc]
      exact finishNumber_append hn rest

theorem scanPlaces_append (hn : scanPlaces negative whole s = (x, some after)) :
    scanPlaces negative whole (s ++ rest) = (x, some (after ++ rest)) := by
  unfold scanPlaces at hn
  split at hn
  next body =>
    simp only [List.cons_append, scanPlaces] at hn ⊢
    obtain ⟨htake, hdrop⟩ := Text.run_append_of_stops (stops_isDigit h) body
    rw [htake, hdrop]
    split at hn
    next => exact absurd hn brokenNumber_ne
    next hds =>
      rw [if_neg hds]
      exact scanExponent_append h hn
  next hpoint =>
    have hexponent := scanExponent_append h hn
    unfold scanPlaces
    split
    next body hbody =>
      cases s with
      | nil => exact absurd rfl (head_ne h hbody).1
      | cons c s =>
        obtain ⟨rfl, -⟩ := List.cons.inj hbody
        exact absurd rfl (hpoint s)
    next => exact hexponent

theorem scanNumber_append (hn : scanNumber negative s = (x, some after)) :
    scanNumber negative (s ++ rest) = (x, some (after ++ rest)) := by
  unfold scanNumber at hn ⊢
  obtain ⟨htake, hdrop⟩ := Text.run_append_of_stops (stops_isDigit h) s
  rw [htake, hdrop]
  simp only at hn ⊢
  split at hn
  next => exact absurd hn brokenNumber_ne
  next => cases hn
  next => exact scanPlaces_append h hn

omit h in
theorem scanWord_ne_number {d : Draft} (hd : ∀ x, d ≠ .number x) {null : Bool} {word : List Char}
    {x : Scalar Number} {out : Option (List Char)} : scanWord d null word s ≠ (.number x, out) := by
  induction word generalizing s with
  | nil => exact fun hn => hd x (Prod.mk.inj hn).1
  | cons w word ih =>
    intro hn
    cases s with
    | nil => cases hn
    | cons c s =>
      rw [scanWord] at hn
      split at hn
      · exact ih hn
      · cases hn

omit h in
theorem scan_minus (fuel : Nat) {body : List Char} (hs : skipSpaces s = '-' :: body) :
    scan (fuel + 1) s = (.number (scanNumber true body).1, (scanNumber true body).2) := by
  rw [scan, hs]
  rfl

omit h in
theorem scan_digit (fuel : Nat) {c : Char} {body : List Char} (hc : Decimal.isDigit c = true)
    (hs : skipSpaces s = c :: body) :
    scan (fuel + 1) s = (.number (scanNumber false (c :: body)).1,
      (scanNumber false (c :: body)).2) := by
  rw [scan, hs]
  split
  case h_9 heq =>
    obtain ⟨rfl, rfl⟩ := List.cons.inj heq
    rw [if_pos hc]
  case h_1 heq => cases heq
  all_goals
    next heq =>
      obtain ⟨rfl, -⟩ := List.cons.inj heq
      exact absurd hc (by decide)

/-- What is read of a number does not depend on the fuel, either. -/
theorem scan_number_append {fuel : Nat} (hn : scan fuel s = (.number x, some after))
    (more : Nat) : scan (more + 1) (s ++ rest) = (.number x, some (after ++ rest)) := by
  cases fuel with
  | zero => cases hn
  | succ fuel =>
    have hskip {c : Char} {body : List Char} (hs : skipSpaces s = c :: body) :
        skipSpaces (s ++ rest) = c :: (body ++ rest) := by
      unfold skipSpaces at hs ⊢
      rw [List.dropWhile_append, hs]
      rfl
    have hin := hn
    rw [scan] at hn
    split at hn
    case h_6 body hs =>
      rw [scan_minus fuel hs, Prod.mk.injEq, Draft.number.injEq] at hin
      have hnumber : scanNumber true body = (x, some after) := Prod.ext hin.1 hin.2
      rw [scan_minus more (hskip hs), scanNumber_append h hnumber]
    case h_9 c body _ _ _ _ _ _ _ hs =>
      split at hn
      next hc =>
        rw [scan_digit fuel hc hs, Prod.mk.injEq, Draft.number.injEq] at hin
        have hnumber : scanNumber false (c :: body) = (x, some after) :=
          Prod.ext hin.1 hin.2
        have happend := scanNumber_append h hnumber
        rw [scan_digit more hc (hskip hs)]
        rw [List.cons_append] at happend
        rw [happend]
      next => cases hn
    case h_8 => split at hn <;> cases hn
    case h_1 | h_5 | h_7 => cases hn
    all_goals exact absurd hn (scanWord_ne_number (by simp))

end

end FreeBody.Json
