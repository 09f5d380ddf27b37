import FreeBody.Json.Codec
import FreeBody.Proofs.Decimal.ReadBack
import FreeBody.Proofs.Json.Scan

/-!
# Numbers that read back

Reading keeps as many digits as fit a word and rounds at each step, so whether a double is read
back as itself is a property of the double (`ReadsBack`).  One that is has a text that is scanned
whole, also inside a longer text (`readable_of_readsBack`).
-/

namespace FreeBody.Json

open Text (skipSpaces)

/-- Whether the text of a double is read as that double. -/
def ReadsBack (x : Float) : Prop := Codec.real.load (Codec.real.store x) = .ok x

/-! ## What is left behind a number -/

/-- Whether something is left, and it is an end of `s`. -/
def LeavesEnd (s : List Char) (out : Option (List Char)) : Prop := ∃ after ∈ out, after <:+ s

section

variable {negative : Bool} {whole : List Char} {places : Option (List Char)} {n : Number}
  {s t : List Char} {out : Option (List Char)}

theorem LeavesEnd.of_suffix (h : LeavesEnd t out) (hsuffix : t <:+ s) : LeavesEnd s out := by
  obtain ⟨after, hout, hafter⟩ := h
  exact ⟨after, hout, hafter.trans hsuffix⟩

theorem leavesEnd_of_finishNumber {exponent : Option (Bool × List Char)}
    (h : finishNumber negative whole places exponent s = (.value n, out)) : LeavesEnd s out := by
  unfold finishNumber at h
  split at h
  · rw [Prod.mk.injEq] at h
    exact ⟨s, h.2.symm, List.suffix_refl s⟩
  · cases h

theorem suffix_takeSign (s : List Char) : (Decimal.takeSign s).2 <:+ s := by
  unfold Decimal.takeSign
  split
  · exact List.suffix_cons _ _
  · exact List.suffix_cons _ _
  · exact List.suffix_refl _

theorem leavesEnd_of_scanExponent (h : scanExponent negative whole places s = (.value n, out)) :
    LeavesEnd s out := by
  unfold scanExponent at h
  split at h
  next c tail =>
    split at h
    · simp only at h
      split at h
      · cases h
      · exact (leavesEnd_of_finishNumber h).of_suffix ((List.dropWhile_suffix _).trans
          ((suffix_takeSign tail).trans (List.suffix_cons c tail)))
    · exact leavesEnd_of_finishNumber h
  · exact leavesEnd_of_finishNumber h

theorem leavesEnd_of_scanPlaces (h : scanPlaces negative whole s = (.value n, out)) :
    LeavesEnd s out := by
  unfold scanPlaces at h
  split at h
  · simp only at h
    split at h
    · cases h
    · exact (leavesEnd_of_scanExponent h).of_suffix ((List.dropWhile_suffix _).trans
        (List.suffix_cons _ _))
  · exact leavesEnd_of_scanExponent h

theorem leavesEnd_of_scanNumber (h : scanNumber negative s = (.value n, out)) :
    LeavesEnd s out := by
  unfold scanNumber at h
  simp only at h
  split at h
  · cases h
  · cases h
  · exact (leavesEnd_of_scanPlaces h).of_suffix (List.dropWhile_suffix _)

theorem leavesEnd_of_scan {fuel : Nat} (h : scan fuel s = (.number (.value n), out)) :
    LeavesEnd s out := by
  cases fuel with
  | zero => cases h
  | succ fuel =>
    have hskip : skipSpaces s <:+ s := List.dropWhile_suffix _
    have hin := h
    rw [scan] at h
    split at h
    case h_6 body hs =>
      rw [scan_minus fuel hs, Prod.mk.injEq, Draft.number.injEq] at hin
      rw [hs] at hskip
      exact (leavesEnd_of_scanNumber (Prod.ext hin.1 hin.2)).of_suffix
        ((List.suffix_cons '-' body).trans hskip)
    case h_9 c body _ _ _ _ _ _ _ hs =>
      split at h
      next hc =>
        rw [scan_digit fuel hc hs, Prod.mk.injEq, Draft.number.injEq] at hin
        rw [hs] at hskip
        exact (leavesEnd_of_scanNumber (Prod.ext hin.1 hin.2)).of_suffix hskip
      next => cases h
    case h_8 => split at h <;> cases h
    case h_1 | h_5 | h_7 => cases h
    all_goals exact absurd h (scanWord_ne_number (by simp))

end

/-! ## The characters of numbers -/

/-- Whether `c` may stand in the text of a number; one that is not finite is written as `null`. -/
def isNumberChar (c : Char) : Bool :=
  Decimal.isDigit c || ['-', '+', '.', 'e', 'n', 'u', 'l'].contains c

theorem isNumberChar_of_isDigit {c : Char} (h : Decimal.isDigit c = true) :
    isNumberChar c = true := by
  rw [isNumberChar, h, Bool.true_or]

theorem isSpace_of_isNumberChar {c : Char} (h : isNumberChar c = true) :
    Text.isSpace c = false := by
  rcases Bool.or_eq_true_iff.1 h with h | h
  · exact Decimal.isSpace_eq_false_of_isDigit h
  · simp only [List.contains_eq_mem, List.mem_cons, List.not_mem_nil, or_false,
      decide_eq_true_eq] at h
    rcases h with rfl | rfl | rfl | rfl | rfl | rfl | rfl <;> rfl

theorem isNumberChar_of_mem_digits {n : Nat} {c : Char} (h : c ∈ Decimal.digits n) :
    isNumberChar c = true := isNumberChar_of_isDigit (Decimal.isDigit_of_mem_digits h)

theorem isNumberChar_of_mem_sign {negative : Bool} {c : Char} (h : c ∈ Decimal.sign negative) :
    isNumberChar c = true := by
  rw [Decimal.eq_of_mem_sign h]
  rfl

theorem isNumberChar_of_mem_positional {n : Nat} {power : Int} {c : Char}
    (h : c ∈ Decimal.positional n power) : isNumberChar c = true := by
  obtain ⟨whole, places, -, hwhole, hplaces, htext, -⟩ := Decimal.positional_eq n power
  rw [htext, List.mem_append, Decimal.point] at h
  rcases h with h | h
  · exact isNumberChar_of_isDigit (hwhole c h)
  · split at h
    · cases h
    · rcases List.mem_cons.1 h with rfl | h
      · rfl
      · exact isNumberChar_of_isDigit (hplaces c h)

theorem isNumberChar_of_mem_exponentText {e : Int} {c : Char} (h : c ∈ exponentText e) :
    isNumberChar c = true := by
  rcases List.mem_cons.1 h with rfl | h
  · rfl
  · rcases List.mem_cons.1 h with rfl | h
    · split <;> rfl
    · exact isNumberChar_of_mem_digits h

theorem isNumberChar_of_mem_scaledText {n : Nat} {power : Int} {c : Char}
    (h : c ∈ scaledText n power) : isNumberChar c = true := by
  unfold scaledText at h
  simp only at h
  split at h
  · rcases List.mem_append.1 h with h | h
    · exact isNumberChar_of_mem_positional h
    · rcases List.mem_cons.1 h with rfl | h
      · rfl
      · rw [List.mem_singleton.1 h]
        rfl
  · split at h
    · exact isNumberChar_of_mem_positional h
    · have hdigits : ∀ d ∈ Decimal.digits n, isNumberChar d = true := fun d =>
        isNumberChar_of_mem_digits
      split at h
      next d hd =>
        rw [hd] at hdigits
        rcases List.mem_cons.1 h with rfl | h
        · exact hdigits c (List.mem_singleton_self c)
        · exact isNumberChar_of_mem_exponentText h
      next d more _ hd =>
        rw [hd] at hdigits
        rcases List.mem_cons.1 h with rfl | h
        · exact hdigits c List.mem_cons_self
        · rcases List.mem_append.1 h with h | h
          · rcases List.mem_cons.1 h with rfl | h
            · rfl
            · exact hdigits c (List.mem_cons_of_mem d h)
          · exact isNumberChar_of_mem_exponentText h
      next => cases h

theorem isNumberChar_of_mem_realText {x : Float} {c : Char} (h : c ∈ (realText x).toList) :
    isNumberChar c = true := by
  unfold realText at h
  split at h
  · rw [String.toList_ofList, List.mem_append] at h
    rcases h with h | h
    · exact isNumberChar_of_mem_sign h
    · simp only [List.mem_cons, List.not_mem_nil, or_false] at h
      rcases h with rfl | rfl | rfl <;> rfl
  · simp only at h
    rw [String.toList_ofList, List.mem_append] at h
    rcases h with h | h
    · exact isNumberChar_of_mem_sign h
    · exact isNumberChar_of_mem_scaledText h
  · have hnull : ("null" : String).toList = ['n', 'u', 'l', 'l'] := by simp
    rw [hnull] at h
    simp only [List.mem_cons, List.not_mem_nil, or_false] at h
    rcases h with rfl | rfl | rfl | rfl <;> rfl

theorem isNumberChar_of_mem_text {n : Number} {c : Char} (h : c ∈ n.text.toList) :
    isNumberChar c = true := by
  cases n with
  | whole n =>
    rw [Number.text, String.toList_ofList, List.mem_append] at h
    rcases h with h | h
    · exact isNumberChar_of_mem_sign h
    · exact isNumberChar_of_mem_digits h
  | real x => exact isNumberChar_of_mem_realText h

/-! ## Doubles -/

/-- A double that is read back is scanned whole, as a number that stands for it. -/
theorem draft_realText {x : Float} (h : ReadsBack x) :
    ∃ k, draft (realText x).toList = (.number (.value k), some []) ∧ k.toFloat = x := by
  have hload : readAll Draft.toReal (realText x).toList = .ok x := h
  unfold readAll at hload
  rcases hdraft : draft (realText x).toList with ⟨d, rest⟩
  rw [hdraft] at hload
  cases hreal : d.toReal with
  | error fault => simp [hreal] at hload
  | ok a =>
    simp only [hreal] at hload
    split at hload
    next hrest =>
      obtain rfl := Except.ok.inj hload
      unfold Draft.toReal at hreal
      split at hreal
      next k =>
        obtain ⟨after, rfl, hafter⟩ := leavesEnd_of_scan hdraft
        -- what is left holds nothing but blanks, and the text holds none
        have hstops : Text.Stops Text.isSpace after := by
          cases after with
          | nil => exact Text.stops_nil _
          | cons c after =>
            have hmem := hafter.mem List.mem_cons_self
            exact Text.stops_cons_iff.2
              (isSpace_of_isNumberChar (isNumberChar_of_mem_realText hmem))
        rw [Option.getD_some, skipSpaces, Text.dropWhile_of_stops hstops,
          List.isEmpty_iff] at hrest
        exact ⟨k, by rw [hrest], Except.ok.inj hreal⟩
      next => cases hreal
    next => cases hload

end FreeBody.Json
