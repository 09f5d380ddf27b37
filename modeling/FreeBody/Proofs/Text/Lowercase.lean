import FreeBody.Text.Lowercase

/-!
# Lower case

A text in lower case keeps its form, in all of Unicode (`lowercase_lowercase`): of the runs of
codes that tell which characters have another lower form, none has a lower form (`all_misses`).
-/

namespace FreeBody.Text

/-- Whether `c` is its own lower form, whatever stands beside it. -/
def IsLower (c : Char) : Prop := c ≠ 'Σ' ∧ c ≠ 'İ' ∧ lowerChar c = c

instance : DecidablePred IsLower := fun _ => inferInstanceAs (Decidable (_ ∧ _ ∧ _))

theorem IsLower.lowerForm {c : Char} (h : IsLower c) (before after : List Char) :
    lowerForm before c after = [c] := by
  rw [Text.lowerForm, if_neg h.1, if_neg h.2.1, h.2.2]

namespace CaseRun

/-- Whether the code `n` is one of the run. -/
def Has (r : CaseRun) (n : Nat) : Prop :=
  r.first ≤ n ∧ n ≤ r.last ∧ (n - r.first) % r.step = 0

instance (r : CaseRun) : DecidablePred r.Has := fun _ => inferInstanceAs (Decidable (_ ∧ _ ∧ _))

/-- The lower form of a code of the run. -/
def lowerCode (r : CaseRun) (n : Nat) : Nat := ((n : Int) + r.shift).toNat

/-- The least lower form. -/
def low (r : CaseRun) : Nat := r.lowerCode r.first

/-- The greatest lower form. -/
def high (r : CaseRun) : Nat := r.lowerCode r.last

/-- Whether the lower forms of `r` miss the run `other`: they lie apart, or each has every second
code and they alternate. -/
def misses (r other : CaseRun) : Bool :=
  Nat.blt r.high other.first || Nat.blt other.last r.low ||
    ((Nat.beq r.low r.high || Nat.beq r.step 2) && Nat.beq other.step 2 &&
      Nat.beq ((r.low + other.first) % 2) 1)

/-- Whether the lower forms of `r` are codes of characters other than `İ`. -/
def Lowers (r : CaseRun) : Prop :=
  0 ≤ r.first + r.shift ∧ (r.high < 0xD800 ∨ 0xDFFF < r.low ∧ r.high < 0x110000) ∧
    (r.high < 0x130 ∨ 0x130 < r.low ∨ r.step = 2 ∧ r.low % 2 = 1)

instance : DecidablePred Lowers := fun _ => inferInstanceAs (Decidable (_ ∧ _ ∧ _))

section

variable {r other : CaseRun} {n : Nat} (h : r.Has n) (hlowers : r.Lowers)

include h hlowers

theorem Has.lowerCode : r.low ≤ r.lowerCode n ∧ r.lowerCode n ≤ r.high ∧
    (r.lowerCode n - r.low) % r.step = 0 := by
  obtain ⟨hfirst, hlast, hstep⟩ := h
  have hsame : r.lowerCode n - r.low = n - r.first := by
    have := hlowers.1
    unfold low CaseRun.lowerCode
    omega
  rw [hsame]
  refine ⟨?_, ?_, hstep⟩ <;> (simp only [low, high, CaseRun.lowerCode]; omega)

theorem Has.isValidChar_lowerCode : (r.lowerCode n).isValidChar := by
  obtain ⟨hlow, hhigh, -⟩ := h.lowerCode hlowers
  rcases hlowers.2.1 with hbelow | hbeyond
  · exact .inl (by omega)
  · exact .inr (by omega)

theorem Has.lowerCode_ne : r.lowerCode n ≠ 0x130 := by
  obtain ⟨hlow, hhigh, hstep⟩ := h.lowerCode hlowers
  obtain hbelow | habove | ⟨htwo, hodd⟩ := hlowers.2.2
  · omega
  · omega
  · rw [htwo] at hstep
    omega

theorem Has.not_has_lowerCode (hmisses : r.misses other = true) :
    ¬ other.Has (r.lowerCode n) := by
  obtain ⟨hlow, hhigh, hstep⟩ := h.lowerCode hlowers
  rintro ⟨hfirst, hlast, hother⟩
  simp only [misses, Bool.or_eq_true, Bool.and_eq_true, Nat.blt_eq, Nat.beq_eq] at hmisses
  obtain (hbelow | habove) | ⟨⟨hsingle | htwo, htwo'⟩, hodd⟩ := hmisses
  · omega
  · omega
  · rw [htwo'] at hother
    omega
  · rw [htwo] at hstep
    rw [htwo'] at hother
    omega

end

end CaseRun

/-! ### The table -/

theorem lowers_of_mem : ∀ r ∈ lowercaseRuns, r.Lowers := by decide +kernel

/-- The capital sigma has a lower form in the table too. -/
theorem exists_has_sigma : ∃ r ∈ lowercaseRuns, r.Has 'Σ'.toNat := by
  decide +kernel

/-- What the capital sigma and the `I` with a dot become keeps its form. -/
theorem isLower_exceptions :
    IsLower 'ς' ∧ IsLower 'σ' ∧ IsLower 'i' ∧ IsLower '\u0307' := by
  decide +kernel

/-- No lower form of the table is in the table again. -/
theorem all_misses : (lowercaseRuns.all fun r => lowercaseRuns.all r.misses) = true := by
  decide +kernel

theorem find?_run_eq_some {c : Char} {r : CaseRun}
    (h : lowercaseRuns.find? (fun r =>
      r.first ≤ c.toNat && c.toNat ≤ r.last && (c.toNat - r.first) % r.step == 0) = some r) :
    r ∈ lowercaseRuns ∧ r.Has c.toNat := by
  have hcode := List.find?_some h
  simp only [Bool.and_eq_true, decide_eq_true_eq, beq_iff_eq, and_assoc] at hcode
  exact ⟨List.mem_of_find?_eq_some h, hcode⟩

theorem toNat_ofNat_of_isValidChar {n : Nat} (h : n.isValidChar) : (Char.ofNat n).toNat = n := by
  rw [Char.ofNat, dif_pos h]
  rfl

/-- A character in none of the runs is its own lower form. -/
theorem lowerChar_eq_self {c : Char} (h : ∀ r ∈ lowercaseRuns, ¬ r.Has c.toNat) :
    lowerChar c = c := by
  unfold lowerChar
  split
  next r hfind =>
    obtain ⟨hmem, hhas⟩ := find?_run_eq_some hfind
    exact absurd hhas (h r hmem)
  next => rfl

theorem isLower_lowerChar {c : Char} (hsigma : c ≠ 'Σ') (hdotted : c ≠ 'İ') :
    IsLower (lowerChar c) := by
  unfold lowerChar
  split
  next r hfind =>
    obtain ⟨hmem, hhas⟩ := find?_run_eq_some hfind
    have hlowers := lowers_of_mem r hmem
    have hcode : (Char.ofNat (r.lowerCode c.toNat)).toNat = r.lowerCode c.toNat :=
      toNat_ofNat_of_isValidChar (hhas.isValidChar_lowerCode hlowers)
    have hmisses : ∀ other ∈ lowercaseRuns, ¬ other.Has (r.lowerCode c.toNat) := by
      intro other hother
      exact hhas.not_has_lowerCode hlowers
        (List.all_eq_true.1 (List.all_eq_true.1 all_misses r hmem) other hother)
    change IsLower (Char.ofNat (r.lowerCode c.toNat))
    generalize Char.ofNat (r.lowerCode c.toNat) = d at hcode ⊢
    rw [← hcode] at hmisses
    refine ⟨?_, ?_, lowerChar_eq_self hmisses⟩
    · rintro rfl
      obtain ⟨other, hother, hsigma⟩ := exists_has_sigma
      exact hmisses other hother hsigma
    · rintro rfl
      exact hhas.lowerCode_ne hlowers hcode.symm
  next hfind => exact ⟨hsigma, hdotted, by rw [lowerChar, hfind]⟩

theorem isLower_of_mem_lowerForm {before after : List Char} {c d : Char}
    (h : d ∈ lowerForm before c after) : IsLower d := by
  obtain ⟨hfinal, hsmall, hi, hdot⟩ := isLower_exceptions
  unfold lowerForm at h
  split at h
  next =>
    -- either form of the small sigma
    obtain rfl := List.mem_singleton.1 h
    split
    · exact hfinal
    · exact hsmall
  next hsigma =>
    split at h
    next =>
      simp only [List.mem_cons, List.not_mem_nil, or_false] at h
      obtain rfl | rfl := h
      · exact hi
      · exact hdot
    next hdotted =>
      obtain rfl := List.mem_singleton.1 h
      exact isLower_lowerChar hsigma hdotted

theorem isLower_of_mem_lowerAfter {s before : List Char} {d : Char}
    (h : d ∈ lowerAfter before s) : IsLower d := by
  induction s generalizing before with
  | nil => cases h
  | cons c s ih =>
    rcases List.mem_append.1 h with hform | hrest
    · exact isLower_of_mem_lowerForm hform
    · exact ih hrest

theorem lowerAfter_of_isLower {s : List Char} (h : ∀ c ∈ s, IsLower c) (before : List Char) :
    lowerAfter before s = s := by
  induction s generalizing before with
  | nil => rfl
  | cons c s ih =>
    rw [List.forall_mem_cons] at h
    rw [lowerAfter, h.1.lowerForm, ih h.2, List.singleton_append]

/-- The lower form of a text is its own lower form: neither the place of a sigma nor the dot of
an `İ` is taken up again. -/
theorem lowercase_lowercase (s : String) : lowercase (lowercase s) = lowercase s := by
  have hlower : ∀ c ∈ (lowercase s).toList, IsLower c := by
    intro c hc
    rw [lowercase, String.toList_ofList] at hc
    exact isLower_of_mem_lowerAfter hc
  rw [lowercase, lowerAfter_of_isLower hlower, String.ofList_toList]

end FreeBody.Text
