import FreeBody.Proofs.Json.Scalar

/-!
# Values in front of other text

A value that is read to its end is read in the same way in front of any text that does not go on
with a number, and with more fuel (`scan_append`).  So what is left behind the value is what was
left before and that text (`draft_append`).
-/

namespace FreeBody.Json

open Text (Stops skipSpaces)

section

variable {s after rest : List Char}

theorem scanString_append {o : OpenString} {x : Scalar String}
    (h : scanString o s = (x, some after)) (rest : List Char) :
    scanString o (s ++ rest) = (x, some (after ++ rest)) := by
  fun_induction scanString o s with
  | case2 o tail =>
    cases h
    rfl
  | case3 o a b c d tail unit hunit ih =>
    rw [← ih h]
    simp only [List.cons_append]
    rw [scanString, hunit]
  | case6 o e tail _ hu c hc ih =>
    have hne : e ≠ 'u' := hu
    rw [List.cons_append, List.cons_append, scanString_escape hne hc, ih h]
  | case10 o c tail hquote _ _ hslash hend hcontrol ih =>
    have hne : c ≠ '\\' := by
      intro hc
      cases tail with
      | nil => exact hend hc rfl
      | cons e tail => exact hslash e tail hc rfl
    rw [List.cons_append, scanString_plain hquote hne hcontrol, ih h]
  | case1 | case4 | case5 | case7 | case8 | case9 => cases h

theorem scanWord_append {d d' : Draft} {null : Bool} {word : List Char}
    (h : scanWord d null word s = (d', some after)) (rest : List Char) :
    scanWord d null word (s ++ rest) = (d', some (after ++ rest)) := by
  induction word generalizing s with
  | nil =>
    cases h
    rfl
  | cons w word ih =>
    cases s with
    | nil => cases h
    | cons c s =>
      rw [List.cons_append, scanWord]
      rw [scanWord] at h
      split at h
      next hc => rw [if_pos hc, ih h]
      next => cases h

theorem skipSpaces_append_of_eq {c : Char} {body : List Char} (h : skipSpaces s = c :: body)
    (rest : List Char) : skipSpaces (s ++ rest) = c :: (body ++ rest) := by
  unfold skipSpaces at h ⊢
  rw [List.dropWhile_append, h]
  rfl

end

mutual

theorem scan_append : ∀ {fuel fuel' : Nat} {s after rest : List Char} {d : Draft},
    scan fuel s = (d, some after) → fuel ≤ fuel' → Stops continuesNumber rest →
      scan fuel' (s ++ rest) = (d, some (after ++ rest))
  | 0, _, _, _, _, _, h, _, _ => by cases h
  | fuel + 1, 0, _, _, _, _, _, hfuel, _ => by omega
  | fuel + 1, fuel' + 1, s, after, rest, d, h, hfuel, hrest => by
    have hfuel' : fuel ≤ fuel' := by omega
    rw [scan] at h
    split at h
    case h_1 => cases h
    case h_2 body hs | h_3 body hs | h_4 body hs =>
      rw [scan, skipSpaces_append_of_eq hs]
      exact scanWord_append h rest
    case h_5 body hs =>
      rw [scan, skipSpaces_append_of_eq hs]
      rcases hread : scanString ⟨some [], none⟩ body with ⟨x, out⟩
      rw [hread] at h
      cases h
      simp only [scanString_append hread]
    case h_6 body hs =>
      rw [scan, skipSpaces_append_of_eq hs]
      rcases hread : scanNumber true body with ⟨x, out⟩
      rw [hread] at h
      cases h
      simp only [scanNumber_append hrest hread]
    case h_7 body hs =>
      rw [scan, skipSpaces_append_of_eq hs]
      rcases hread : scanItems fuel true body with ⟨items, ending, out⟩
      rw [hread] at h
      cases h
      simp only [scanItems_append hread hfuel' hrest]
    case h_8 body hs =>
      split at h
      case h_1 => cases h
      case h_2 hbody | h_3 hbody =>
        rw [scan, skipSpaces_append_of_eq hs]
        rcases hread : scanMembers fuel true body with ⟨members, ending, out⟩
        rw [hread] at h
        cases h
        simp only [skipSpaces_append_of_eq hbody, scanMembers_append hread hfuel' hrest]
      case h_4 => cases h
    case h_9 c body _ _ _ _ _ _ _ hs =>
      split at h
      next hc =>
        rw [scan_digit fuel' hc (skipSpaces_append_of_eq hs rest)]
        rcases hread : scanNumber false (c :: body) with ⟨x, out⟩
        rw [hread] at h
        cases h
        have happend := scanNumber_append hrest hread
        rw [List.cons_append] at happend
        rw [happend]
      next => cases h

theorem scanItems_append : ∀ {fuel fuel' : Nat} {first : Bool} {s after rest : List Char}
    {items : List Draft} {ending : Option Fault},
    scanItems fuel first s = (items, ending, some after) → fuel ≤ fuel' →
      Stops continuesNumber rest →
      scanItems fuel' first (s ++ rest) = (items, ending, some (after ++ rest))
  | 0, _, _, _, _, _, _, _, h, _, _ => by cases h
  | fuel + 1, 0, _, _, _, _, _, _, _, hfuel, _ => by omega
  | fuel + 1, fuel' + 1, first, s, after, rest, items, ending, h, hfuel, hrest => by
    have hfuel' : fuel ≤ fuel' := by omega
    rw [scanItems] at h
    split at h
    case h_1 => cases h
    case h_2 body hs =>
      rw [scanItems, skipSpaces_append_of_eq hs]
      cases h
      rfl
    case h_3 c body hclose hs =>
      have hif : (if first = true then c :: (body ++ rest) else body ++ rest) =
          (if first = true then c :: body else body) ++ rest := by
        split <;> rfl
      split at h
      next => cases h
      next hcomma =>
      rcases hitem : scan fuel (if first = true then c :: body else body) with ⟨item, out⟩
      rw [hitem] at h
      cases out with
      | none => cases h
      | some between =>
        rcases hmore : scanItems fuel false between with ⟨more, ending, final⟩
        simp only [hmore] at h
        cases h
        rw [scanItems, skipSpaces_append_of_eq hs]
        simp only [if_neg hcomma, hif, scan_append hitem hfuel' hrest,
          scanItems_append hmore hfuel' hrest]

theorem scanMembers_append : ∀ {fuel fuel' : Nat} {first : Bool} {s after rest : List Char}
    {members : List (Scalar String × Draft)} {ending : Option Fault},
    scanMembers fuel first s = (members, ending, some after) → fuel ≤ fuel' →
      Stops continuesNumber rest →
      scanMembers fuel' first (s ++ rest) = (members, ending, some (after ++ rest))
  | 0, _, _, _, _, _, _, _, h, _, _ => by cases h
  | fuel + 1, 0, _, _, _, _, _, _, _, hfuel, _ => by omega
  | fuel + 1, fuel' + 1, first, s, after, rest, members, ending, h, hfuel, hrest => by
    have hfuel' : fuel ≤ fuel' := by omega
    rw [scanMembers] at h
    split at h
    case h_1 => cases h
    case h_2 body hs =>
      rw [scanMembers, skipSpaces_append_of_eq hs]
      cases h
      rfl
    case h_3 c body hclose hs =>
      have hif : (if first = true then c :: (body ++ rest) else body ++ rest) =
          (if first = true then c :: body else body) ++ rest := by
        split <;> rfl
      split at h
      next => cases h
      next hcomma =>
      split at h
      case h_1 => cases h
      case h_3 => cases h
      case h_2 text htext =>
      rcases hkey : scanString ⟨some [], none⟩ text with ⟨key, out⟩
      rw [hkey] at h
      cases out with
      | none => cases h
      | some behind =>
      simp only at h
      split at h
      case h_1 => cases h
      case h_3 => cases h
      case h_2 body' hcolon =>
      rcases hvalue : scan fuel body' with ⟨value, out⟩
      rw [hvalue] at h
      cases out with
      | none => cases h
      | some between =>
        rcases hmore : scanMembers fuel false between with ⟨more, ending, final⟩
        simp only [hmore] at h
        cases h
        rw [scanMembers, skipSpaces_append_of_eq hs]
        simp only [if_neg hcomma, hif, skipSpaces_append_of_eq htext, scanString_append hkey,
          skipSpaces_append_of_eq hcolon, scan_append hvalue hfuel' hrest,
          scanMembers_append hmore hfuel' hrest]

end

/-- What is left behind a value grows by the text that is put there. -/
theorem draft_append {s after rest : List Char} {d : Draft} (h : draft s = (d, some after))
    (hrest : Stops continuesNumber rest) : draft (s ++ rest) = (d, some (after ++ rest)) := by
  apply scan_append h _ hrest
  rw [List.length_append]
  omega

end FreeBody.Json
