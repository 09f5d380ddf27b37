import FreeBody.Proofs.Json.Scalar
import FreeBody.Proofs.Json.Spacing

/-!
# Scanning what was written

The text of a value, in front of anything that does not go on with a number, is scanned as the
draft of the value, and what follows is left, whatever blanks the text was written with
(`scan_text`).  Strings come back whatever they hold; for numbers it is asked that each is scanned
whole when it stands alone, or is one that is not finite (`Readable`).

The fuel of the scanner is enough as long as the text is no longer than the fuel: every step
down passes at least one character.
-/

namespace FreeBody.Json

open Text (Spaces Stops skipSpaces)

/-! ## Drafts of values -/

mutual

/-- What the text of a value is scanned as. -/
def drafted : Json → Draft
  | null => .null
  | bool b => .bool b
  | number n => (draft n.text.toList).1
  | string s => .string (.value s)
  | array items => .array (draftedItems items) none
  | object members => .object (draftedMembers members) none

/-- The drafts of the items of an array. -/
def draftedItems : List Json → List Draft
  | [] => []
  | v :: rest => drafted v :: draftedItems rest

/-- The drafts of the members of an object. -/
def draftedMembers : List (String × Json) → List (Scalar String × Draft)
  | [] => []
  | (name, v) :: rest => (.value name, drafted v) :: draftedMembers rest

end

/-- Whether the text of a number is that of some number, with nothing behind it, or the word for
one that is not finite. -/
def Number.Readable (n : Number) : Prop :=
  (∃ k, draft n.text.toList = (.number (.value k), some [])) ∨ n.text = "null"

mutual

/-- Whether the texts of all numbers in a value are those of numbers. -/
def Readable : Json → Prop
  | number n => n.Readable
  | array items => ReadableItems items
  | object members => ReadableMembers members
  | _ => True

/-- Whether the items of an array are readable. -/
def ReadableItems : List Json → Prop
  | [] => True
  | v :: rest => Readable v ∧ ReadableItems rest

/-- Whether the members of an object are readable. -/
def ReadableMembers : List (String × Json) → Prop
  | [] => True
  | (_, v) :: rest => Readable v ∧ ReadableMembers rest

end

/-! ## Blanks and beginnings -/

theorem skipSpaces_skipSpaces (s : List Char) : skipSpaces (skipSpaces s) = skipSpaces s :=
  Text.dropWhile_of_stops (Text.stops_dropWhile _ s)

theorem scan_skipSpaces (fuel : Nat) (s : List Char) : scan fuel (skipSpaces s) = scan fuel s := by
  cases fuel with
  | zero => rfl
  | succ fuel => rw [scan, scan, skipSpaces_skipSpaces]

theorem scan_append_of_spaces {spaces : List Char} (h : Spaces spaces) (fuel : Nat)
    (s : List Char) : scan fuel (spaces ++ s) = scan fuel s := by
  rw [← scan_skipSpaces, Text.skipSpaces_append h, scan_skipSpaces]

theorem skipSpaces_append_cons {spaces : List Char} (h : Spaces spaces) {c : Char}
    (hc : Text.isSpace c = false) (rest : List Char) :
    skipSpaces (spaces ++ c :: rest) = c :: rest := by
  rw [Text.skipSpaces_append h, Text.skipSpaces_of_stops (Text.stops_cons_iff.2 hc)]

theorem continuesNumber_of_isSpace {c : Char} (h : Text.isSpace c = true) :
    continuesNumber c = false := by
  simp only [Text.isSpace, Bool.or_eq_true, beq_iff_eq] at h
  rcases h with ((rfl | rfl) | rfl) | rfl <;> decide

/-- A number ends in front of blanks and of what it cannot go on with. -/
theorem stops_append_spaces {spaces : List Char} (h : Spaces spaces) {c : Char}
    (hc : continuesNumber c = false) (rest : List Char) :
    Stops continuesNumber (spaces ++ c :: rest) := by
  cases spaces with
  | nil => exact Text.stops_cons_iff.2 hc
  | cons b spaces =>
    exact Text.stops_cons_iff.2 (continuesNumber_of_isSpace (h b List.mem_cons_self))

/-- A text that begins with a value begins with a character, and not with a bracket's end. -/
theorem skipSpaces_of_scan {fuel : Nat} {s after : List Char} {d : Draft}
    (h : scan fuel s = (d, some after)) : ∃ c rest, skipSpaces s = c :: rest ∧ c ≠ ']' := by
  cases fuel with
  | zero => cases h
  | succ fuel =>
    rcases hs : skipSpaces s with _ | ⟨c, rest⟩
    · rw [scan, hs] at h
      cases h
    · refine ⟨c, rest, rfl, ?_⟩
      rintro rfl
      rw [scan, hs] at h
      cases h

/-! ## Items and members

One step of each list reader, in front of the first entry and of a later one. -/

section

variable {fuel : Nat} {s after : List Char} {d : Draft} {final : Option (List Char)}

theorem scanItems_first {ds : List Draft} (h : scan fuel s = (d, some after))
    (hrest : scanItems fuel false after = (ds, none, final)) :
    scanItems (fuel + 1) true s = (d :: ds, none, final) := by
  obtain ⟨c, rest, hs, hc⟩ := skipSpaces_of_scan h
  rw [← scan_skipSpaces, hs] at h
  rw [scanItems, hs]
  split
  next heq => cases heq
  next heq => exact absurd (List.cons.inj heq).1 hc
  next heq =>
    obtain ⟨rfl, rfl⟩ := List.cons.inj heq
    simp [h, hrest]

theorem scanItems_next {ds : List Draft} (h : scan fuel s = (d, some after))
    (hrest : scanItems fuel false after = (ds, none, final)) :
    scanItems (fuel + 1) false (',' :: s) = (d :: ds, none, final) := by
  have hskip : skipSpaces (',' :: s) = ',' :: s := rfl
  rw [scanItems, hskip]
  simp [h, hrest]

theorem scanItems_close {spaces : List Char} (h : Spaces spaces) (fuel : Nat)
    (rest : List Char) :
    scanItems (fuel + 1) false (spaces ++ ']' :: rest) = ([], none, some rest) := by
  rw [scanItems, skipSpaces_append_cons h rfl]
  rfl

variable {ms : List (Scalar String × Draft)} (name : String)

theorem scanMembers_first {spaces : List Char} (hspaces : Spaces spaces)
    (h : scan fuel s = (d, some after))
    (hrest : scanMembers fuel false after = (ms, none, final)) :
    scanMembers (fuel + 1) true (spaces ++ ((stringText name).toList ++ ':' :: s)) =
      ((.value name, d) :: ms, none, final) := by
  have hskip : ∀ more, skipSpaces ('"' :: more) = '"' :: more := fun more => rfl
  have hcolon : ∀ more, skipSpaces (':' :: more) = ':' :: more := fun more => rfl
  rw [scanMembers, Text.skipSpaces_append hspaces, toList_stringText, hskip]
  simp [hskip, scanString_stringText, hcolon, h, hrest]

theorem scanMembers_next {spaces : List Char} (hspaces : Spaces spaces)
    (h : scan fuel s = (d, some after))
    (hrest : scanMembers fuel false after = (ms, none, final)) :
    scanMembers (fuel + 1) false (',' :: (spaces ++ ((stringText name).toList ++ ':' :: s))) =
      ((.value name, d) :: ms, none, final) := by
  have hskip : ∀ more, skipSpaces (spaces ++ '"' :: more) = '"' :: more := fun more =>
    skipSpaces_append_cons hspaces rfl more
  have hcomma : ∀ more, skipSpaces (',' :: more) = ',' :: more := fun more => rfl
  have hcolon : ∀ more, skipSpaces (':' :: more) = ':' :: more := fun more => rfl
  rw [scanMembers, hcomma, toList_stringText]
  simp [hskip, scanString_stringText, hcolon, h, hrest]

theorem scanMembers_close {spaces : List Char} (h : Spaces spaces) (fuel : Nat)
    (rest : List Char) :
    scanMembers (fuel + 1) false (spaces ++ '}' :: rest) = ([], none, some rest) := by
  rw [scanMembers, skipSpaces_append_cons h rfl]
  rfl

end

/-! ## Values -/

theorem scan_string (fuel : Nat) (s : String) (rest : List Char) :
    scan (fuel + 1) ((stringText s).toList ++ rest) = (.string (.value s), some rest) := by
  have hskip : ∀ more, skipSpaces ('"' :: more) = '"' :: more := fun more => rfl
  rw [toList_stringText, scan, hskip]
  simp only [scanString_stringText]

theorem scan_number {n : Number} (hn : n.Readable) (fuel : Nat) {rest : List Char}
    (h : Stops continuesNumber rest) :
    scan (fuel + 1) (n.text.toList ++ rest) = ((Json.number n).drafted, some rest) := by
  rcases hn with ⟨k, hk⟩ | hnull
  · rw [drafted, hk]
    exact scan_number_append h hk fuel
  · rw [drafted, hnull]
    rfl

/-- An object whose first entry has a name. -/
theorem scan_object {fuel : Nat} {spaces : List Char} (hspaces : Spaces spaces) (name : String)
    (s : List Char) {ms : List (Scalar String × Draft)} {final : Option (List Char)}
    (h : scanMembers fuel true (spaces ++ ((stringText name).toList ++ s)) = (ms, none, final)) :
    scan (fuel + 1) ('{' :: (spaces ++ ((stringText name).toList ++ s))) =
      (.object ms none, final) := by
  rw [toList_stringText] at h ⊢
  have hskip : ∀ more, skipSpaces ('{' :: more) = '{' :: more := fun more => rfl
  rw [scan, hskip]
  simp only [skipSpaces_append_cons hspaces (c := '"') rfl, h]

variable (sp : Spacing)

theorem stops_following (depth : Nat) (entries : List (List Char)) {c : Char}
    (hc : continuesNumber c = false) (rest : List Char) :
    Stops continuesNumber (sp.following depth entries ++ (sp.line depth ++ c :: rest)) := by
  cases entries with
  | nil => exact stops_append_spaces (sp.spaces_line depth) hc rest
  | cons e entries =>
    rw [Spacing.following, List.flatMap_cons]
    exact Text.stops_cons_iff.2 rfl

theorem following_cons (depth : Nat) (e : List Char) (entries : List (List Char)) :
    sp.following depth (e :: entries) =
      ',' :: (sp.line (depth + 1) ++ (e ++ sp.following depth entries)) := by
  simp [Spacing.following]

mutual

/-- **Scanning undoes writing.** -/
theorem scan_text : ∀ (v : Json) (depth fuel : Nat) (rest : List Char), v.Readable →
    (sp.text depth v).length ≤ fuel → Stops continuesNumber rest →
    scan (fuel + 1) (sp.text depth v ++ rest) = (v.drafted, some rest)
  | .null => by
    intro depth fuel rest _ _ _
    have htext : sp.text depth null = ['n', 'u', 'l', 'l'] := by simp [Spacing.text, compact]
    rw [htext]
    rfl
  | .bool true => by
    intro depth fuel rest _ _ _
    have htext : sp.text depth (bool true) = ['t', 'r', 'u', 'e'] := by
      simp [Spacing.text, compact]
    rw [htext]
    rfl
  | .bool false => by
    intro depth fuel rest _ _ _
    have htext : sp.text depth (bool false) = ['f', 'a', 'l', 's', 'e'] := by
      simp [Spacing.text, compact]
    rw [htext]
    rfl
  | .number _ => by
    intro _ fuel _ hread _ hrest
    exact scan_number hread fuel hrest
  | .string s => by
    intro _ fuel rest _ _ _
    exact scan_string fuel s rest
  | .array [] => by
    intro depth fuel rest _ hfuel _
    obtain ⟨fuel, rfl⟩ := Nat.exists_eq_add_of_le' (show 2 ≤ fuel from hfuel)
    rfl
  | .object [] => by
    intro depth fuel rest _ hfuel _
    obtain ⟨fuel, rfl⟩ := Nat.exists_eq_add_of_le' (show 2 ≤ fuel from hfuel)
    rfl
  | .array (v :: items) => by
    intro depth fuel rest hread hfuel _
    obtain ⟨hv, hitems⟩ := hread
    rw [Spacing.text, Spacing.texts, Spacing.enclose] at hfuel ⊢
    simp only [List.length_cons, List.length_append, List.length_nil] at hfuel
    obtain ⟨fuel, rfl⟩ := Nat.exists_eq_add_of_le' (show 2 ≤ fuel by omega)
    have hitem := scan_text v (depth + 1) fuel _ hv (by omega)
      (stops_following sp depth (sp.texts (depth + 1) items) (c := ']') rfl rest)
    have hrest := scanItems_following items depth fuel rest hitems (by omega)
    rw [← scan_append_of_spaces (sp.spaces_line (depth + 1))] at hitem
    have hlist := scanItems_first hitem hrest
    have hskip : ∀ more, skipSpaces ('[' :: more) = '[' :: more := fun more => rfl
    simp only [List.cons_append, List.append_assoc, List.nil_append]
    rw [scan, hskip]
    simp only [hlist]
    rfl
  | .object ((name, v) :: members) => by
    intro depth fuel rest hread hfuel _
    obtain ⟨hv, hmembers⟩ := hread
    rw [Spacing.text, Spacing.memberTexts, Spacing.enclose, Spacing.member] at hfuel ⊢
    simp only [List.length_cons, List.length_append, List.length_nil] at hfuel
    obtain ⟨fuel, rfl⟩ := Nat.exists_eq_add_of_le' (show 2 ≤ fuel by omega)
    have hvalue := scan_text v (depth + 1) fuel _ hv (by omega)
      (stops_following sp depth (sp.memberTexts (depth + 1) members) (c := '}') rfl rest)
    have hrest := scanMembers_following members depth fuel rest hmembers (by omega)
    rw [← scan_append_of_spaces sp.spaces_colon] at hvalue
    have hlist := scanMembers_first name (sp.spaces_line (depth + 1)) hvalue hrest
    simp only [List.cons_append, List.append_assoc, List.nil_append]
    exact scan_object (sp.spaces_line (depth + 1)) name _ hlist

theorem scanItems_following : ∀ (items : List Json) (depth fuel : Nat) (rest : List Char),
    ReadableItems items → (sp.following depth (sp.texts (depth + 1) items)).length ≤ fuel →
    scanItems (fuel + 1) false (sp.following depth (sp.texts (depth + 1) items) ++
      (sp.line depth ++ ']' :: rest)) = (draftedItems items, none, some rest)
  | [] => fun depth fuel rest _ _ => scanItems_close (sp.spaces_line depth) fuel rest
  | v :: items => by
    intro depth fuel rest hread hfuel
    obtain ⟨hv, hitems⟩ := hread
    rw [Spacing.texts, following_cons] at hfuel ⊢
    simp only [List.length_cons, List.length_append] at hfuel
    obtain ⟨fuel, rfl⟩ := Nat.exists_eq_add_of_le' (show 1 ≤ fuel by omega)
    have hitem := scan_text v (depth + 1) fuel _ hv (by omega)
      (stops_following sp depth (sp.texts (depth + 1) items) (c := ']') rfl rest)
    have hrest := scanItems_following items depth fuel rest hitems (by omega)
    rw [← scan_append_of_spaces (sp.spaces_line (depth + 1))] at hitem
    have hlist := scanItems_next hitem hrest
    simp only [List.cons_append, List.append_assoc]
    exact hlist

theorem scanMembers_following : ∀ (members : List (String × Json)) (depth fuel : Nat)
    (rest : List Char), ReadableMembers members →
    (sp.following depth (sp.memberTexts (depth + 1) members)).length ≤ fuel →
    scanMembers (fuel + 1) false (sp.following depth (sp.memberTexts (depth + 1) members) ++
      (sp.line depth ++ '}' :: rest)) = (draftedMembers members, none, some rest)
  | [] => fun depth fuel rest _ _ => scanMembers_close (sp.spaces_line depth) fuel rest
  | (name, v) :: members => by
    intro depth fuel rest hread hfuel
    obtain ⟨hv, hmembers⟩ := hread
    rw [Spacing.memberTexts, following_cons, Spacing.member] at hfuel ⊢
    simp only [List.length_cons, List.length_append] at hfuel
    obtain ⟨fuel, rfl⟩ := Nat.exists_eq_add_of_le' (show 1 ≤ fuel by omega)
    have hvalue := scan_text v (depth + 1) fuel _ hv (by omega)
      (stops_following sp depth (sp.memberTexts (depth + 1) members) (c := '}') rfl rest)
    have hrest := scanMembers_following members depth fuel rest hmembers (by omega)
    rw [← scan_append_of_spaces sp.spaces_colon] at hvalue
    have hlist := scanMembers_next name (sp.spaces_line (depth + 1)) hvalue hrest
    simp only [List.cons_append, List.append_assoc]
    exact hlist

end

theorem draft_text (v : Json) (h : v.Readable) (depth : Nat) :
    draft (sp.text depth v) = (v.drafted, some []) := by
  have := scan_text sp v depth (2 * (sp.text depth v).length + 1) [] h (by omega)
    (Text.stops_nil _)
  rwa [List.append_nil] at this

/-- The text of a value is drafted whole. -/
theorem draft_pretty (v : Json) (h : v.Readable) :
    draft v.pretty.toList = (v.drafted, some []) := by
  rw [toList_pretty]
  exact draft_text _ v h 0

end FreeBody.Json
