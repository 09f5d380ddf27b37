import FreeBody.Proofs.Json.Number

/-!
# What texts are made of

The text of a value is put together from the texts of its strings and names, characters that are
neither quotes nor brackets, and brackets around such texts.  So a property that these have and
that putting together keeps (`Kept`) is one of the text of the value (`Kept.text`).  What a
string adds to its own characters are escapes (`forall_mem_stringText`).
-/

namespace FreeBody.Json

open Text (Spaces)

mutual

/-- The strings and names in a value. -/
def strings : Json → List String
  | string s => [s]
  | array items => itemStrings items
  | object members => memberStrings members
  | _ => []

/-- The strings and names in the items of an array. -/
def itemStrings : List Json → List String
  | [] => []
  | v :: rest => strings v ++ itemStrings rest

/-- The names of the members of an object, and the strings and names in their values. -/
def memberStrings : List (String × Json) → List String
  | [] => []
  | (name, v) :: rest => name :: (strings v ++ memberStrings rest)

end

/-- Whether a value is an array or an object. -/
def isNested : Json → Bool
  | array _ | object _ => true
  | _ => false

/-! ## Strings -/

/-- The characters of escapes, and the quotes around a string. -/
def escapeChars : List Char := "\"\\bfnrtu0123456789abcdef".toList

theorem mem_escapeChars_of_control : ∀ n, n < 32 →
    ∀ c ∈ Decimal.padZeros 2 (Nat.toDigits 16 n), c ∈ escapeChars := by
  decide

section

variable {p : Char → Prop} (hescape : ∀ c ∈ escapeChars, p c)

include hescape

theorem forall_mem_stringChar {d : Char} (h : p d) : ∀ c ∈ stringChar d, p c := by
  have hpair : ∀ e ∈ escapeChars, ∀ c ∈ ['\\', e], p c := by
    intro e he
    exact List.forall_mem_cons.2 ⟨hescape _ (by decide), List.forall_mem_singleton.2 (hescape e he)⟩
  unfold stringChar
  split_ifs with hquote hslash hline hreturn htab hback hfeed hcontrol
  · exact hpair _ (by decide)
  · exact hpair _ (by decide)
  · exact hpair _ (by decide)
  · exact hpair _ (by decide)
  · exact hpair _ (by decide)
  · exact hpair _ (by decide)
  · exact hpair _ (by decide)
  · have hcode : ∀ c ∈ ['\\', 'u', '0', '0'], c ∈ escapeChars := by decide
    intro c hc
    rcases List.mem_append.1 hc with hc | hc
    · exact hescape c (hcode c hc)
    · exact hescape c (mem_escapeChars_of_control d.toNat hcontrol c hc)
  · exact List.forall_mem_singleton.2 h

theorem forall_mem_stringText {s : String} (h : ∀ c ∈ s.toList, p c) :
    ∀ c ∈ (stringText s).toList, p c := by
  intro c hc
  have hquote : p '"' := hescape _ (by decide)
  rw [stringText, String.toList_ofList] at hc
  rcases List.mem_append.1 hc with hc | hc
  · rcases List.mem_cons.1 hc with rfl | hc
    · exact hquote
    · obtain ⟨d, hd, hc⟩ := List.mem_flatMap.1 hc
      exact forall_mem_stringChar hescape (h d hd) c hc
  · rw [List.mem_singleton.1 hc]
    exact hquote

end

/-! ## Values -/

/-- Whether `c` may stand in the text of a value outside strings and is no bracket. -/
def isPlainChar (c : Char) : Bool :=
  isNumberChar c || Text.isSpace c || [',', ':', 't', 'r', 'f', 'a', 's'].contains c

/-- Whether a property of texts is kept when the text of a value is put together. -/
structure Kept (P : List Char → Prop) : Prop where
  plain : ∀ {s}, (∀ c ∈ s, isPlainChar c = true) → P s
  append : ∀ {s t}, P s → P t → P (s ++ t)
  array : ∀ {s}, P s → P ('[' :: (s ++ [']']))
  object : ∀ {s}, P s → P ('{' :: (s ++ ['}']))

section

variable {P : List Char → Prop} (sp : Spacing)

theorem Kept.spaces (hP : Kept P) {s : List Char} (h : Spaces s) : P s :=
  hP.plain fun c hc => by rw [isPlainChar, h c hc, Bool.or_true, Bool.true_or]

theorem Kept.following (hP : Kept P) {entries : List (List Char)} (h : ∀ e ∈ entries, P e) (depth : Nat) :
    P (sp.following depth entries) := by
  induction entries with
  | nil => exact hP.plain (List.forall_mem_nil _)
  | cons e entries ih =>
    rw [List.forall_mem_cons] at h
    have hcomma : P [','] := hP.plain (by decide)
    rw [Spacing.following, List.flatMap_cons, ← List.singleton_append]
    exact hP.append (hP.append hcomma (hP.append (hP.spaces (sp.spaces_line _)) h.1)) (ih h.2)

/-- Between the brackets of an array or an object stands a text with the property. -/
theorem Kept.exists_enclose (hP : Kept P) {entries : List (List Char)} (h : ∀ e ∈ entries, P e)
    (opening closing : Char) (depth : Nat) :
    ∃ inner, P inner ∧
      sp.enclose opening closing depth entries = opening :: (inner ++ [closing]) := by
  cases entries with
  | nil => exact ⟨[], hP.plain (List.forall_mem_nil _), rfl⟩
  | cons first others =>
    rw [List.forall_mem_cons] at h
    have hline := fun d => hP.spaces (sp.spaces_line d)
    refine ⟨sp.line (depth + 1) ++ (first ++ (sp.following depth others ++ sp.line depth)),
      hP.append (hline _) (hP.append h.1 (hP.append (hP.following sp h.2 depth) (hline _))), ?_⟩
    rw [Spacing.enclose]
    simp only [List.append_assoc]

mutual

theorem Kept.text (hP : Kept P) : ∀ {v : Json} (depth : Nat), (∀ s ∈ v.strings, P (stringText s).toList) →
    P (sp.text depth v)
  | .null, _, _ => hP.plain (by simp [Spacing.text, compact]; decide)
  | .bool true, _, _ => hP.plain (by simp [Spacing.text, compact]; decide)
  | .bool false, _, _ => hP.plain (by simp [Spacing.text, compact]; decide)
  | .number n, _, _ => hP.plain fun c hc => by
    have hc : c ∈ n.text.toList := hc
    rw [isPlainChar, isNumberChar_of_mem_text hc, Bool.true_or, Bool.true_or]
  | .string s, _, h => h s (List.mem_singleton_self s)
  | .array items, depth, h => by
    obtain ⟨inner, hinner, heq⟩ :=
      hP.exists_enclose sp (hP.texts (depth + 1) h) '[' ']' depth
    rw [Spacing.text, heq]
    exact hP.array hinner
  | .object members, depth, h => by
    obtain ⟨inner, hinner, heq⟩ :=
      hP.exists_enclose sp (hP.memberTexts (depth + 1) h) '{' '}' depth
    rw [Spacing.text, heq]
    exact hP.object hinner

theorem Kept.texts (hP : Kept P) : ∀ {items : List Json} (depth : Nat),
    (∀ s ∈ itemStrings items, P (stringText s).toList) → ∀ e ∈ sp.texts depth items, P e
  | [], _, _ => List.forall_mem_nil _
  | v :: items, depth, h => by
    obtain ⟨hv, hitems⟩ := List.forall_mem_append.1 h
    exact List.forall_mem_cons.2 ⟨hP.text depth hv, hP.texts depth hitems⟩

theorem Kept.memberTexts (hP : Kept P) : ∀ {members : List (String × Json)} (depth : Nat),
    (∀ s ∈ memberStrings members, P (stringText s).toList) →
    ∀ e ∈ sp.memberTexts depth members, P e
  | [], _, _ => List.forall_mem_nil _
  | (name, v) :: members, depth, h => by
    obtain ⟨hname, h⟩ := List.forall_mem_cons.1 h
    obtain ⟨hv, hmembers⟩ := List.forall_mem_append.1 h
    have hcolon : P [':'] := hP.plain (by decide)
    have hmember : P (sp.member name (sp.text depth v)) := by
      rw [Spacing.member, ← List.singleton_append]
      exact hP.append hname (hP.append hcolon
        (hP.append (hP.spaces sp.spaces_colon) (hP.text depth hv)))
    exact List.forall_mem_cons.2 ⟨hmember, hP.memberTexts depth hmembers⟩

end

/-- The text of an array or an object stands between its own brackets. -/
theorem Kept.exists_inner (hP : Kept P) {v : Json} (hv : v.isNested = true) (depth : Nat)
    (h : ∀ s ∈ v.strings, P (stringText s).toList) : ∃ inner, P inner ∧
      (sp.text depth v = '[' :: (inner ++ [']']) ∨ sp.text depth v = '{' :: (inner ++ ['}'])) := by
  cases v with
  | array items =>
    obtain ⟨inner, hinner, heq⟩ := hP.exists_enclose sp (hP.texts sp (depth + 1) h) '[' ']' depth
    exact ⟨inner, hinner, Or.inl (by rw [Spacing.text, heq])⟩
  | object members =>
    obtain ⟨inner, hinner, heq⟩ :=
      hP.exists_enclose sp (hP.memberTexts sp (depth + 1) h) '{' '}' depth
    exact ⟨inner, hinner, Or.inr (by rw [Spacing.text, heq])⟩
  | _ => cases hv

end

end FreeBody.Json
