import FreeBody.Markup.Entity

/-!
# Entities read back

Reading the entities of an escaped text gives the text again (`decode_escape`), so two values are
never written alike (`decode_escapeValue`).
-/

namespace FreeBody.Markup

/-- `s` with the characters that the entities in it stand for. -/
def decode : List Char → List Char
  | '&' :: 'a' :: 'm' :: 'p' :: ';' :: rest => '&' :: decode rest
  | '&' :: 'l' :: 't' :: ';' :: rest => '<' :: decode rest
  | '&' :: 'g' :: 't' :: ';' :: rest => '>' :: decode rest
  | '&' :: 'q' :: 'u' :: 'o' :: 't' :: ';' :: rest => '"' :: decode rest
  | '&' :: '#' :: '3' :: '9' :: ';' :: rest => '\'' :: decode rest
  | c :: rest => c :: decode rest
  | [] => []

theorem decode_cons {c : Char} (h : c ≠ '&') (rest : List Char) :
    decode (c :: rest) = c :: decode rest := by
  rw [decode] <;> rintro _ rfl <;> exact absurd rfl h

theorem decode_of_not_mem {s : List Char} (h : '&' ∉ s) : decode s = s := by
  induction s with
  | nil => rfl
  | cons c s ih =>
    rw [List.mem_cons, not_or] at h
    rw [decode_cons (Ne.symm h.1), ih h.2]

theorem decode_textEntity (c : Char) (rest : List Char) :
    decode ((textEntity? c).getD [c] ++ rest) = c :: decode rest := by
  unfold textEntity?
  split
  · rfl
  · rfl
  · rfl
  · next h _ _ => exact decode_cons h rest

/-- An entity is read as its character, and the other characters are no entities. -/
theorem decode_valueEntity (c : Char) (rest : List Char) :
    decode ((valueEntity? c).getD [c] ++ rest) = c :: decode rest := by
  unfold valueEntity?
  split
  · rfl
  · rfl
  · exact decode_textEntity c rest

theorem decode_escape {entity? : Char → Option (List Char)}
    (h : ∀ c rest, decode ((entity? c).getD [c] ++ rest) = c :: decode rest) (s : List Char) :
    decode (escape entity? s) = s := by
  rw [escape_eq_flatMap]
  induction s with
  | nil => rfl
  | cons c s ih => rw [List.flatMap_cons, h, ih]

theorem decode_escapeValue (v : String) : decode (escapeValue v).toList = v.toList := by
  rw [escapeValue_eq, String.toList_ofList, decode_escape decode_valueEntity]

end FreeBody.Markup
