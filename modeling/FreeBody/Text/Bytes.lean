/-!
# Bytes

The UTF-8 bytes of a text, and its parts between two byte positions.  A position inside a character
cuts no part off (`slice?`); the positions between the parts of a text are between characters
(`slice?_append`).
-/

namespace FreeBody.Text

/-- The UTF-8 bytes of a text. -/
def bytes (s : String) : List UInt8 := s.toUTF8.data.toList

/-- The bytes of a text are those of its characters, one after another. -/
theorem bytes_eq_flatMap (s : String) : bytes s = s.toList.flatMap String.utf8EncodeChar := by
  conv => lhs; rw [← String.ofList_toList (s := s)]
  rw [bytes, String.toUTF8_eq_toByteArray, String.toByteArray_ofList, List.utf8Encode,
    List.toList_data_toByteArray]

/-- An ASCII character is its byte. -/
theorem encode_of_ascii {c : Char} (h : c.toNat < 128) :
    ∃ b, String.utf8EncodeChar c = [b] ∧ Char.ofUInt8 b = c := by
  refine ⟨UInt8.ofNat c.toNat, if_pos (Nat.le_of_lt_succ h), ?_⟩
  rw [← Char.toNat_inj]
  show (UInt8.ofNat c.toNat).toNat = c.toNat
  rw [UInt8.toNat_ofNat']
  omega

/-- The bytes of any other character are none of ASCII. -/
theorem le_of_mem_encode {c : Char} (h : 128 ≤ c.toNat) {b : UInt8}
    (hb : b ∈ String.utf8EncodeChar c) : 128 ≤ (Char.ofUInt8 b).toNat := by
  show 128 ≤ b.toNat
  have hcode : ¬c.val.toNat ≤ 127 := Nat.not_le.2 h
  unfold String.utf8EncodeChar at hb
  dsimp only at hb
  rw [if_neg hcode] at hb
  split at hb
  · simp only [List.mem_cons, List.not_mem_nil, or_false] at hb
    rcases hb with rfl | rfl <;> rw [UInt8.toNat_ofNat'] <;> omega
  · split at hb
    · simp only [List.mem_cons, List.not_mem_nil, or_false] at hb
      rcases hb with rfl | rfl | rfl <;> rw [UInt8.toNat_ofNat'] <;> omega
    · simp only [List.mem_cons, List.not_mem_nil, or_false] at hb
      rcases hb with rfl | rfl | rfl | rfl <;> rw [UInt8.toNat_ofNat'] <;> omega

/-- The part of `s` between two byte positions, unless one of them is inside a character. -/
def slice? (s : String) (start stop : Nat) : Option String :=
  if h : start ≤ stop ∧ String.Pos.Raw.IsValid s ⟨start⟩ ∧ String.Pos.Raw.IsValid s ⟨stop⟩ then
    some (s.extract ⟨⟨start⟩, h.2.1⟩ ⟨⟨stop⟩, h.2.2⟩)
  else none

theorem slice?_append (a b c : String) :
    slice? (a ++ (b ++ c)) a.utf8ByteSize (a ++ b).utf8ByteSize = some b := by
  have hstart : String.Pos.Raw.IsValid (a ++ (b ++ c)) ⟨a.utf8ByteSize⟩ :=
    String.Pos.Raw.isValid_rawEndPos.append_right _
  have hstop : String.Pos.Raw.IsValid (a ++ (b ++ c)) ⟨a.utf8ByteSize + b.utf8ByteSize⟩ :=
    (String.Pos.Raw.isValid_rawEndPos.append_right c).append_left a
  rw [String.utf8ByteSize_append, slice?, dif_pos ⟨Nat.le_add_right _ _, hstart, hstop⟩,
    Option.some_inj, ← String.toByteArray_inj, String.toByteArray_extract]
  simp only [String.toByteArray_append, ← String.size_toByteArray]
  have hinside := ByteArray.extract_append_size_add (a := a.toByteArray)
    (b := b.toByteArray ++ c.toByteArray) (i := 0) (j := b.toByteArray.size)
  rw [Nat.add_zero] at hinside
  rw [hinside, ByteArray.extract_append_eq_left rfl]

end FreeBody.Text
