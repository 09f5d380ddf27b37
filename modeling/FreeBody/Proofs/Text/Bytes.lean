import FreeBody.Text.Bytes
import Mathlib.Tactic.SplitIfs

/-!
# Byte order

Texts are compared by their characters.  Their UTF-8 bytes are in the same order: of two
characters the greater has the greater bytes, up to the first place where they differ
(`bytes_lt_bytes`).
-/

namespace FreeBody.Text

/-- The greater character has the greater bytes, whatever follows. -/
theorem encode_lt_encode {c d : Char} (h : c < d) (x y : List UInt8) :
    String.utf8EncodeChar c ++ x < String.utf8EncodeChar d ++ y := by
  have hcode : c.val.toNat < d.val.toNat := h
  have hlast : d.val.toNat < 0x110000 := by
    rcases d.valid with hd | ⟨-, hd⟩
    · exact Nat.lt_trans hd (by decide)
    · exact hd
  unfold String.utf8EncodeChar
  generalize c.val.toNat = m at *
  generalize d.val.toNat = n at *
  -- a byte behind the first is a digit to the base 64
  have hdigits : m / 64 / 64 / 64 < n / 64 / 64 / 64 ∨
      m / 64 / 64 / 64 = n / 64 / 64 / 64 ∧ (m / 64 / 64 % 64 < n / 64 / 64 % 64 ∨
        m / 64 / 64 % 64 = n / 64 / 64 % 64 ∧ (m / 64 % 64 < n / 64 % 64 ∨
          m / 64 % 64 = n / 64 % 64 ∧ m % 64 < n % 64)) := by
    omega
  simp only [Nat.div_div_eq_div_mul, Nat.reduceMul] at hdigits
  have hbyte : ∀ k, (k % 64 + 128) % 256 = k % 64 + 128 ∧ (k % 32 + 192) % 256 = k % 32 + 192 ∧
      (k % 16 + 224) % 256 = k % 16 + 224 := by
    omega
  have hlead : ∀ k, k < 0x110000 → (k / 262144 % 8 + 240) % 256 = k / 262144 + 240 := by
    omega
  dsimp only
  split_ifs <;>
    simp only [List.cons_append, List.nil_append, List.cons_lt_cons_iff, UInt8.lt_iff_toNat_lt,
      ← UInt8.toNat_inj, UInt8.toNat_ofNat', Nat.reducePow, hbyte,
      hlead m (Nat.lt_trans hcode hlast), hlead n hlast] <;>
    omega

theorem flatMap_encode_lt {s t : List Char} (h : s < t) :
    s.flatMap String.utf8EncodeChar < t.flatMap String.utf8EncodeChar := by
  induction s generalizing t with
  | nil =>
    cases t with
    | nil => exact absurd h (List.lt_irrefl [])
    | cons d t =>
      obtain ⟨b, rest, hencode⟩ :=
        List.exists_cons_of_ne_nil (String.utf8EncodeChar_ne_nil (c := d))
      rw [List.flatMap_cons, hencode]
      exact List.nil_lt_cons b _
  | cons c s ih =>
    cases t with
    | nil => exact absurd h (List.not_lt_nil _)
    | cons d t =>
      rw [List.flatMap_cons, List.flatMap_cons]
      rcases List.cons_lt_cons_iff.1 h with hchar | ⟨rfl, hrest⟩
      · exact encode_lt_encode hchar _ _
      · exact List.append_left_lt (ih hrest)

/-- **Byte order.**  Texts are in the order of their UTF-8 bytes. -/
theorem bytes_lt_bytes {s t : String} (h : s < t) : bytes s < bytes t := by
  rw [bytes_eq_flatMap, bytes_eq_flatMap]
  exact flatMap_encode_lt (String.lt_iff.1 h)

end FreeBody.Text
