import FreeBody.Text.Bytes

/-!
# Entities

Characters that markup gives a meaning are written as entities: `&`, `<` and `>` in text, and
the two quotes as well in attribute values.  `copyRuns` looks for them among the bytes of a text and
copies the runs between them whole.  All of them are in ASCII, so no run is cut inside a character
and the result is the text with each of them replaced where it stands (`escapeRuns_eq`).
-/

namespace FreeBody.Markup

/-- The entity of a character in text, if it needs one. -/
def textEntity? : Char → Option (List Char)
  | '&' => some ['&', 'a', 'm', 'p', ';']
  | '<' => some ['&', 'l', 't', ';']
  | '>' => some ['&', 'g', 't', ';']
  | _ => none

/-- The entity of a character in an attribute value, if it needs one. -/
def valueEntity? : Char → Option (List Char)
  | '"' => some ['&', 'q', 'u', 'o', 't', ';']
  | '\'' => some ['&', '#', '3', '9', ';']
  | c => textEntity? c

/-- `s` with entities for the characters that need one. -/
def escape (entity? : Char → Option (List Char)) (s : List Char) : List Char :=
  s.flatMap fun c => (entity? c).getD [c]

theorem escape_eq_flatMap (entity? : Char → Option (List Char)) (s : List Char) :
    escape entity? s = s.flatMap fun c => (entity? c).getD [c] := rfl

/-! ## Copying runs -/

/-- `s` from the byte position `start` on, with entities.  The run up to `i` waits to be copied,
and `bytes` are those from `i` on; there is no result if a run is cut inside a character. -/
def copyRuns (entity? : Char → Option (List Char)) (s : String) :
    Nat → Nat → List UInt8 → Option String
  | start, _, [] => Text.slice? s start s.utf8ByteSize
  | start, i, b :: bytes =>
    match entity? (.ofUInt8 b) with
    | none => copyRuns entity? s start (i + 1) bytes
    | some e => do
      let run ← Text.slice? s start i
      let rest ← copyRuns entity? s (i + 1) (i + 1) bytes
      pure (run ++ String.ofList e ++ rest)

/-- `s` with entities for the characters that need one, run by run. -/
def escapeRuns (entity? : Char → Option (List Char)) (s : String) : Option String :=
  copyRuns entity? s 0 0 (Text.bytes s)

/-- Whether the characters that have an entity are all in ASCII. -/
def Ascii (entity? : Char → Option (List Char)) : Prop := ∀ c, 128 ≤ c.toNat → entity? c = none

theorem ascii_textEntity : Ascii textEntity? := by
  intro c hc
  unfold textEntity?
  split
  · exact absurd hc (by decide)
  · exact absurd hc (by decide)
  · exact absurd hc (by decide)
  · rfl

theorem ascii_valueEntity : Ascii valueEntity? := by
  intro c hc
  unfold valueEntity?
  split
  · exact absurd hc (by decide)
  · exact absurd hc (by decide)
  · exact ascii_textEntity c hc

section

variable {entity? : Char → Option (List Char)}

theorem copyRuns_skip {s : String} {skipped : List UInt8}
    (h : ∀ b ∈ skipped, entity? (.ofUInt8 b) = none) (start i : Nat) (bytes : List UInt8) :
    copyRuns entity? s start i (skipped ++ bytes) =
      copyRuns entity? s start (i + skipped.length) bytes := by
  induction skipped generalizing i with
  | nil => rfl
  | cons b skipped ih =>
    rw [List.forall_mem_cons] at h
    rw [List.cons_append, copyRuns]
    simp only [h.1]
    rw [ih h.2, List.length_cons, Nat.add_assoc, Nat.add_comm 1]

/-- The bytes of a character are passed over or, where it has an entity, are one byte. -/
theorem entity_bytes (h : Ascii entity?) (c : Char) :
    (entity? c = none ∧ ∀ b ∈ String.utf8EncodeChar c, entity? (.ofUInt8 b) = none) ∨
      ∃ e b, entity? c = some e ∧ String.utf8EncodeChar c = [b] ∧
        entity? (.ofUInt8 b) = some e := by
  by_cases hascii : c.toNat < 128
  · obtain ⟨b, hencode, hb⟩ := Text.encode_of_ascii hascii
    cases hc : entity? c with
    | none =>
      refine .inl ⟨rfl, ?_⟩
      rw [hencode, List.forall_mem_singleton, hb, hc]
    | some e => exact .inr ⟨e, b, rfl, hencode, hb ▸ hc⟩
  · have hhigh := Nat.le_of_not_lt hascii
    exact .inl ⟨h c hhigh, fun b hb => h _ (Text.le_of_mem_encode hhigh hb)⟩

/-- The run that waits is the text between the two positions, and what is behind it is escaped. -/
theorem copyRuns_eq (h : Ascii entity?) (front run : String) (rest : List Char) :
    copyRuns entity? (front ++ (run ++ String.ofList rest)) front.utf8ByteSize
      (front ++ run).utf8ByteSize (rest.flatMap String.utf8EncodeChar) =
      some (run ++ String.ofList (escape entity? rest)) := by
  induction rest generalizing front run with
  | nil =>
    have hslice := Text.slice?_append front run ""
    rw [String.append_empty] at hslice
    simpa [copyRuns, escape] using hslice
  | cons c rest ih =>
    have hcons : String.ofList (c :: rest) = String.singleton c ++ String.ofList rest := by
      rw [← String.toList_inj]; simp
    have hescape : String.ofList (escape entity? (c :: rest)) =
        String.ofList ((entity? c).getD [c]) ++ String.ofList (escape entity? rest) := by
      rw [escape, List.flatMap_cons, String.ofList_append]
      rfl
    rw [List.flatMap_cons, hcons, hescape]
    have hsize : (front ++ run).utf8ByteSize + (String.utf8EncodeChar c).length =
        (front ++ (run ++ String.singleton c)).utf8ByteSize := by
      simp [Nat.add_assoc]
    rcases entity_bytes h c with ⟨hc, hskip⟩ | ⟨e, b, hc, hencode, hb⟩
    · -- the character joins the run
      have hlater := ih front (run ++ String.singleton c)
      rw [String.append_assoc] at hlater
      rw [copyRuns_skip hskip, hsize, hlater, hc, String.append_assoc]
      rfl
    · -- the run is copied, and a new one begins behind the character
      have hslice := Text.slice?_append front run (String.singleton c ++ String.ofList rest)
      have hlater := ih (front ++ (run ++ String.singleton c)) ""
      rw [String.append_empty, String.empty_append, String.empty_append, String.append_assoc,
        String.append_assoc, ← hsize, hencode, List.length_singleton] at hlater
      rw [hencode, List.singleton_append, copyRuns]
      simp only [hb]
      rw [hslice, hlater, hc]
      simp only [Option.bind_some, Option.bind_eq_bind, Option.pure_def, Option.getD_some,
        String.append_assoc]

/-- Copying whole runs is replacing each character where it stands. -/
theorem escapeRuns_eq (h : Ascii entity?) (s : String) :
    escapeRuns entity? s = some (String.ofList (escape entity? s.toList)) := by
  have hcopy := copyRuns_eq h "" "" s.toList
  rw [String.empty_append, String.empty_append, String.empty_append, String.empty_append,
    String.ofList_toList] at hcopy
  rw [escapeRuns, Text.bytes_eq_flatMap]
  exact hcopy

theorem isSome_escapeRuns (h : Ascii entity?) (s : String) : (escapeRuns entity? s).isSome := by
  rw [escapeRuns_eq h]
  rfl

end

/-! ## Texts and values -/

/-- A text as it stands between tags. -/
def escapeText (s : String) : String :=
  (escapeRuns textEntity? s).get (isSome_escapeRuns ascii_textEntity s)

/-- A text as it stands in the quotes of an attribute. -/
def escapeValue (s : String) : String :=
  (escapeRuns valueEntity? s).get (isSome_escapeRuns ascii_valueEntity s)

theorem escapeText_eq (s : String) : escapeText s = String.ofList (escape textEntity? s.toList) :=
  Option.get_of_eq_some _ (escapeRuns_eq ascii_textEntity s)

theorem escapeValue_eq (s : String) :
    escapeValue s = String.ofList (escape valueEntity? s.toList) :=
  Option.get_of_eq_some _ (escapeRuns_eq ascii_valueEntity s)

end FreeBody.Markup
