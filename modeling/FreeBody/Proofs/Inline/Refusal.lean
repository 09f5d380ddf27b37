import FreeBody.Proofs.Inline.Numbering
import FreeBody.Proofs.Preset.Steady

/-!
# Spans that hold no diagram

A span that holds no diagram stays in the text, and is refused with an error (`Refuses`).  With a
steady registry the number that a span is tried under has no say in whether it is refused, nor in
the words of the error (`refusal?_readSpan`): a generator may fail in another way under another
id, but that is not told.

`spans` are the spans among the pieces of a text, and `leftSpans` those that a reading leaves.
-/

namespace FreeBody

/-- How a text is refused, in words; nothing if it is not. -/
def refusal? {α : Type} : Except CompactError α → Option String
  | .ok _ => none
  | .error e => some e.message

theorem refusal?_ok {α : Type} (a : α) : refusal? (.ok a) = none := rfl

theorem refusal?_map {α β : Type} (f : α → β) (x : Except CompactError α) :
    refusal? (x.map f) = refusal? x := by
  cases x <;> rfl

theorem refusal?_eq_some_iff {α : Type} {x : Except CompactError α} {message : String} :
    refusal? x = some message ↔ ∃ e, x = .error e ∧ e.message = message := by
  cases x <;> simp [refusal?]

theorem refusal?_eq_none_iff {α : Type} {x : Except CompactError α} :
    refusal? x = none ↔ ∃ a, x = .ok a := by
  cases x <;> simp [refusal?]

/-! ## Compact texts -/

namespace Compact

/-- What a preset call says if it gives no diagram: only a name that is known to nothing, or whose
generator fails without a figure to stand in, is refused. -/
theorem refusal?_runPreset (r : Registry) (name id : String) (args : List Argument) :
    refusal? (runPreset r name id args) =
      match (r.generate? name id args).map Except.isOk,
        (Preset.fallback? name id args).isSome with
      | some true, _ => none
      | _, true => none
      | some false, false => some ("preset `" ++ name ++ "` failed to generate a diagram")
      | none, false => some ("unknown preset: " ++ name) := by
  unfold runPreset
  rcases r.generate? name id args with _ | ⟨e | d⟩ <;>
    rcases Preset.fallback? name id args with _ | figure <;> rfl

/-- Text in the custom form is refused only for want of points. -/
theorem refusal?_readSections (s : List Char) (id : String) :
    refusal? (readSections s id) =
      if (readPoints (sections s).1).1.isEmpty then some "notation declares no points"
      else none := by
  unfold readSections
  simp only
  split <;> rfl

/-- The id has no say in how a compact text is refused. -/
theorem refusal?_read {r : Registry} (hr : r.Steady) (text id id' : String) :
    refusal? (read r text id) = refusal? (read r text id') := by
  unfold read
  simp only
  split
  next => rfl
  next =>
    split
    next rest _ =>
      cases readCall (Text.trim text.toList) rest with
      | error e => rfl
      | ok call =>
        rw [refusal?_map, refusal?_map, runCall, runCall, refusal?_runPreset, refusal?_runPreset,
          hr.isOk_generate? _ _ id id', Preset.isSome_fallback? _ id id']
    next => rw [refusal?_readSections, refusal?_readSections]

end Compact

namespace Inline

/-! ## Spans -/

variable {r : Inline} {inner : List Char} {index : Nat}

/-- A span with the number `index` is refused with an error: its trimmed content writes no
combination, and is no compact text either. -/
def Refuses (r : Inline) (inner : List Char) (index : Nat) (e : CompactError) : Prop :=
  let text := String.ofList (Text.trim inner)
  (¬ ∃ c, WritesCombination text c) ∧
    Compact.read r.registry text ("inline-fbd-" ++ toString index) = .error e

theorem readSpan_eq_error_iff {e : CompactError} :
    r.readSpan inner index = .error e ↔ r.Refuses inner index e := by
  by_cases h : ∃ c, WritesCombination (String.ofList (Text.trim inner)) c
  · obtain ⟨c, hc⟩ := h
    rw [readSpan_of_combination hc]
    exact iff_of_false nofun fun hrefuses => hrefuses.1 ⟨c, hc⟩
  · rw [readSpan_of_no_combination h, Refuses]
    cases Compact.read r.registry (String.ofList (Text.trim inner))
        ("inline-fbd-" ++ toString index) with
    | error e' => simp [Except.map, h]
    | ok p => simp [Except.map]

/-- The number has no say in how a span is refused. -/
theorem refusal?_readSpan (hr : r.registry.Steady) (inner : List Char) (n m : Nat) :
    refusal? (r.readSpan inner n) = refusal? (r.readSpan inner m) := by
  by_cases h : ∃ c, WritesCombination (String.ofList (Text.trim inner)) c
  · obtain ⟨c, hc⟩ := h
    rw [readSpan_of_combination hc, readSpan_of_combination hc, refusal?_ok, refusal?_ok]
  · rw [readSpan_of_no_combination h, readSpan_of_no_combination h, refusal?_map, refusal?_map]
    exact Compact.refusal?_read hr _ _ _

/-- A span that is refused under one number is refused under any, in the same words. -/
theorem refused_under (hr : r.registry.Steady) {n : Nat} {e : CompactError}
    (h : r.readSpan inner n = .error e) (m : Nat) :
    ∃ e', r.readSpan inner m = .error e' ∧ e'.message = e.message := by
  refine refusal?_eq_some_iff.1 ?_
  rw [refusal?_readSpan hr inner m n, h]
  rfl

/-! ## Spans that stay -/

/-- What stands in a piece, if it is a span. -/
def Piece.inner? : Piece → Option (List Char)
  | prose _ => none
  | span inner => some inner

/-- What stands in the spans among some pieces, in order. -/
def spans (ps : List Piece) : List (List Char) := ps.filterMap Piece.inner?

/-- What stands in the spans that a reading leaves, in order. -/
def leftSpans (ps : List Piece) (found : List (Option (Option Diagram))) : List (List Char) :=
  (ps.zip found).filterMap fun p => if p.2.isSome then none else p.1.inner?

/-- What stands in the spans that hold no diagram, when the next diagram gets the number `index`. -/
def left (r : Inline) (index : Nat) : List Piece → List (List Char)
  | [] => []
  | .prose _ :: rest => left r index rest
  | .span inner :: rest =>
    match r.readSpan inner index with
    | .ok _ => left r (index + 1) rest
    | .error _ => inner :: left r index rest

/-- Extraction leaves the spans that its reading leaves. -/
theorem leftSpans_resolve (r : Inline) (index : Nat) (ps : List Piece) :
    leftSpans ps ((resolve r index ps).map Resolved.diagram?) = left r index ps := by
  fun_induction left r index ps with
  | case1 => rfl
  | case2 index text rest ih => exact ih
  | case3 index inner rest d h ih =>
    rw [resolve, h]
    exact ih
  | case4 index inner rest e h ih =>
    rw [resolve, h]
    exact congrArg (inner :: ·) ih

theorem exists_refusal_of_mem_left {r : Inline} {index : Nat} {ps : List Piece}
    {inner : List Char} (h : inner ∈ left r index ps) : ∃ n e, r.readSpan inner n = .error e := by
  fun_induction left r index ps with
  | case1 => cases h
  | case2 index text rest ih => exact ih h
  | case3 index inner' rest d _ ih => exact ih h
  | case4 index inner' rest e hread ih =>
    rcases List.mem_cons.1 h with rfl | h
    · exact ⟨index, e, hread⟩
    · exact ih h

end Inline

end FreeBody
