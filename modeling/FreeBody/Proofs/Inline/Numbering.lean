import FreeBody.Inline.Extraction
import FreeBody.Proofs.Inline.Cut

/-!
# What extraction replaces, and by which number

Of the pieces of a text, some spans hold a diagram.  A `Reading` assigns to every piece the
diagram that replaces it, if one does; a span is tried under the number of the pieces that are
replaced before it, so one that holds nothing takes no number.

Extraction follows the reading of the one cut of its text (`extract_replaces_spans`): the spans
that hold a diagram give way to placeholders with their numbers, everything else stays as it is
written, and the diagrams and placeholders are listed in the order of their numbers.
-/

namespace FreeBody.Inline

/-! ## What a span holds -/

/-- The text writes the combination `c` behind one of the tags in capitals. -/
def WritesCombination (text : String) (c : Combination) : Prop :=
  Composition.isCombination text ∧ Composition.readCombination text.toList = .ok c

/-- A span with the number `index` holds the diagram `d`: its trimmed content writes a
combination that composes to `d`, or else is a compact text of `d`.  There is no diagram to a
combination if its composition is never finished. -/
def Holds (r : Inline) (inner : List Char) (index : Nat) (d : Option Diagram) : Prop :=
  let text := String.ofList (Text.trim inner)
  (∃ c, WritesCombination text c ∧
    d = (Composition.compose r.registry r.spacing ("inline-combo-" ++ toString index) c).diagram) ∨
  ((¬ ∃ c, WritesCombination text c) ∧
    ∃ p, Compact.read r.registry text ("inline-fbd-" ++ toString index) = .ok p ∧
      d = some p.diagram)

section

variable {r : Inline} {inner : List Char} {index : Nat}

theorem readSpan_of_combination {c : Combination}
    (h : WritesCombination (String.ofList (Text.trim inner)) c) :
    r.readSpan inner index =
      .ok (Composition.compose r.registry r.spacing
        ("inline-combo-" ++ toString index) c).diagram := by
  simp only [readSpan, if_pos h.1, h.2, Except.toOption]

theorem readSpan_of_no_combination
    (h : ¬ ∃ c, WritesCombination (String.ofList (Text.trim inner)) c) :
    r.readSpan inner index =
      (Compact.read r.registry (String.ofList (Text.trim inner))
        ("inline-fbd-" ++ toString index)).map fun p => some p.diagram := by
  have none : (if Composition.isCombination (String.ofList (Text.trim inner)) then
      (Composition.readCombination (String.ofList (Text.trim inner)).toList).toOption
      else none) = none := by
    split
    next htag =>
      cases hc : Composition.readCombination (String.ofList (Text.trim inner)).toList with
      | error e => rfl
      | ok c => exact absurd ⟨c, htag, hc⟩ h
    next => rfl
  simp only [readSpan, none]

/-- Reading a span finds what it holds. -/
theorem readSpan_eq_ok_iff {d : Option Diagram} :
    r.readSpan inner index = .ok d ↔ r.Holds inner index d := by
  by_cases h : ∃ c, WritesCombination (String.ofList (Text.trim inner)) c
  · obtain ⟨c, hc⟩ := h
    rw [readSpan_of_combination hc, Except.ok.injEq]
    constructor
    · rintro rfl
      exact .inl ⟨c, hc, rfl⟩
    · rintro (⟨c', hc', rfl⟩ | ⟨hnot, -⟩)
      · obtain rfl := Except.ok.inj (hc.2.symm.trans hc'.2)
        rfl
      · exact absurd ⟨c, hc⟩ hnot
  · rw [readSpan_of_no_combination h]
    constructor
    · intro hd
      cases hp : Compact.read r.registry (String.ofList (Text.trim inner))
          ("inline-fbd-" ++ toString index) with
      | error e => rw [hp] at hd; cases hd
      | ok p => rw [hp] at hd; exact .inr ⟨h, p, hp, (Except.ok.inj hd).symm⟩
    · rintro (⟨c, hc, -⟩ | ⟨-, p, hp, rfl⟩)
      · exact absurd ⟨c, hc⟩ h
      · rw [hp]
        rfl

end

/-! ## Readings -/

/-- How many of the pieces before the piece `k` are replaced. -/
def numberAt (found : List (Option (Option Diagram))) (k : Nat) : Nat :=
  (found.take k).countP Option.isSome

/-- For every piece the diagram that replaces it, if one does: none replaces prose, and a span is
replaced exactly by what it holds under its number. -/
structure Reading (r : Inline) (ps : List Piece) (found : List (Option (Option Diagram))) :
    Prop where
  length : found.length = ps.length
  prose : ∀ {k : Nat} {text : List Char},
    ps[k]? = some (Piece.prose text) → found[k]? = some none
  span : ∀ {k : Nat} {inner : List Char}, ps[k]? = some (Piece.span inner) →
    ∀ d, found[k]? = some (some d) ↔ r.Holds inner (numberAt found k) d

/-- The piece `k` in the clean text: the placeholder of its number if it is replaced, else the
piece as it is written. -/
def cleanPiece (ps : List Piece) (found : List (Option (Option Diagram))) (k : Nat) : List Char :=
  match found[k]?, ps[k]? with
  | some (some _), _ => (placeholder (numberAt found k)).toList
  | _, some p => p.text
  | _, none => []

/-! ## Resolved pieces -/

/-- One piece after reading, when the next diagram gets the number `index`. -/
def resolvePiece (r : Inline) (index : Nat) : Piece → Resolved
  | .prose text => .text text
  | .span inner =>
    match r.readSpan inner index with
    | .ok d => .diagram index d
    | .error _ => .text (Piece.span inner).text

variable (r : Inline)

/-- The number goes up by one exactly behind a piece that is replaced. -/
theorem resolve_cons (index : Nat) (p : Piece) (rest : List Piece) :
    resolve r index (p :: rest) = resolvePiece r index p ::
      resolve r (index + [(resolvePiece r index p).diagram?].countP Option.isSome) rest := by
  cases p with
  | prose text => rfl
  | span inner =>
    rw [resolve, resolvePiece]
    cases r.readSpan inner index <;> rfl

theorem length_resolve (index : Nat) (ps : List Piece) :
    (resolve r index ps).length = ps.length := by
  induction ps generalizing index with
  | nil => rfl
  | cons p rest ih => rw [resolve_cons, List.length_cons, List.length_cons, ih]

/-- Every piece is read under the number of the pieces replaced before it. -/
theorem getElem?_resolve (index : Nat) (ps : List Piece) (k : Nat) :
    (resolve r index ps)[k]? =
      ps[k]?.map (resolvePiece r
        (index + numberAt ((resolve r index ps).map Resolved.diagram?) k)) := by
  induction ps generalizing index k with
  | nil => rfl
  | cons p rest ih =>
    rw [resolve_cons]
    cases k with
    | zero => rfl
    | succ k =>
      rw [List.getElem?_cons_succ, List.getElem?_cons_succ, ih]
      simp only [numberAt, List.map_cons, List.take_succ_cons, List.countP_cons, List.countP_nil]
      congr 2
      omega

/-- The placeholders of the replaced pieces are numbered in order. -/
theorem filterMap_placeholder? (index : Nat) (ps : List Piece) :
    (resolve r index ps).filterMap Resolved.placeholder? =
      (List.range' index ((resolve r index ps).filterMap Resolved.diagram?).length).map
        placeholder := by
  induction ps generalizing index with
  | nil => rfl
  | cons p rest ih =>
    rw [resolve_cons]
    cases h : resolvePiece r index p with
    | text s => exact ih index
    | diagram k d =>
      -- only a span that holds a diagram is replaced, and it gets the number at hand
      have hk : k = index := by
        cases p with
        | prose text => cases h
        | span inner =>
          rw [resolvePiece] at h
          split at h
          · exact (Resolved.diagram.inj h).1.symm
          · cases h
      have tail := ih (index + 1)
      rw [List.filterMap_cons_some (by rfl), List.filterMap_cons_some (by rfl), List.length_cons,
        List.range'_succ, List.map_cons, hk]
      exact congrArg (placeholder index :: ·) tail

/-- What becomes of the pieces is a reading of them. -/
theorem reading_resolve (ps : List Piece) :
    Reading r ps ((resolve r 0 ps).map Resolved.diagram?) := by
  have at? (k : Nat) := getElem?_resolve r 0 ps k
  refine ⟨?_, fun {k text} hk => ?_, fun {k inner} hk d => ?_⟩
  · rw [List.length_map, length_resolve]
  · rw [List.getElem?_map, at?, hk]
    rfl
  · rw [List.getElem?_map, at?, hk, Nat.zero_add, ← readSpan_eq_ok_iff]
    simp only [Option.map_some, resolvePiece]
    cases r.readSpan inner (numberAt ((resolve r 0 ps).map Resolved.diagram?) k) with
    | ok d' => simp [Resolved.diagram?]
    | error e => simp [Resolved.diagram?]

/-- The clean text is made of the clean pieces. -/
theorem map_clean (ps : List Piece) :
    (resolve r 0 ps).map Resolved.clean =
      (List.range ps.length).map (cleanPiece ps ((resolve r 0 ps).map Resolved.diagram?)) := by
  apply List.ext_getElem?
  intro k
  rw [List.getElem?_map, List.getElem?_map, getElem?_resolve, Nat.zero_add]
  by_cases hk : k < ps.length
  · rw [List.getElem?_range hk, List.getElem?_eq_getElem hk, Option.map_some, Option.map_some,
      Option.map_some, cleanPiece, List.getElem?_map, getElem?_resolve, Nat.zero_add,
      List.getElem?_eq_getElem hk, Option.map_some, Option.map_some]
    cases ps[k] with
    | prose text => rfl
    | span inner =>
      rw [resolvePiece]
      cases r.readSpan inner _ <;> rfl
  · rw [List.getElem?_eq_none (Nat.le_of_not_lt hk), List.getElem?_eq_none]
    · rfl
    · rw [List.length_range]
      exact Nat.le_of_not_lt hk

/-- **Extraction replaces the spans that hold a diagram, and nothing else.**  There is a cut of
the text and a reading of its pieces such that the clean text is the text with the replaced spans
exchanged for the placeholders of their numbers; the diagrams are those of the reading, and the
placeholders those of the numbers from zero on. -/
theorem extract_replaces_spans (text : String) :
    ∃ ps found, Cut text.toList ps ∧ r.Reading ps found ∧
      (r.extract text).cleanText = (List.range ps.length).flatMap (cleanPiece ps found) ∧
      (r.extract text).diagrams = found.reduceOption ∧
      (r.extract text).placeholders =
        (List.range (r.extract text).diagrams.length).map placeholder := by
  let ps := pieces text.toList
  refine ⟨ps, (resolve r 0 ps).map Resolved.diagram?, cut_pieces text.toList,
    reading_resolve r ps, ?_, ?_, ?_⟩
  · show (resolve r 0 ps).flatMap Resolved.clean = _
    rw [List.flatMap_def, List.flatMap_def, map_clean]
  · show (resolve r 0 ps).filterMap Resolved.diagram? =
      ((resolve r 0 ps).map Resolved.diagram?).filterMap id
    rw [List.filterMap_map]
    rfl
  · rw [List.range_eq_range']
    exact filterMap_placeholder? r 0 ps

end FreeBody.Inline
