import FreeBody.Proofs.Inline.Expansion
import FreeBody.Proofs.Inline.Numbering

/-!
# When extraction and expansion lose nothing

Extraction cuts a text at the spans that hold a diagram.  `outside` gives the parts of the text
around these spans and `replaced` the spans themselves, so that the two interleave to the text;
in the clean text the parts interleave with placeholders.

Expanding the clean text must find the placeholders again, and them alone.  It does exactly when
the parts are unmistakable, that is, when each reads as text in front of the placeholder behind
it:

    drawn segments = diagrams ∧ gaps segments = outside ↔ Unmistakable n outside
                                                                  (segments_extract_iff)

Then rendering exchanges these spans for pictures, if all of them are finished; they are if the
diagrams of the registry carry their pictures (`isSome_render`).

Prose that writes the token of an extracted diagram, or breaks off inside a token in front of a
span, is mistaken (`prose_mistaken_for_placeholder`).
-/

namespace FreeBody.Inline

/-! ## Parts around spans -/

/-- Parts and fillings in turn, beginning with a part. -/
def interleave : List (List Char) → List (List Char) → List Char
  | g :: gs, f :: fs => g ++ f ++ interleave gs fs
  | gs, [] => gs.flatten
  | [], fs => fs.flatten

/-- The parts of a text around the spans that hold a diagram; the next one gets the number
`index`. -/
def outside (r : Inline) (index : Nat) : List Piece → List (List Char)
  | [] => [[]]
  | .prose text :: rest => glue text (outside r index rest)
  | .span inner :: rest =>
    match r.readSpan inner index with
    | .ok _ => [] :: outside r (index + 1) rest
    | .error _ => glue (Piece.span inner).text (outside r index rest)

/-- The spans that hold a diagram, as they are written. -/
def replaced (r : Inline) (index : Nat) : List Piece → List (List Char)
  | [] => []
  | .prose _ :: rest => replaced r index rest
  | .span inner :: rest =>
    match r.readSpan inner index with
    | .ok _ => (Piece.span inner).text :: replaced r (index + 1) rest
    | .error _ => replaced r index rest

/-- Parts that each read as text, all but the last in front of a placeholder. -/
def Unmistakable (count : Nat) : List (List Char) → Prop
  | [] => True
  | [g] => ReadsAsText count [] g
  | g :: k :: gs => ReadsAsText count ['_', '_'] g ∧ Unmistakable count (k :: gs)

/-- The placeholders of `n` diagrams, numbered from `index`, as they are written. -/
def tokens (index n : Nat) : List (List Char) :=
  (List.range' index n).map fun k => tokenText (Decimal.digits k)

theorem interleave_glue (s : List Char) {gs : List (List Char)} (fs : List (List Char))
    (h : gs ≠ []) : interleave (glue s gs) fs = s ++ interleave gs fs := by
  cases gs with
  | nil => exact absurd rfl h
  | cons g gs =>
    rw [glue]
    cases fs with
    | nil => simp only [interleave, List.flatten_cons, List.append_assoc]
    | cons f fs => simp only [interleave, List.append_assoc]

theorem interleave_nil_cons (f : List Char) (gs fs : List (List Char)) :
    interleave ([] :: gs) (f :: fs) = f ++ interleave gs fs := by
  rw [interleave, List.nil_append]

theorem length_glue (s : List Char) {gs : List (List Char)} (h : gs ≠ []) :
    (glue s gs).length = gs.length := by
  cases gs with
  | nil => exact absurd rfl h
  | cons g gs => rfl

/-! ## What extraction does to the parts -/

section

variable (r : Inline)

theorem outside_ne_nil (index : Nat) (ps : List Piece) : outside r index ps ≠ [] := by
  fun_induction outside r index ps with
  | case1 => exact List.cons_ne_nil _ _
  | case2 index text rest ih => cases h : outside r index rest <;> exact List.cons_ne_nil _ _
  | case3 => exact List.cons_ne_nil _ _
  | case4 index inner rest e h ih =>
    cases h : outside r index rest <;> exact List.cons_ne_nil _ _

/-- The parts and the replaced spans make up the text. -/
theorem interleave_outside_replaced (index : Nat) (ps : List Piece) :
    interleave (outside r index ps) (replaced r index ps) = ps.flatMap Piece.text := by
  fun_induction outside r index ps with
  | case1 => rfl
  | case2 index text rest ih =>
    rw [replaced, interleave_glue _ _ (outside_ne_nil r index rest), ih]
    rfl
  | case3 index inner rest d h ih =>
    rw [replaced, h, interleave_nil_cons, ih]
    rfl
  | case4 index inner rest e h ih =>
    rw [replaced, h, interleave_glue _ _ (outside_ne_nil r index rest), ih]
    rfl

/-- There is one part more than there are diagrams, and a replaced span for each diagram. -/
theorem length_outside (index : Nat) (ps : List Piece) :
    (outside r index ps).length = ((resolve r index ps).filterMap Resolved.diagram?).length + 1 ∧
      (replaced r index ps).length =
        ((resolve r index ps).filterMap Resolved.diagram?).length := by
  fun_induction outside r index ps with
  | case1 => exact ⟨rfl, rfl⟩
  | case2 index text rest ih =>
    rw [length_glue _ (outside_ne_nil r index rest)]
    exact ih
  | case3 index inner rest d h ih =>
    rw [replaced, resolve, h]
    exact ⟨congrArg (· + 1) ih.1, congrArg (· + 1) ih.2⟩
  | case4 index inner rest e h ih =>
    rw [length_glue _ (outside_ne_nil r index rest), replaced, resolve, h]
    exact ih

/-- In the clean text, the parts interleave with placeholders. -/
theorem flatMap_clean (index : Nat) (ps : List Piece) :
    (resolve r index ps).flatMap Resolved.clean =
      interleave (outside r index ps)
        (tokens index ((resolve r index ps).filterMap Resolved.diagram?).length) := by
  fun_induction outside r index ps with
  | case1 => rfl
  | case2 index text rest ih =>
    rw [resolve, interleave_glue _ _ (outside_ne_nil r index rest), List.flatMap_cons, ih]
    rfl
  | case3 index inner rest d h ih =>
    have hr : resolve r index (.span inner :: rest) =
        .diagram index d :: resolve r (index + 1) rest := by
      rw [resolve, h]
    rw [hr, List.flatMap_cons, ih, Resolved.clean, toList_placeholder]
    show _ = interleave _
      (tokens index (((resolve r (index + 1) rest).filterMap Resolved.diagram?).length + 1))
    rw [tokens, tokens, List.range'_succ, List.map_cons, interleave_nil_cons]
  | case4 index inner rest e h ih =>
    rw [resolve, h, interleave_glue _ _ (outside_ne_nil r index rest), List.flatMap_cons, ih]
    rfl

end

/-! ## What expansion does to parts and placeholders -/

section

variable {α : Type}

theorem named?_digits (diagrams : List α) (k : Nat) :
    named? diagrams (Decimal.digits k) = diagrams[k]? := by
  rw [named?, Decimal.value_digits]

/-- In front of a placeholder, expansion goes on with its diagram. -/
theorem expand_placeholder {diagrams : List α} {k : Nat} (h : k < diagrams.length)
    (rest : List Char) :
    expand diagrams (tokenText (Decimal.digits k) ++ rest) =
      .diagram diagrams[k] :: expand diagrams rest :=
  expand_of_named (token?_placeholder k rest)
    (by rw [named?_digits, List.getElem?_eq_getElem h])

/-- Parts are told from the placeholders between them exactly if they are unmistakable. -/
theorem expand_interleave_iff (diagrams : List α) (n index : Nat)
    (hn : index + n = diagrams.length) (gs : List (List Char)) (hg : gs.length = n + 1) :
    (drawn (expand diagrams (interleave gs (tokens index n))) = diagrams.drop index ∧
        gaps (expand diagrams (interleave gs (tokens index n))) = gs) ↔
      Unmistakable diagrams.length gs := by
  induction n generalizing index gs with
  | zero =>
    obtain ⟨g, rfl⟩ := List.length_eq_one_iff.1 hg
    have hi : interleave [g] (tokens index 0) = g ++ [] := by
      show [g].flatten = _
      rw [List.flatten_singleton, List.append_nil]
    have hd : diagrams.drop index = [] := List.drop_eq_nil_of_le (Nat.le_of_eq hn.symm)
    rw [hi, hd]
    constructor
    · rintro ⟨-, h⟩
      exact readsAsText_of_gaps meets_end h
    · intro h
      obtain ⟨h₁, h₂⟩ := gaps_expand_of_readsAsText meets_end h
      rw [h₁, h₂, expand_nil]
      exact ⟨rfl, by rw [gaps, glue, List.append_nil]⟩
  | succ n ih =>
    rcases gs with _ | ⟨g, _ | ⟨k, ks⟩⟩
    · cases hg
    · cases hg
    · -- the first gap, the placeholder behind it, and the rest
      have hlt : index < diagrams.length := by omega
      have hi : interleave (g :: k :: ks) (tokens index (n + 1)) =
          g ++ (tokenText (Decimal.digits index) ++
            interleave (k :: ks) (tokens (index + 1) n)) := by
        rw [tokens, List.range'_succ, List.map_cons, interleave, List.append_assoc]
        rfl
      have hs := ih (index + 1) (by omega) (k :: ks) (by simpa using hg)
      generalize interleave (k :: ks) (tokens (index + 1) n) = s at hs hi
      have hm := meets_token (Decimal.digits index) s
      rw [hi, List.drop_eq_getElem_cons hlt, Unmistakable, ← hs]
      constructor
      · rintro ⟨hd, hgs⟩
        have hr := readsAsText_of_gaps hm hgs
        obtain ⟨h₁, h₂⟩ := gaps_expand_of_readsAsText hm hr
        rw [h₁, expand_placeholder hlt, gaps, glue, List.cons.injEq] at hgs
        rw [h₂, expand_placeholder hlt, drawn, List.cons.injEq] at hd
        exact ⟨hr, hd.2, hgs.2⟩
      · rintro ⟨hr, hd, hgs⟩
        obtain ⟨h₁, h₂⟩ := gaps_expand_of_readsAsText hm hr
        rw [h₁, h₂, expand_placeholder hlt, gaps, glue, drawn, hd, hgs, List.append_nil]
        exact ⟨rfl, rfl⟩

end

/-- The pictures of diagrams, if they are all finished. -/
def pictures? (diagrams : List (Option Diagram)) : Option (List String) :=
  diagrams.mapM fun d => d.bind Diagram.markup

theorem pictures?_cons (d : Option Diagram) (diagrams : List (Option Diagram)) :
    pictures? (d :: diagrams) =
      (d.bind Diagram.markup).bind fun picture => (pictures? diagrams).map (picture :: ·) := by
  rw [pictures?, pictures?, List.mapM_cons]
  cases d.bind Diagram.markup with
  | none => rfl
  | some picture => cases diagrams.mapM fun d => d.bind Diagram.markup <;> rfl

/-- Rendered segments are their gaps with pictures between them, if there is a picture of each
diagram. -/
theorem mapM_segmentText (segments : List (Segment (Option Diagram))) :
    (segments.mapM Extracted.segmentText).map (fun texts => (String.join texts).toList) =
      (pictures? (drawn segments)).map fun pictures =>
        interleave (gaps segments) (pictures.map String.toList) := by
  induction segments with
  | nil => rfl
  | cons segment rest ih =>
    -- what stands in front of the rest is put in front of both sides
    have front (t : String) := congrArg (Option.map (t.toList ++ ·)) ih
    simp only [Option.map_map, Function.comp_def] at front
    rw [List.mapM_cons]
    cases segment with
    | text s =>
      have hs := front (String.ofList s)
      simp only [String.toList_ofList, ← interleave_glue s _ (gaps_ne_nil rest)] at hs
      rw [drawn, gaps, ← hs]
      cases rest.mapM Extracted.segmentText with
      | none => rfl
      | some texts => simp [Extracted.segmentText]
    | diagram d =>
      rw [drawn, pictures?_cons, Extracted.segmentText]
      cases d.bind Diagram.markup with
      | none => rfl
      | some picture =>
        have hs := front picture
        simp only [← interleave_nil_cons] at hs
        rw [Option.bind_some, Option.map_map]
        refine Eq.trans ?_ hs
        cases rest.mapM Extracted.segmentText with
        | none => rfl
        | some texts => simp

/-! ## Finished pictures -/

section

variable {r : Inline} (hr : r.registry.Makes fun _ d => d.IsFinished)

include hr

theorem isSome_markup_of_readSpan {inner : List Char} {index : Nat} {d : Option Diagram}
    (h : r.readSpan inner index = .ok d) : (d.bind Diagram.markup).isSome = true := by
  rcases readSpan_eq_ok_iff.1 h with ⟨c, -, rfl⟩ | ⟨-, p, hp, rfl⟩
  · have hsome : (Composition.compose r.registry r.spacing
        ("inline-combo-" ++ toString index) c).diagram.isSome = true :=
      Composition.isSome_compose_of_finished hr
    obtain ⟨d, hd⟩ := Option.isSome_iff_exists.1 hsome
    rw [hd, Option.bind_some]
    exact (Composition.finished_of_compose hd).isSome_markup
  · exact (Compact.read_finished hr hp).isSome_markup

/-- The diagrams of a text have pictures, if those of its presets carry theirs. -/
theorem isSome_markup_of_resolve (index : Nat) (ps : List Piece) :
    ∀ d ∈ (resolve r index ps).filterMap Resolved.diagram?,
      (d.bind Diagram.markup).isSome = true := by
  fun_induction resolve r index ps with
  | case1 => exact List.forall_mem_nil _
  | case2 index text rest ih => exact ih
  | case3 index inner rest d h ih =>
    exact List.forall_mem_cons.2 ⟨isSome_markup_of_readSpan hr h, ih⟩
  | case4 index inner rest e h ih => exact ih

/-- A text is rendered, if the diagrams of its presets carry their pictures. -/
theorem isSome_render (text : String) : (r.extract text).render.isSome = true := by
  have hmarkup : ∀ d ∈ (r.extract text).diagrams, (d.bind Diagram.markup).isSome = true :=
    isSome_markup_of_resolve hr 0 (pieces text.toList)
  have hpictures : (pictures? (drawn (r.extract text).segments)).isSome = true :=
    Composition.isSome_mapM_iff.2 fun d hd => hmarkup d (mem_of_mem_drawn_expand hd)
  have hsegments := congrArg Option.isSome (mapM_segmentText (r.extract text).segments)
  rw [Option.isSome_map, Option.isSome_map, hpictures] at hsegments
  rw [Extracted.render, Option.isSome_map, hsegments]

end

/-! ## The whole way -/

/-- The parts of a text around its replaced spans come back whole, with every diagram once and in
order between them, exactly if they are unmistakable; the rendered text is then the text with
pictures in place of these spans, and there is one as soon as the diagrams have pictures. -/
theorem segments_extract_iff (r : Inline) (text : String) :
    let e := r.extract text
    let parts := outside r 0 (pieces text.toList)
    interleave parts (replaced r 0 (pieces text.toList)) = text.toList ∧
      (replaced r 0 (pieces text.toList)).length = e.diagrams.length ∧
      ((drawn e.segments = e.diagrams ∧ gaps e.segments = parts) ↔
        Unmistakable e.diagrams.length parts) ∧
      (Unmistakable e.diagrams.length parts →
        e.render.map String.toList =
          (pictures? e.diagrams).map fun pictures =>
            interleave parts (pictures.map String.toList)) ∧
      (r.registry.Makes (fun _ d => d.IsFinished) → e.render.isSome = true) := by
  intro e parts
  obtain ⟨hparts, hspans⟩ := length_outside r 0 (pieces text.toList)
  have hclean : e.segments =
      expand e.diagrams (interleave parts (tokens 0 e.diagrams.length)) :=
    congrArg (expand e.diagrams) (flatMap_clean r 0 (pieces text.toList))
  have hiff : (drawn e.segments = e.diagrams ∧ gaps e.segments = parts) ↔
      Unmistakable e.diagrams.length parts := by
    have := expand_interleave_iff e.diagrams e.diagrams.length 0 (Nat.zero_add _) parts hparts
    rw [hclean, ← this, List.drop_zero]
  refine ⟨?_, hspans, hiff, fun h => ?_, fun hr => isSome_render hr text⟩
  · rw [interleave_outside_replaced, flatMap_text_pieces]
  · obtain ⟨hd, hg⟩ := hiff.2 h
    unfold Extracted.render
    rw [Option.map_map, Function.comp_def, mapM_segmentText, hd, hg]

/-- A token of a number that is not in use stays in the prose, in front of a placeholder too. -/
theorem unused_number_survives :
    let r : Inline := { registry := Registry.builtin }
    let text := "a __FBD_5__##P(0,0)##"
    let parts := outside r 0 (pieces text.toList)
    Unmistakable (r.extract text).diagrams.length parts ∧
      (r.extract text).render.isSome = true ∧
      (r.extract text).render.map String.toList =
        (pictures? (r.extract text).diagrams).map fun pictures =>
          interleave parts (pictures.map String.toList) := by
  intro r text parts
  have hn : (r.extract text).diagrams.length = 1 := by decide +kernel
  have hp : parts = ['a' :: ' ' :: (tokenText ['5'] ++ []), []] := by decide +kernel
  have h : Unmistakable (r.extract text).diagrams.length parts := by
    rw [hn, hp]
    refine ⟨?_, .nil⟩
    refine .char (by decide) (.char (by decide) ?_)
    exact .token (by decide) (List.forall_mem_singleton.2 (by decide)) (by decide) .nil
  obtain ⟨-, -, -, hrender, hsome⟩ := segments_extract_iff r text
  exact ⟨h, hsome Registry.builtin_finished, hrender h⟩

/-- Prose that writes a token of a number in use draws the diagram twice, and prose that breaks
off inside a token swallows the placeholder behind it. -/
theorem prose_mistaken_for_placeholder :
    let r : Inline := { registry := Registry.builtin }
    let twice := r.extract "__FBD_0__ ##P(0,0)##"
    let never := r.extract "__FBD_7##P(0,0)##"
    twice.diagrams.length = 1 ∧ (drawn twice.segments).length = 2 ∧
      never.diagrams.length = 1 ∧ (drawn never.segments).length = 0 := by
  decide +kernel

end FreeBody.Inline
