import FreeBody.Proofs.Inline.Refusal
import FreeBody.Proofs.Inline.Expansion

/-!
# Extracting again

Replacing spans changes what stands around those that stay.  Still, the clean text has the left
spans for its spans, and no others: text in which no span begins although one stands behind it is
`Quiet`, it begins none in front of anything else either, and a placeholder has no hashes.

    spans (pieces clean) = left r 0 (pieces text)                              (spans_clean)

So extracting from a clean text finds the same spans again, and none of them holds a diagram if the
registry is steady (`extract_cleanText`).
-/

namespace FreeBody.Inline

/-! ## Text in which no span begins -/

/-- Text in which no span begins, whatever follows it. -/
def Quiet (g : List Char) : Prop := ∀ a b, g = a ++ b → b ≠ [] → ∀ t, ¬ BeginsSpan (b ++ t)

/-- A beginning of a line with a double hash behind it would begin a span there. -/
theorem not_beginsSpan_append {b u : List Char} (hne : b ≠ []) (hu : BeginsSpan u)
    (h : ¬ BeginsSpan (b ++ u)) (t : List Char) : ¬ BeginsSpan (b ++ t) := by
  obtain ⟨inner, after, rfl, hline⟩ := hu
  rintro ⟨inner', after', heq, hline'⟩
  rcases b with _ | ⟨c, _ | ⟨c', b⟩⟩
  · exact hne rfl
  · -- a single hash and the opening delimiter behind it open a span that ends where that one does
    obtain ⟨rfl, -⟩ := List.cons.inj heq
    refine h ⟨'#' :: inner, after, rfl, ?_⟩
    simpa using hline
  · rw [List.cons_append, List.cons_append, List.cons.injEq, List.cons.injEq] at heq
    obtain ⟨rfl, rfl, heq⟩ := heq
    by_cases hb : '\n' ∈ b
    · rcases List.append_eq_append_iff.1 heq with ⟨y, rfl, -⟩ | ⟨x, rfl, hx⟩
      · exact hline' (List.mem_append_left y hb)
      · -- the line ends within `b`, so the delimiter in front of that is in `b` as well
        have hx' : '\n' ∈ x := (List.mem_append.1 hb).resolve_left hline'
        rcases x with _ | ⟨d, _ | ⟨d', x⟩⟩
        · cases hx'
        · obtain ⟨rfl, -⟩ := List.cons.inj hx
          exact absurd hx' (by decide)
        · rw [List.cons_append, List.cons_append, List.cons.injEq, List.cons.injEq] at hx
          obtain ⟨rfl, rfl, -⟩ := hx
          refine h ⟨inner', x ++ '#' :: '#' :: (inner ++ '#' :: '#' :: after), ?_, hline'⟩
          simp only [List.cons_append, List.append_assoc]
    · exact h ⟨b, inner ++ '#' :: '#' :: after, rfl, hb⟩

/-- What stands in front of the first span is quiet. -/
theorem Quiet.of_first {g u : List Char} (hu : BeginsSpan u)
    (h : ∀ a b, g = a ++ b → b ≠ [] → ¬ BeginsSpan (b ++ u)) : Quiet g :=
  fun a b hab hne => not_beginsSpan_append hne hu (h a b hab hne)

/-- Text without hashes is quiet. -/
theorem Quiet.of_not_mem {g : List Char} (h : '#' ∉ g) : Quiet g := by
  rintro a b rfl hne t ⟨inner, after, heq, -⟩
  cases b with
  | nil => exact hne rfl
  | cons c b =>
    obtain ⟨rfl, -⟩ := List.cons.inj heq
    exact h (List.mem_append_right a List.mem_cons_self)

theorem quiet_placeholder (index : Nat) : Quiet (placeholder index).toList := by
  refine Quiet.of_not_mem ?_
  have hdigits : '#' ∉ Decimal.digits index := fun h =>
    absurd (Decimal.isDigit_of_mem_digits h) (by decide)
  simp [toList_placeholder, tokenText_eq_cons, hdigits]

/-! ## Spans of a text that is put together -/

theorem spans_addProse (c : Char) (ps : List Piece) : spans (addProse c ps) = spans ps := by
  unfold addProse
  split <;> rfl

/-- Quiet text in front adds no spans. -/
theorem Quiet.spans_append {g : List Char} (h : Quiet g) (t : List Char) :
    spans (pieces (g ++ t)) = spans (pieces t) := by
  induction g with
  | nil => rfl
  | cons c g ih =>
    have hhead : span? (c :: (g ++ t)) = none :=
      span?_eq_none_iff.2 (h [] (c :: g) rfl (List.cons_ne_nil c g) t)
    have htail : Quiet g := fun a b hab => h (c :: a) b (congrArg (c :: ·) hab)
    rw [List.cons_append, pieces_of_char hhead, spans_addProse, ih htail]

/-- The closing delimiter of a span does not depend on what follows the span. -/
theorem span?_append {inner after : List Char} (hline : '\n' ∉ inner)
    (hnear : ∀ a b, inner ++ '#' :: '#' :: after = a ++ '#' :: '#' :: b →
      inner.length ≤ a.length) (t : List Char) :
    span? ((Piece.span inner).text ++ t) = some (inner, t) := by
  refine span?_of_cut hline ?_
  intro a b hab
  rcases List.append_eq_append_iff.1 hab with ⟨y, rfl, -⟩ | ⟨x, rfl, hx⟩
  · rw [List.length_append]
    exact Nat.le_add_right _ _
  · -- a delimiter that begins within the span is one of the span, whatever follows
    rcases x with _ | ⟨d, _ | ⟨d', x⟩⟩
    · rw [List.append_nil]
    · obtain ⟨rfl, -⟩ := List.cons.inj hx
      refine hnear a ('#' :: after) ?_
      simp only [List.append_assoc, List.cons_append, List.nil_append]
    · rw [List.cons_append, List.cons_append, List.cons.injEq, List.cons.injEq] at hx
      obtain ⟨rfl, rfl, -⟩ := hx
      refine hnear a (x ++ '#' :: '#' :: after) ?_
      simp only [List.append_assoc, List.cons_append]

theorem spans_proseOf (s : List Char) : spans (proseOf s) = [] := by
  cases s <;> rfl

/-! ## Clean texts -/

variable (r : Inline)

theorem clean_proseOf (index : Nat) (before : List Char) (ps : List Piece) :
    (resolve r index (proseOf before ++ ps)).flatMap Resolved.clean =
      before ++ (resolve r index ps).flatMap Resolved.clean := by
  cases before <;> rfl

theorem left_proseOf (index : Nat) (before : List Char) (ps : List Piece) :
    left r index (proseOf before ++ ps) = left r index ps := by
  cases before <;> rfl

/-- **The spans of a clean text are those that were left.** -/
theorem spans_clean {s : List Char} {ps : List Piece} (h : Cut s ps) (index : Nat) :
    spans (pieces ((resolve r index ps).flatMap Resolved.clean)) = left r index ps := by
  induction h generalizing index with
  | @prose s hnone =>
    have hclean := clean_proseOf r index s []
    have hleft := left_proseOf r index s []
    rw [List.append_nil] at hclean hleft
    rw [hclean, hleft, resolve, List.flatMap_nil, List.append_nil,
      pieces_of_cut (Cut.prose hnone), spans_proseOf]
    rfl
  | @span before inner after ps hfirst hline hnear hrest ih =>
    have hbegins : BeginsSpan ((Piece.span inner).text ++ after) := by
      refine ⟨inner, after, ?_, hline⟩
      simp only [Piece.text, List.cons_append, List.append_assoc, List.nil_append]
    rw [clean_proseOf, left_proseOf, (Quiet.of_first hbegins hfirst).spans_append, resolve, left]
    cases r.readSpan inner index with
    | ok d =>
      rw [List.flatMap_cons, Resolved.clean, (quiet_placeholder index).spans_append]
      exact ih (index + 1)
    | error e =>
      rw [List.flatMap_cons, Resolved.clean, pieces_of_span (span?_append hline hnear _)]
      exact congrArg (inner :: ·) (ih index)

/-- Pieces none of which holds a diagram are all text. -/
theorem resolve_of_refused {ps : List Piece}
    (h : ∀ inner ∈ spans ps, ∃ e, r.readSpan inner 0 = .error e) :
    resolve r 0 ps = ps.map fun p => .text p.text := by
  induction ps with
  | nil => rfl
  | cons p rest ih =>
    cases p with
    | prose text => exact congrArg (Resolved.text text :: ·) (ih h)
    | span inner =>
      obtain ⟨⟨e, he⟩, hrest⟩ := List.forall_mem_cons.1 h
      rw [resolve, he]
      exact congrArg (Resolved.text (Piece.span inner).text :: ·) (ih hrest)

/-- A text none of whose spans holds a diagram is left as it is. -/
theorem extract_of_refused {text : String}
    (h : ∀ inner ∈ spans (pieces text.toList), ∃ e, r.readSpan inner 0 = .error e) :
    r.extract text = ⟨text.toList, [], []⟩ := by
  have hclean : ((pieces text.toList).map fun p => Resolved.text p.text).flatMap Resolved.clean =
      text.toList := by
    rw [List.flatMap_map]
    exact flatMap_text_pieces text.toList
  have hdiagrams : ((pieces text.toList).map fun p => Resolved.text p.text).filterMap
      Resolved.diagram? = [] := by
    rw [List.filterMap_map]
    exact List.filterMap_none _
  have hplaceholders : ((pieces text.toList).map fun p => Resolved.text p.text).filterMap
      Resolved.placeholder? = [] := by
    rw [List.filterMap_map]
    exact List.filterMap_none _
  simp only [extract, resolve_of_refused r h, hclean, hdiagrams, hplaceholders]

/-- **Extraction is done in one pass.**  If the ids have no say in which generators succeed,
extracting from a clean text finds no diagram, and returns it as it is. -/
theorem extract_cleanText (hr : r.registry.Steady) (text : String) :
    r.extract (String.ofList (r.extract text).cleanText) =
      ⟨(r.extract text).cleanText, [], []⟩ := by
  have hrefused : ∀ inner ∈ spans (pieces (r.extract text).cleanText),
      ∃ e, r.readSpan inner 0 = .error e := by
    intro inner hinner
    rw [extract, spans_clean r (cut_pieces text.toList) 0] at hinner
    obtain ⟨n, e, he⟩ := exists_refusal_of_mem_left hinner
    obtain ⟨e', he', -⟩ := refused_under hr he 0
    exact ⟨e', he'⟩
  have hclean : (String.ofList (r.extract text).cleanText).toList = (r.extract text).cleanText :=
    String.toList_ofList
  rw [← hclean] at hrefused
  rw [extract_of_refused r hrefused, hclean]

/-- Hashes that are left around placeholders do not pair up in a new way. -/
theorem extract_cleanText_hashes :
    let r : Inline := { registry := .builtin }
    let clean := "##x### __FBD_0__#\n# __FBD_1__ ##"
    r.registry.Steady ∧
      (r.extract "##x### ##P(0,0)###\n# ##PRESET:hanging## ##").cleanText = clean.toList ∧
      r.extract clean = ⟨clean.toList, [], []⟩ := by
  intro r clean
  have hclean : (r.extract "##x### ##P(0,0)###\n# ##PRESET:hanging## ##").cleanText =
      clean.toList := by decide +kernel
  have hagain := extract_cleanText r Registry.builtin_steady
    "##x### ##P(0,0)###\n# ##PRESET:hanging## ##"
  rw [hclean, String.ofList_toList] at hagain
  exact ⟨Registry.builtin_steady, hclean, hagain⟩

end FreeBody.Inline
