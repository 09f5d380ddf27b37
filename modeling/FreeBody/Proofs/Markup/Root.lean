import FreeBody.Markup.Root
import FreeBody.Proofs.Markup.Layout

/-!
# Taking off a root

The search for the root's tag and the removal of its end hit what they are meant for: the content
of a picture that was laid out is its content, trimmed (`rootContent_root`), and markup that
begins with another tag is only trimmed (`rootContent_other`, `nodesText_eq`).
-/

namespace FreeBody.Markup

open Text (trim isBlank contentLines)

theorem toList_stripRoot (markup : String) :
    (stripRoot markup).toList = rootContent markup.toList := String.toList_ofList

/-! ## Roots -/

theorem dropEnding_append (ending s : List Char) : dropEnding ending (s ++ ending) = s := by
  rw [dropEnding, if_pos (List.isSuffixOf_iff_suffix.2 (List.suffix_append s ending)),
    List.length_append, Nat.add_sub_cancel, List.take_left]

theorem trim_bracketed (s : List Char) : trim ('<' :: s ++ ['>']) = '<' :: s ++ ['>'] := by
  refine Text.trim_eq_self_of_stops (Text.stops_cons_iff.2 (by decide)) ?_
  rw [List.reverse_append]
  exact Text.stops_cons_iff.2 (by decide)

theorem contentLines_bracketed {s : List Char} (h : '\n' ∉ s) :
    contentLines ('<' :: s ++ ['>']) = ['<' :: s ++ ['>']] := by
  rw [Text.contentLines_of_not_mem (by simpa using h), trim_bracketed, if_neg (by simp)]

/-- A root without another tag in front. -/
theorem rootContent_root {inside : List Char} (h : Inside "svg".toList inside)
    (inner : List Char) :
    rootContent ('<' :: inside ++ '>' :: inner ++ "</svg>".toList ++ ['\n']) = trim inner := by
  obtain ⟨attributes, hinside⟩ : ∃ attributes, inside = 's' :: 'v' :: 'g' :: attributes := by
    obtain ⟨-, -, rest, -, -, rfl⟩ := h
    exact ⟨rest, by simp⟩
  have htrim : trim ('<' :: inside ++ '>' :: inner ++ "</svg>".toList ++ ['\n']) =
      '<' :: inside ++ '>' :: (inner ++ "</svg>".toList) := by
    have hcut : '<' :: inside ++ '>' :: inner ++ "</svg>".toList ++ ['\n'] =
        '<' :: (inside ++ '>' :: inner ++ "</svg".toList) ++ ['>'] ++ ['\n'] := by simp
    rw [hcut, Text.trim_append_blank Text.breaks_newline.blank, trim_bracketed]
    simp
  have hdeclaration : dropDeclaration ('<' :: inside ++ '>' :: (inner ++ "</svg>".toList)) =
      '<' :: inside ++ '>' :: (inner ++ "</svg>".toList) := by
    rw [dropDeclaration, hinside]
    exact if_neg (by simp)
  have hopen : ∀ c ∈ '<' :: inside, (c != '>') = true := by
    intro c hc
    rw [bne_iff_ne]
    rintro rfl
    rcases List.mem_cons.1 hc with hc | hc
    · cases hc
    · exact h.unbracketed.greater hc
  have hstop : Text.Stops (· != '>') ('>' :: (inner ++ "</svg>".toList)) :=
    Text.stops_cons_iff.2 (by simp)
  have hroot : "<svg".toList.isPrefixOf ('<' :: inside ++ '>' :: (inner ++ "</svg>".toList)) := by
    rw [hinside]
    simp
  have hlast : ('<' :: inside).getLast? ≠ some '/' := by
    rw [List.getLast?_cons_of_ne_nil h.ne_nil]
    exact h.getLast?_ne
  rw [rootContent, htrim, hdeclaration, if_pos hroot]
  simp only [Text.dropWhile_append_of_stops hopen hstop,
    Text.takeWhile_append_of_stops hopen hstop, if_neg hlast, dropEnding_append]

/-- A root that was laid out gives its lines. -/
theorem rootContent_text {named : List Char → Prop} {tag : Tag} (h : tag.Fits named)
    (hname : tag.name = "svg") (children : List Node) :
    rootContent (Node.group tag children).text.toList =
      trim ('\n' :: laidOut (nodesLines 1 children)) := by
  have hinside := h.inside
  rw [hname] at hinside
  rw [text_group, toList_opening, toList_closing, hname]
  have := rootContent_root hinside ('\n' :: laidOut (nodesLines 1 children))
  simpa using this

/-! ## Other tags -/

theorem isPrefix_of_isPrefix_trim {p s : List Char} (hs : Text.Stops isBlank s)
    (h : p <+: trim s) : p <+: s := by
  rw [trim, Text.trimStart, Text.dropWhile_of_stops hs] at h
  refine h.trans ?_
  conv => rhs; rw [Text.eq_trimEnd_append s]
  exact List.prefix_append _ _

/-- Markup that begins neither with a root nor with a declaration is only trimmed. -/
theorem rootContent_eq_trim {s : List Char} (hroot : ¬ "<svg".toList <+: trim s)
    (hdeclaration : ¬ "<?xml".toList <+: trim s) : rootContent s = trim s := by
  have hdrop : dropDeclaration (trim s) = trim s := by
    rw [dropDeclaration, if_neg]
    rwa [List.isPrefixOf_iff_prefix]
  rw [rootContent, hdrop, if_neg]
  rwa [List.isPrefixOf_iff_prefix]

theorem rootContent_other {s : List Char} (hs : Text.Stops isBlank s)
    (hroot : ¬ "<svg".toList <+: s) (hdeclaration : ¬ "<?xml".toList <+: s) :
    rootContent s = trim s :=
  rootContent_eq_trim (fun h => hroot (isPrefix_of_isPrefix_trim hs h))
    fun h => hdeclaration (isPrefix_of_isPrefix_trim hs h)

/-- The name of the tag that the lines of a tree begin with; finished markup has none. -/
def Node.name? : Node → Option String
  | .group tag _ => some tag.name
  | .leaf tag => some tag.name
  | .line tag _ => some tag.name
  | .verbatim _ => none

theorem Tag.name_prefix_opening (t : Tag) : '<' :: t.name.toList <+: t.opening.toList := by
  rw [toList_opening, Tag.inside, List.cons_append, List.append_assoc]
  exact List.cons_prefix_cons.2 ⟨rfl, List.prefix_append _ _⟩

theorem Tag.name_prefix_closed (t : Tag) : '<' :: t.name.toList <+: t.closed.toList := by
  rw [toList_closed, Tag.inside, List.cons_append, List.append_assoc]
  exact List.cons_prefix_cons.2 ⟨rfl, List.prefix_append _ _⟩

theorem name_prefix_lines {n : Node} {name : String} (h : n.name? = some name) :
    '<' :: name.toList <+: laidOut (n.lines 0) := by
  have hline : ∀ (s : String) (ls : List String), s.toList <+: laidOut (indented 0 s :: ls) := by
    intro s ls
    rw [laidOut_cons, toList_indented]
    exact List.prefix_append _ _
  cases n with
  | group tag children =>
    obtain rfl := Option.some.inj h
    exact tag.name_prefix_opening.trans (hline _ _)
  | leaf tag =>
    obtain rfl := Option.some.inj h
    exact tag.name_prefix_closed.trans (hline _ _)
  | line tag content =>
    obtain rfl := Option.some.inj h
    refine tag.name_prefix_opening.trans (List.IsPrefix.trans ?_ (hline _ _))
    rw [String.toList_append, String.toList_append, List.append_assoc]
    exact List.prefix_append _ _
  | verbatim markup => cases h

/-- Whether a name begins otherwise than that of a root or a declaration. -/
def isOther : List Char → Bool
  | [] => false
  | c :: _ => c != 's' && c != '?'

/-- Trees of which the first is no root are only trimmed, and something is left of them. -/
theorem rootContent_nodesText {n : Node} {name : String} (h : n.name? = some name)
    (hother : isOther name.toList) (rest : List Node) :
    rootContent (nodesText (n :: rest)).toList = trim (nodesText (n :: rest)).toList ∧
      trim (nodesText (n :: rest)).toList ≠ [] := by
  obtain ⟨more, hmore⟩ : '<' :: name.toList <+: (nodesText (n :: rest)).toList := by
    rw [toList_nodesText, nodesLines, laidOut_append]
    exact (name_prefix_lines h).trans (List.prefix_append _ _)
  cases hname : name.toList with
  | nil =>
    rw [hname] at hother
    cases hother
  | cons c name =>
    rw [hname] at hother hmore
    simp only [isOther, Bool.and_eq_true, bne_iff_ne] at hother
    rw [← hmore]
    refine ⟨rootContent_other (Text.stops_cons_iff.2 (by decide)) ?_ ?_, ?_⟩
    · simp [hother.1.symm]
    · simp [hother.2.symm]
    · intro hnil
      have := Text.trim_eq_nil_iff.1 hnil '<' (by simp)
      revert this
      decide

end FreeBody.Markup
