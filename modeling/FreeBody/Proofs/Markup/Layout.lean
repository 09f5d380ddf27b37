import FreeBody.Markup.Tree
import FreeBody.Proofs.Markup.Reflow

/-!
# Trees are laid out as well-formed markup

A tree holds arbitrary text, in attribute values and in runs, and the names of its tags.  If the
names are names, and no tag has one attribute twice, the text does not matter: the lines of the
tree are well-formed content, whatever the indentation (`content_lines`), and those of a root are
one element and the end of a line (`Node.IsRoot.text`).

Finished markup in a tree keeps its lines, up to blanks (`contentLines_verbatim`); so it is
content in the tree if it was before.
-/

namespace FreeBody.Markup

/-! ## Escaping -/

/-- A character that is either replaced by an entity or not in need of one. -/
theorem escaped_getD {entity? : Char → Option (List Char)} {reserved : List Char} {c : Char}
    (hr : reserved ⊆ valueReserved) (hsome : ∀ e, entity? c = some e → e ∈ entities)
    (hnone : entity? c = none → c ∉ reserved ∧ c ≠ '&') :
    Escaped reserved ((entity? c).getD [c]) := by
  cases h : entity? c with
  | none => exact escaped_singleton (hnone h).1 (hnone h).2
  | some e => exact escaped_of_mem (hsome e h) hr

theorem valueEntity?_of_textEntity? {c : Char} {e : List Char} (h : textEntity? c = some e) :
    valueEntity? c = some e := by
  unfold valueEntity?
  split
  · cases h
  · cases h
  · exact h

theorem escaped_textChar (c : Char) : Escaped textReserved ((textEntity? c).getD [c]) := by
  apply escaped_getD (by decide)
  · intro e he
    exact mem_entities_iff.mpr ⟨c, valueEntity?_of_textEntity? he⟩
  · intro hn
    unfold textEntity? at hn
    split at hn <;> simp_all [textReserved]

theorem escaped_valueChar (c : Char) : Escaped valueReserved ((valueEntity? c).getD [c]) := by
  apply escaped_getD (List.Subset.refl _)
  · intro e he
    exact mem_entities_iff.mpr ⟨c, he⟩
  · intro hn
    unfold valueEntity? textEntity? at hn
    split at hn
    case h_3 => split at hn <;> simp_all [valueReserved]
    all_goals simp at hn

theorem toList_escapeValue (s : String) :
    (escapeValue s).toList = s.toList.flatMap fun c => (valueEntity? c).getD [c] := by
  rw [escapeValue_eq, String.toList_ofList, escape_eq_flatMap]

theorem escaped_escapeValue (s : String) : Escaped valueReserved (escapeValue s).toList := by
  rw [toList_escapeValue]
  exact escaped_flatMap escaped_valueChar s.toList

/-- A value in which nothing needs an entity stays as it is. -/
theorem escapeValue_eq_self {s : String} (h : ∀ c ∈ '&' :: valueReserved, c ∉ s.toList) :
    escapeValue s = s := by
  have hchar : ∀ c, c ∉ '&' :: valueReserved → valueEntity? c = none := by
    intro c hc
    simp only [valueReserved, List.mem_cons, List.not_mem_nil, or_false, not_or] at hc
    unfold valueEntity?
    split
    · exact absurd rfl hc.2.2.2.1
    · exact absurd rfl hc.2.2.2.2
    · unfold textEntity?
      split
      · exact absurd rfl hc.1
      · exact absurd rfl hc.2.1
      · exact absurd rfl hc.2.2.1
      · rfl
  have hlist : ∀ t : List Char, (∀ c ∈ '&' :: valueReserved, c ∉ t) →
      (t.flatMap fun c => (valueEntity? c).getD [c]) = t := by
    intro t
    induction t with
    | nil => exact fun _ => rfl
    | cons c t ih =>
      intro ht
      have hc : c ∉ '&' :: valueReserved := fun hc => ht c hc List.mem_cons_self
      rw [List.flatMap_cons, hchar c hc, Option.getD_none,
        ih fun d hd hm => ht d hd (List.mem_cons_of_mem c hm)]
      rfl
  rw [← String.toList_inj, toList_escapeValue, hlist _ h]

/-! ## Tags -/

/-- A tag whose name is `named` and, like those of its attributes, a name; no attribute has the
name of another. -/
def Tag.Fits (named : List Char → Prop) (t : Tag) : Prop :=
  named t.name.toList ∧ isName t.name.toList ∧
    (∀ k ∈ t.attributes.map Prod.fst, isName k.toList) ∧ (t.attributes.map Prod.fst).Nodup

/-- What stands in the brackets of a tag. -/
def Tag.inside (t : Tag) : List Char := t.name.toList ++ (attributesText t.attributes).toList

theorem toList_opening (t : Tag) : t.opening.toList = '<' :: t.inside ++ ['>'] := by
  simp [Tag.opening, Tag.inside]

theorem toList_closed (t : Tag) : t.closed.toList = '<' :: t.inside ++ ['/', '>'] := by
  simp [Tag.closed, Tag.inside]

theorem toList_closing (t : Tag) :
    t.closing.toList = '<' :: '/' :: t.name.toList ++ ['>'] := by
  simp [Tag.closing]

theorem attributes_text (attributes : List (String × String))
    (h : ∀ k ∈ attributes.map Prod.fst, isName k.toList) :
    Attributes ((attributes.map Prod.fst).map String.toList)
      (attributesText attributes).toList := by
  induction attributes with
  | nil => exact .nil
  | cons a rest ih =>
    have head := h a.1 List.mem_cons_self
    have tail := ih fun k hk => h k (List.mem_cons_of_mem _ hk)
    have := Attributes.cons head (escaped_escapeValue a.2) tail
    simpa [attributesText] using this

theorem Tag.Fits.inside {named : List Char → Prop} {t : Tag} (h : t.Fits named) :
    Inside t.name.toList t.inside := by
  obtain ⟨_, hn, hk, hd⟩ := h
  refine ⟨hn, _, _, attributes_text t.attributes hk, ?_, rfl⟩
  exact List.Pairwise.map String.toList (fun _ _ hne he => hne (String.toList_inj.mp he)) hd

section

variable {named : List Char → Prop}

theorem element_of_inside {t : Tag} {inner : List Char} (ht : Inside t.name.toList t.inside)
    (hc : Content named inner) :
    Element named t.name.toList (t.opening.toList ++ inner ++ t.closing.toList) := by
  refine ⟨t.inside, inner, ht, hc, ?_⟩
  rw [toList_opening, toList_closing]
  simp only [List.append_assoc, List.cons_append, List.nil_append]

theorem Tag.Fits.closed {t : Tag} (h : t.Fits named) : Content named t.closed.toList := by
  have := Content.closed h.1 h.inside .nil
  rwa [toList_closed]

theorem Tag.Fits.element {t : Tag} {inner : List Char} (h : t.Fits named)
    (hc : Content named inner) :
    Content named (t.opening.toList ++ inner ++ t.closing.toList) :=
  content_of_element h.1 (element_of_inside h.inside hc)

end

/-! ## Text -/

/-- The tag of shifted text. -/
def Shift.tag (s : Shift) : Tag :=
  ⟨"tspan", [("baseline-shift", s.word), ("font-size", "0.7em")]⟩

theorem Shift.opening_eq (s : Shift) : s.opening = s.tag.opening := by
  cases s <;> decide

theorem Shift.closing_eq (s : Shift) : "</tspan>" = s.tag.closing := by
  cases s <;> decide

theorem Shift.tag_fits {named : List Char → Prop} (hspan : named "tspan".toList) (s : Shift) :
    s.tag.Fits named := by
  simp only [Tag.Fits, Shift.tag, List.map]
  exact ⟨hspan, by decide⟩

mutual

/-- A piece of text is escaped, and the tags of shifts in it are balanced. -/
theorem content_run {named : List Char → Prop} (hspan : named "tspan".toList) :
    ∀ r : Run, Content named r.text.toList
  | .char c => by
    rw [Run.text, String.toList_ofList]
    exact content_of_escaped (escaped_textChar c)
  | .shifted shift inner => by
    have element := (shift.tag_fits hspan).element (content_runs hspan inner)
    rw [Run.text, String.toList_append, String.toList_append, shift.opening_eq, shift.closing_eq]
    exact element

theorem content_runs {named : List Char → Prop} (hspan : named "tspan".toList) :
    ∀ rs : List Run, Content named (runsText rs).toList
  | [] => .nil
  | r :: rest => by
    rw [runsText, String.toList_append]
    exact (content_run hspan r).append (content_runs hspan rest)

end

/-! ## Lines -/

/-- Lines, each followed by its end. -/
def laidOut (lines : List String) : List Char := lines.flatMap fun l => l.toList ++ ['\n']

theorem laidOut_cons (l : String) (ls : List String) :
    laidOut (l :: ls) = l.toList ++ '\n' :: laidOut ls := by
  simp [laidOut]

theorem laidOut_append (ls ms : List String) : laidOut (ls ++ ms) = laidOut ls ++ laidOut ms :=
  List.flatMap_append

theorem toList_nodesText (ns : List Node) : (nodesText ns).toList = laidOut (nodesLines 0 ns) := by
  rw [nodesText, String.toList_join, List.flatMap_map]
  simp [laidOut]

theorem toList_indented (depth : Nat) (s : String) :
    (indented depth s).toList = List.replicate (2 * depth) ' ' ++ s.toList := by
  simp [indented]

open Text (contentLines)

theorem contentLines_indented (depth : Nat) (s : String) :
    contentLines (indented depth s).toList = contentLines s.toList := by
  rw [toList_indented]
  exact Text.contentLines_blank_append (fun c hc => List.eq_of_mem_replicate hc ▸ rfl) _

theorem contentLines_laidOut (ls : List String) :
    contentLines (laidOut ls) = ls.flatMap fun l => contentLines l.toList := by
  induction ls with
  | nil => rfl
  | cons l ls ih => rw [laidOut_cons, Text.contentLines_append, ih, List.flatMap_cons]

/-- Finished markup keeps its lines. -/
theorem contentLines_verbatim (depth : Nat) (markup : String) :
    contentLines (laidOut ((verbatimLines markup).map (indented depth))) =
      contentLines markup.toList := by
  have hfilter : ∀ ls : List (List Char),
      ((ls.map Text.trimEnd).filter (!·.isEmpty)).flatMap contentLines =
        ls.flatMap contentLines := by
    intro ls
    induction ls with
    | nil => rfl
    | cons l ls ih =>
      rw [List.map_cons, List.flatMap_cons, ← Text.contentLines_trimEnd l]
      cases hl : Text.trimEnd l with
      | nil => exact ih
      | cons c l => rw [List.filter_cons_of_pos rfl, List.flatMap_cons, ih]
  rw [contentLines_laidOut, List.flatMap_map, verbatimLines, List.flatMap_map,
    ← Text.flatMap_contentLines_lines, ← hfilter]
  simp only [contentLines_indented, String.toList_ofList]

section

variable {named : List Char → Prop}

theorem content_blanks (count : Nat) : Content named (List.replicate count ' ') := by
  apply content_of_escaped
  induction count with
  | zero => exact escaped_nil
  | succ count ih => exact (escaped_singleton (by decide) (by decide)).append ih

theorem content_newline : Content named ['\n'] :=
  content_of_escaped (escaped_singleton (by decide) (by decide))

/-- One line of content, moved in. -/
theorem content_line {depth : Nat} {s : String} (h : Content named s.toList) :
    Content named (laidOut [indented depth s]) := by
  have := ((content_blanks (2 * depth)).append h).append content_newline
  rwa [laidOut_cons, toList_indented]

end

/-- A group is an element on lines of its own. -/
theorem laidOut_group (depth : Nat) (tag : Tag) (children : List Node) :
    laidOut ((Node.group tag children).lines depth) =
      List.replicate (2 * depth) ' ' ++ (tag.opening.toList ++
        ('\n' :: laidOut (nodesLines (depth + 1) children) ++ List.replicate (2 * depth) ' ') ++
        tag.closing.toList) ++ ['\n'] := by
  rw [Node.lines, List.cons_append, laidOut_cons, laidOut_append, laidOut_cons, toList_indented,
    toList_indented]
  simp only [List.append_assoc, List.cons_append, laidOut, List.flatMap_nil]

theorem text_group (tag : Tag) (children : List Node) : (Node.group tag children).text.toList =
    tag.opening.toList ++ ('\n' :: laidOut (nodesLines 1 children)) ++ tag.closing.toList ++
      ['\n'] := by
  rw [Node.text, toList_nodesText, nodesLines, nodesLines, List.append_nil, laidOut_group]
  simp only [Nat.mul_zero, List.replicate_zero, List.nil_append, List.append_nil, Nat.zero_add]

mutual

/-- A tree of tags that fit; finished markup in it is content. -/
def Node.Fits (named : List Char → Prop) : Node → Prop
  | .group tag children => tag.Fits named ∧ NodesFit named children
  | .leaf tag => tag.Fits named
  | .line tag _ => tag.Fits named
  | .verbatim markup => Content named markup.toList

/-- Trees of tags that fit. -/
def NodesFit (named : List Char → Prop) : List Node → Prop
  | [] => True
  | n :: rest => n.Fits named ∧ NodesFit named rest

end

theorem nodesFit_iff {named : List Char → Prop} {ns : List Node} :
    NodesFit named ns ↔ ∀ n ∈ ns, n.Fits named := by
  induction ns with
  | nil => simp [NodesFit]
  | cons n rest ih => simp [NodesFit, ih]

theorem nodesFit_append {named : List Char → Prop} {ns ms : List Node} :
    NodesFit named (ns ++ ms) ↔ NodesFit named ns ∧ NodesFit named ms := by
  simp only [nodesFit_iff, List.mem_append, or_imp, forall_and]

/-- Trees that are left out fit. -/
theorem nodesFit_ite {named : List Char → Prop} {c : Prop} [Decidable c] {ns : List Node}
    (h : NodesFit named ns) : NodesFit named (if c then ns else []) := by
  split
  · exact h
  · trivial

mutual

/-- The lines of a tree that fits are content. -/
theorem content_lines {named : List Char → Prop} (hspan : named "tspan".toList) (depth : Nat) :
    ∀ n : Node, n.Fits named → Content named (laidOut (n.lines depth))
  | .group tag children => by
    rintro ⟨ht, hc⟩
    have inner := content_newline.append
      ((content_nodesLines hspan (depth + 1) children hc).append (content_blanks (2 * depth)))
    rw [laidOut_group]
    exact ((content_blanks (2 * depth)).append (ht.element inner)).append content_newline
  | .leaf tag => fun ht => content_line ht.closed
  | .line tag content => by
    intro ht
    apply content_line
    rw [String.toList_append, String.toList_append]
    exact ht.element (content_runs hspan content)
  | .verbatim markup => by
    intro h
    exact (h.relaid List.not_mem_nil (contentLines_verbatim depth markup)).1

theorem content_nodesLines {named : List Char → Prop} (hspan : named "tspan".toList)
    (depth : Nat) : ∀ ns : List Node, NodesFit named ns →
      Content named (laidOut (nodesLines depth ns))
  | [] => fun _ => .nil
  | n :: rest => by
    rintro ⟨hn, hr⟩
    rw [nodesLines, laidOut_append]
    exact (content_lines hspan depth n hn).append (content_nodesLines hspan depth rest hr)

end

/-- A group called `name` with children that fit; its own name need not be `named`. -/
def Node.IsRoot (named : List Char → Prop) (name : String) : Node → Prop
  | .group tag children => tag.Fits (· = name.toList) ∧ NodesFit named children
  | _ => False

/-- A root is laid out as one element and the end of its last line. -/
theorem Node.IsRoot.text {named : List Char → Prop} (hspan : named "tspan".toList)
    {name : String} {n : Node} (h : n.IsRoot named name) :
    ∃ markup, n.text.toList = markup ++ ['\n'] ∧ Element named name.toList markup := by
  cases n with
  | group tag children =>
    obtain ⟨ht, hc⟩ := h
    have inner := content_newline.append (content_nodesLines hspan 1 children hc)
    have element := element_of_inside ht.inside inner
    rw [ht.1] at element
    exact ⟨_, text_group tag children, element⟩
  | leaf | line | verbatim => exact h.elim

end FreeBody.Markup
