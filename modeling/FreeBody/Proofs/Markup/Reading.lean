import FreeBody.Proofs.Markup.Entity
import FreeBody.Proofs.Markup.Layout

/-!
# Reading trees that were laid out

The attributes that are read in the lines of a tree are those of its tags, escaped, tag by tag
(`readings_lines`, `allAttributes_lines`), and what is read as the contents of the elements of a
class are the lines of the children of the groups of that class (`classContents_lines`).  Finished
markup in the tree counts with what is read in it.
-/

namespace FreeBody.Markup

open Text (contentLines)

/-! ## Tags -/

/-- The attributes of a tag as they are read. -/
def Tag.pairs (t : Tag) : List (List Char × List Char) :=
  t.attributes.map fun a => (a.1.toList, (escapeValue a.2).toList)

theorem attributes_inside {named : List Char → Prop} {t : Tag} (h : t.Fits named) :
    attributes t.inside = t.pairs := by
  obtain ⟨-, hn, hkeys, -⟩ := h
  have hquote : '"' ∉ t.name.toList := special_not_mem_of_isName hn '"' (by simp)
  unfold attributes Tag.inside Tag.pairs
  clear hn
  generalize t.name.toList = lead at hquote
  generalize t.attributes = as at hkeys
  induction as generalizing lead with
  | nil =>
    rw [show (attributesText []).toList = [] from rfl, List.append_nil,
      Text.pieces_of_not_mem hquote]
    rfl
  | cons a as ih =>
    rw [List.map_cons, List.forall_mem_cons] at hkeys
    have htext : (attributesText (a :: as)).toList = ' ' :: a.1.toList ++ '=' :: '"' ::
        (escapeValue a.2).toList ++ '"' :: (attributesText as).toList := by
      simp [attributesText]
    have hvalue := (escaped_escapeValue a.2).free '"' (by decide)
    have hrest := ih [] List.not_mem_nil hkeys.2
    rw [htext, pairs_pieces hquote hkeys.1 hvalue]
    exact congrArg _ hrest

section

variable {named named' : List Char → Prop} {cls : List Char} {t : Tag} {inner s : List Char}

theorem hasClass_inside (h : t.Fits named) :
    HasClass cls t.inside ↔ ("class".toList, cls) ∈ t.pairs := by
  rw [HasClass, attributes_inside h]

theorem hasClass_closed (h : t.Fits named) :
    HasClass cls (t.inside ++ ['/']) ↔ ("class".toList, cls) ∈ t.pairs := by
  rw [HasClass, attributes_closed h.inside, attributes_inside h]

theorem classContents_tree (h : t.Fits named) (hc : Content named' inner) :
    classContents cls (t.opening.toList ++ inner ++ t.closing.toList) =
      (if ("class".toList, cls) ∈ t.pairs then [inner] else []) ++ classContents cls inner := by
  have hcut : t.opening.toList ++ inner ++ t.closing.toList =
      '<' :: t.inside ++ '>' :: (inner ++ ('<' :: ('/' :: t.name.toList) ++ '>' :: [])) := by
    rw [toList_opening, toList_closing]
    simp
  rw [hcut, classContents_element h.inside hc, hc.classContents_append,
    classContents_endTag h.inside]
  simp only [hasClass_inside h]
  exact congrArg _ (List.append_nil _)

theorem classContents_leaf (h : t.Fits named) :
    classContents cls t.closed.toList =
      if ("class".toList, cls) ∈ t.pairs then [[]] else [] := by
  have hcut : t.closed.toList = '<' :: (t.inside ++ ['/']) ++ '>' :: [] := by
    rw [toList_closed]
    simp
  rw [hcut, classContents_closed h.inside]
  simp only [hasClass_closed h]
  exact List.append_nil _

/-- Without an attribute that gives the class there is no content of it. -/
theorem classContents_eq_nil_of_attributes
    (h : ("class".toList, cls) ∉ allAttributes s) : classContents cls s = [] :=
  classContents_eq_nil fun x hx hcls => h (List.mem_flatMap.2 ⟨x, hx, hcls⟩)

end

/-! ## Readings -/

section

variable {β : Type} (g : List (List Char × List Char) → List β)

/-- What `g` makes of the attributes of a text, tag by tag. -/
def readings (s : List Char) : List β := (tags s).flatMap fun x => g (attributes x)

mutual

/-- What `g` makes of the markup of a run. -/
def Run.readings : Run → List β
  | .char _ => []
  | .shifted shift content => g shift.tag.pairs ++ runsReadings content

/-- What `g` makes of the markup of a piece of text. -/
def runsReadings : List Run → List β
  | [] => []
  | r :: rest => r.readings ++ runsReadings rest

end

mutual

/-- What `g` makes of a tree. -/
def Node.readings : Node → List β
  | .group tag children => g tag.pairs ++ nodesReadings children
  | .leaf tag => g tag.pairs
  | .line tag content => g tag.pairs ++ runsReadings g content
  | .verbatim markup => Markup.readings g markup.toList

/-- What `g` makes of a list of trees. -/
def nodesReadings : List Node → List β
  | [] => []
  | n :: rest => n.readings ++ nodesReadings rest

end

end

mutual

/-- Whether no tag of the finished markup in a tree goes over a line end. -/
def Node.Unbroken : Node → Prop
  | .group _ children => NodesUnbroken children
  | .verbatim markup => ∀ x ∈ tags markup.toList, '\n' ∉ x
  | _ => True

/-- Whether no tag of the finished markup in trees goes over a line end. -/
def NodesUnbroken : List Node → Prop
  | [] => True
  | n :: rest => n.Unbroken ∧ NodesUnbroken rest

end

section

variable {β : Type} {g : List (List Char × List Char) → List β}
  {named named' : List Char → Prop} {t : Tag} {inner s p q : List Char}

theorem nodesReadings_append (ns ms : List Node) :
    nodesReadings g (ns ++ ms) = nodesReadings g ns ++ nodesReadings g ms := by
  induction ns with
  | nil => rfl
  | cons n ns ih => rw [List.cons_append, nodesReadings, nodesReadings, ih, List.append_assoc]

theorem readings_append (h : Content named s) (t : List Char) :
    readings g (s ++ t) = readings g s ++ readings g t := by
  rw [readings, h.tags_append, List.flatMap_append]
  rfl

theorem readings_of_not_mem (h : '<' ∉ s) : readings g s = [] := by
  have := tags_append_of_not_mem h []
  rw [List.append_nil] at this
  rw [readings, this]
  rfl

/-- Text around content is passed over. -/
theorem readings_surrounded (hp : '<' ∉ p) (hq : '<' ∉ q) (h : Content named s) :
    readings g (p ++ s ++ q) = readings g s := by
  rw [List.append_assoc, readings, tags_append_of_not_mem hp, ← readings, readings_append h,
    readings_of_not_mem hq, List.append_nil]

theorem less_not_mem_blanks (count : Nat) : '<' ∉ List.replicate count ' ' := fun hm =>
  absurd (List.eq_of_mem_replicate hm) (by decide)

theorem readings_line {depth : Nat} {s : String} (h : Content named s.toList) :
    readings g (laidOut [indented depth s]) = readings g s.toList := by
  rw [laidOut_cons, toList_indented]
  exact readings_surrounded (less_not_mem_blanks _) (by decide) h

theorem readings_closed (h : t.Fits named) : readings g t.closed.toList = g t.pairs := by
  have hcut : t.closed.toList = '<' :: (t.inside ++ ['/']) ++ '>' :: [] := by
    rw [toList_closed]
    simp
  rw [hcut, readings, tags_tag h.inside.unbracketed_closed, List.flatMap_cons,
    attributes_closed h.inside, attributes_inside h]
  simp [tags]

/-- What is read in an element with content: an end tag has no attributes. -/
theorem readings_element (hg : g [] = []) (h : t.Fits named) (hc : Content named' inner) :
    readings g (t.opening.toList ++ inner ++ t.closing.toList) =
      g t.pairs ++ readings g inner := by
  have hcut : t.opening.toList ++ inner ++ t.closing.toList =
      '<' :: t.inside ++ '>' :: (inner ++ ('<' :: ('/' :: t.name.toList) ++ '>' :: [])) := by
    rw [toList_opening, toList_closing]
    simp
  have hquote : '"' ∉ '/' :: t.name.toList := by
    simpa using special_not_mem_of_isName h.2.1 '"' (by simp)
  rw [hcut, readings, tags_element h.inside, hc.tags_append, tags_tag h.inside.unbracketed_end,
    List.flatMap_cons, List.flatMap_append, List.flatMap_cons, attributes_inside h,
    attributes_of_not_mem hquote]
  simp [readings, tags, hg]

mutual

theorem readings_run (hg : g [] = []) (hspan : named "tspan".toList) :
    ∀ r : Run, readings g r.text.toList = r.readings g
  | .char c => by
    rw [Run.text, String.toList_ofList,
      readings_of_not_mem ((escaped_textChar c).free '<' (by decide)), Run.readings]
  | .shifted shift inner => by
    rw [Run.text, String.toList_append, String.toList_append, shift.opening_eq, shift.closing_eq,
      readings_element hg (shift.tag_fits hspan) (content_runs hspan inner),
      readings_runs hg hspan inner, Run.readings]

theorem readings_runs (hg : g [] = []) (hspan : named "tspan".toList) :
    ∀ rs : List Run, readings g (runsText rs).toList = runsReadings g rs
  | [] => rfl
  | r :: rest => by
    rw [runsText, String.toList_append, readings_append (content_run hspan r),
      readings_run hg hspan r, readings_runs hg hspan rest, runsReadings]

end

mutual

/-- What is read in the lines of a tree is what is read in its tags. -/
theorem readings_lines (hg : g [] = []) (hspan : named "tspan".toList) (depth : Nat) :
    ∀ n : Node, n.Fits named → n.Unbroken →
    readings g (laidOut (n.lines depth)) = n.readings g
  | .group tag children => by
    rintro ⟨ht, hc⟩ hu
    have hchildren := content_nodesLines hspan (depth + 1) children hc
    have inner : Content named ('\n' :: laidOut (nodesLines (depth + 1) children) ++
        List.replicate (2 * depth) ' ') :=
      content_newline.append (hchildren.append (content_blanks (2 * depth)))
    have hinner : readings g ('\n' :: laidOut (nodesLines (depth + 1) children) ++
        List.replicate (2 * depth) ' ') =
          readings g (laidOut (nodesLines (depth + 1) children)) :=
      readings_surrounded (p := ['\n']) (by decide) (less_not_mem_blanks (2 * depth)) hchildren
    rw [laidOut_group, readings_surrounded (less_not_mem_blanks _) (by decide)
      (ht.element inner), readings_element hg ht inner, hinner,
      readings_nodesLines hg hspan (depth + 1) children hc hu, Node.readings]
  | .leaf tag => by
    intro ht _
    rw [Node.lines, readings_line ht.closed, readings_closed ht, Node.readings]
  | .line tag content => by
    intro ht _
    have hruns := content_runs hspan content
    have hline : Content named (tag.opening ++ runsText content ++ tag.closing).toList := by
      rw [String.toList_append, String.toList_append]
      exact ht.element hruns
    rw [Node.lines, readings_line hline, String.toList_append, String.toList_append,
      readings_element hg ht hruns, readings_runs hg hspan, Node.readings]
  | .verbatim markup => by
    intro h hu
    have hrelaid := h.relaid (List.not_mem_nil : '\n' ∉ []) (contentLines_verbatim depth markup)
    rw [Node.lines, Node.readings, readings, hrelaid.2.2 hu, readings]

theorem readings_nodesLines (hg : g [] = []) (hspan : named "tspan".toList) (depth : Nat) :
    ∀ ns : List Node, NodesFit named ns → NodesUnbroken ns →
    readings g (laidOut (nodesLines depth ns)) = nodesReadings g ns
  | [] => fun _ _ => rfl
  | n :: rest => by
    rintro ⟨hn, hr⟩ ⟨hun, hur⟩
    rw [nodesLines, laidOut_append, readings_append (content_lines hspan depth n hn),
      readings_lines hg hspan depth n hn hun, readings_nodesLines hg hspan depth rest hr hur,
      nodesReadings]

end

end

/-! ## Text -/

mutual

/-- The attributes that are read in the markup of a run. -/
def Run.attributes : Run → List (List Char × List Char)
  | .char _ => []
  | .shifted shift content => shift.tag.pairs ++ runsAttributes content

/-- The attributes that are read in the markup of a piece of text. -/
def runsAttributes : List Run → List (List Char × List Char)
  | [] => []
  | r :: rest => r.attributes ++ runsAttributes rest

end

mutual

theorem Run.readings_id : ∀ r : Run, r.readings id = r.attributes
  | .char _ => rfl
  | .shifted shift content => by
    rw [Run.readings, Run.attributes, runsReadings_id content]
    rfl

theorem runsReadings_id : ∀ rs : List Run, runsReadings id rs = runsAttributes rs
  | [] => rfl
  | r :: rest => by
    rw [runsReadings, runsAttributes, r.readings_id, runsReadings_id rest]

end

theorem allAttributes_runs {named : List Char → Prop} (hspan : named "tspan".toList)
    (rs : List Run) : allAttributes (runsText rs).toList = runsAttributes rs := by
  rw [← runsReadings_id]
  exact readings_runs (g := id) rfl hspan rs

/-- The attributes of shifts in text, of which no one has a choice. -/
def shiftAttributes : List (List Char × List Char) :=
  Shift.sub.tag.pairs ++ Shift.super.tag.pairs

mutual

theorem mem_shiftAttributes_run : ∀ r : Run, ∀ a ∈ r.attributes, a ∈ shiftAttributes
  | .char _ => fun _ ha => absurd ha List.not_mem_nil
  | .shifted shift inner => by
    intro a ha
    rcases List.mem_append.1 ha with ha | ha
    · cases shift
      · exact List.mem_append_left _ ha
      · exact List.mem_append_right _ ha
    · exact mem_shiftAttributes_runs inner a ha

theorem mem_shiftAttributes_runs : ∀ rs : List Run, ∀ a ∈ runsAttributes rs, a ∈ shiftAttributes
  | [] => fun _ ha => absurd ha List.not_mem_nil
  | r :: rest => by
    intro a ha
    rcases List.mem_append.1 ha with ha | ha
    · exact mem_shiftAttributes_run r a ha
    · exact mem_shiftAttributes_runs rest a ha

end

/-! ## Trees -/

mutual

/-- The attributes that are read in the lines of a tree. -/
def Node.attributes : Node → List (List Char × List Char)
  | .group tag children => tag.pairs ++ nodesAttributes children
  | .leaf tag => tag.pairs
  | .line tag content => tag.pairs ++ runsAttributes content
  | .verbatim markup => allAttributes markup.toList

/-- The attributes that are read in the lines of a list of trees. -/
def nodesAttributes : List Node → List (List Char × List Char)
  | [] => []
  | n :: rest => n.attributes ++ nodesAttributes rest

end

theorem nodesAttributes_append (ns ms : List Node) :
    nodesAttributes (ns ++ ms) = nodesAttributes ns ++ nodesAttributes ms := by
  induction ns with
  | nil => rfl
  | cons n ns ih => rw [List.cons_append, nodesAttributes, nodesAttributes, ih, List.append_assoc]

theorem mem_nodesAttributes {ns : List Node} {a : List Char × List Char} :
    a ∈ nodesAttributes ns ↔ ∃ n ∈ ns, a ∈ n.attributes := by
  induction ns with
  | nil => simp [nodesAttributes]
  | cons n ns ih => simp [nodesAttributes, ih]

theorem nodesUnbroken_append {ns ms : List Node} :
    NodesUnbroken (ns ++ ms) ↔ NodesUnbroken ns ∧ NodesUnbroken ms := by
  induction ns with
  | nil => simp [NodesUnbroken]
  | cons n ns ih => simp only [List.cons_append, NodesUnbroken, ih, and_assoc]

mutual

theorem Node.readings_id : ∀ n : Node, n.readings id = n.attributes
  | .group tag children => by
    rw [Node.readings, Node.attributes, nodesReadings_id children]
    rfl
  | .leaf _ => rfl
  | .line tag content => by
    rw [Node.readings, Node.attributes, runsReadings_id]
    rfl
  | .verbatim _ => rfl

theorem nodesReadings_id : ∀ ns : List Node, nodesReadings id ns = nodesAttributes ns
  | [] => rfl
  | n :: rest => by
    rw [nodesReadings, nodesAttributes, n.readings_id, nodesReadings_id rest]

end

/-- The attributes in the lines of trees are those of their tags. -/
theorem allAttributes_nodesLines {named : List Char → Prop} (hspan : named "tspan".toList)
    (depth : Nat) (ns : List Node) (h : NodesFit named ns) (hu : NodesUnbroken ns) :
    allAttributes (laidOut (nodesLines depth ns)) = nodesAttributes ns := by
  rw [← nodesReadings_id]
  exact readings_nodesLines (g := id) rfl hspan depth ns h hu

mutual

/-- A tree without finished markup, of which all tags have attributes that satisfy `P`. -/
def Node.All (P : String × String → Prop) : Node → Prop
  | .group tag children => (∀ a ∈ tag.attributes, P a) ∧ NodesAll P children
  | .leaf tag => ∀ a ∈ tag.attributes, P a
  | .line tag _ => ∀ a ∈ tag.attributes, P a
  | .verbatim _ => False

/-- Trees without finished markup, of which all tags have attributes that satisfy `P`. -/
def NodesAll (P : String × String → Prop) : List Node → Prop
  | [] => True
  | n :: rest => n.All P ∧ NodesAll P rest

end

/-- An attribute that is read: of a tag, escaped, or of a shift in text. -/
def ReadOf (P : String × String → Prop) (a : List Char × List Char) : Prop :=
  (∃ b, P b ∧ a = (b.1.toList, (escapeValue b.2).toList)) ∨ a ∈ shiftAttributes

theorem nodesAll_iff {P : String × String → Prop} {ns : List Node} :
    NodesAll P ns ↔ ∀ n ∈ ns, n.All P := by
  induction ns with
  | nil => simp [NodesAll]
  | cons n rest ih => simp [NodesAll, ih]

theorem nodesAll_append {P : String × String → Prop} {ns ms : List Node} :
    NodesAll P (ns ++ ms) ↔ NodesAll P ns ∧ NodesAll P ms := by
  simp only [nodesAll_iff, List.mem_append, or_imp, forall_and]

theorem Tag.readOf_of_mem_pairs {P : String × String → Prop} {t : Tag}
    (h : ∀ a ∈ t.attributes, P a) : ∀ a ∈ t.pairs, ReadOf P a := by
  intro a ha
  obtain ⟨b, hb, rfl⟩ := List.mem_map.1 ha
  exact .inl ⟨b, h b hb, rfl⟩

mutual

theorem Node.All.readOf {P : String × String → Prop} : ∀ {n : Node}, n.All P →
    n.Unbroken ∧ ∀ a ∈ n.attributes, ReadOf P a
  | .group tag children => by
    rintro ⟨ht, hc⟩
    obtain ⟨hu, hchildren⟩ := hc.readOf
    refine ⟨hu, fun a ha => ?_⟩
    rcases List.mem_append.1 ha with ha | ha
    · exact Tag.readOf_of_mem_pairs ht a ha
    · exact hchildren a ha
  | .leaf tag => fun ht => ⟨trivial, Tag.readOf_of_mem_pairs ht⟩
  | .line tag content => by
    intro ht
    refine ⟨trivial, fun a ha => ?_⟩
    rcases List.mem_append.1 ha with ha | ha
    · exact Tag.readOf_of_mem_pairs ht a ha
    · exact .inr (mem_shiftAttributes_runs content a ha)
  | .verbatim _ => False.elim

theorem NodesAll.readOf {P : String × String → Prop} : ∀ {ns : List Node}, NodesAll P ns →
    NodesUnbroken ns ∧ ∀ a ∈ nodesAttributes ns, ReadOf P a
  | [] => fun _ => ⟨trivial, fun _ ha => absurd ha List.not_mem_nil⟩
  | n :: rest => by
    rintro ⟨hn, hr⟩
    refine ⟨⟨hn.readOf.1, hr.readOf.1⟩, fun a ha => ?_⟩
    rcases List.mem_append.1 ha with ha | ha
    · exact hn.readOf.2 a ha
    · exact hr.readOf.2 a ha

end

/-! ## Contents of a class -/

/-- The lines of trees, whatever their indentation. -/
def flow (ns : List Node) : List (List Char) := contentLines (nodesText ns).toList

mutual

theorem flatMap_contentLines_lines (depth : Nat) : ∀ n : Node,
    (n.lines depth).flatMap (fun l => contentLines l.toList) =
      (n.lines 0).flatMap (fun l => contentLines l.toList)
  | .group tag children => by
    have hchildren := flatMap_contentLines_nodesLines (depth + 1) children
    have hchildren' := flatMap_contentLines_nodesLines (0 + 1) children
    simp only [Node.lines, List.flatMap_append, List.flatMap_cons, contentLines_indented,
      hchildren, hchildren']
  | .leaf tag => by
    simp only [Node.lines, List.flatMap_cons, contentLines_indented]
  | .line tag content => by
    simp only [Node.lines, List.flatMap_cons, contentLines_indented]
  | .verbatim markup => by
    simp only [Node.lines, List.flatMap_map, contentLines_indented]

theorem flatMap_contentLines_nodesLines (depth : Nat) : ∀ ns : List Node,
    (nodesLines depth ns).flatMap (fun l => contentLines l.toList) =
      (nodesLines 0 ns).flatMap (fun l => contentLines l.toList)
  | [] => rfl
  | n :: rest => by
    rw [nodesLines, nodesLines, List.flatMap_append, List.flatMap_append,
      flatMap_contentLines_lines depth n, flatMap_contentLines_nodesLines depth rest]

end

theorem contentLines_nodesLines (depth : Nat) (ns : List Node) :
    contentLines (laidOut (nodesLines depth ns)) = flow ns := by
  rw [flow, toList_nodesText, contentLines_laidOut, contentLines_laidOut,
    flatMap_contentLines_nodesLines]

theorem flow_group (tag : Tag) (children : List Node) : flow [.group tag children] =
    contentLines tag.opening.toList ++ flow children ++ contentLines tag.closing.toList := by
  rw [flow, toList_nodesText, nodesLines, nodesLines, List.append_nil, contentLines_laidOut,
    Node.lines, List.flatMap_append, List.flatMap_cons, ← contentLines_laidOut,
    contentLines_nodesLines, List.flatMap_singleton]
  simp only [contentLines_indented]

theorem flow_verbatim (markup : String) :
    flow [.verbatim markup] = contentLines markup.toList := by
  rw [flow, toList_nodesText, nodesLines, nodesLines, List.append_nil, Node.lines,
    contentLines_verbatim]

mutual

/-- The lines of what is read as the contents of the elements of a class in a tree. -/
def Node.contents (cls : List Char) : Node → List (List (List Char))
  | .group tag children =>
    (if ("class".toList, cls) ∈ tag.pairs then [flow children] else []) ++
      nodesContents cls children
  | .leaf tag => if ("class".toList, cls) ∈ tag.pairs then [[]] else []
  | .line tag content =>
    if ("class".toList, cls) ∈ tag.pairs then [contentLines (runsText content).toList] else []
  | .verbatim markup => (classContents cls markup.toList).map contentLines

/-- The lines of what is read as the contents of the elements of a class in a list of trees. -/
def nodesContents (cls : List Char) : List Node → List (List (List Char))
  | [] => []
  | n :: rest => n.contents cls ++ nodesContents cls rest

end

theorem nodesContents_append (cls : List Char) (ns ms : List Node) :
    nodesContents cls (ns ++ ms) = nodesContents cls ns ++ nodesContents cls ms := by
  induction ns with
  | nil => rfl
  | cons n ns ih => rw [List.cons_append, nodesContents, nodesContents, ih, List.append_assoc]

/-- Without an entity in it, an escaped value is the value. -/
theorem eq_of_escapeValue {v w : String} (hw : '&' ∉ w.toList) (h : escapeValue v = w) :
    v = w := by
  rw [← String.toList_inj, ← decode_escapeValue, h, decode_of_not_mem hw]

theorem Tag.not_hasClass {P : String × String → Prop} {cls : String} (hcls : '&' ∉ cls.toList)
    (hP : ∀ v, P ("class", v) → v ≠ cls) {t : Tag} (h : ∀ a ∈ t.attributes, P a) :
    ("class".toList, cls.toList) ∉ t.pairs := by
  intro hmem
  obtain ⟨⟨key, v⟩, ha, heq⟩ := List.mem_map.1 hmem
  obtain ⟨hkey, hv⟩ := Prod.mk.inj heq
  obtain rfl := String.toList_inj.1 hkey
  exact hP v (h _ ha) (eq_of_escapeValue hcls (String.toList_inj.1 hv))

section

variable {P : String × String → Prop} {cls : String}

mutual

/-- Trees without an attribute that gives the class have no contents of it. -/
theorem Node.All.contents_eq_nil (hcls : '&' ∉ cls.toList) (hP : ∀ v, P ("class", v) → v ≠ cls) :
    ∀ {n : Node}, n.All P → n.contents cls.toList = []
  | .group tag children => by
    rintro ⟨ht, hc⟩
    rw [Node.contents, if_neg (Tag.not_hasClass hcls hP ht), hc.contents_eq_nil hcls hP]
    rfl
  | .leaf tag => by
    intro ht
    rw [Node.contents, if_neg (Tag.not_hasClass hcls hP ht)]
  | .line tag content => by
    intro ht
    rw [Node.contents, if_neg (Tag.not_hasClass hcls hP ht)]
  | .verbatim _ => False.elim

theorem NodesAll.contents_eq_nil (hcls : '&' ∉ cls.toList) (hP : ∀ v, P ("class", v) → v ≠ cls) :
    ∀ {ns : List Node}, NodesAll P ns → nodesContents cls.toList ns = []
  | [] => fun _ => rfl
  | n :: rest => by
    rintro ⟨hn, hr⟩
    rw [nodesContents, hn.contents_eq_nil hcls hP, hr.contents_eq_nil hcls hP]
    rfl

end

end

section

variable {named : List Char → Prop} {cls : List Char}

theorem classContents_surrounded {p s q : List Char} (hp : '<' ∉ p) (hq : '<' ∉ q)
    (h : Content named s) : classContents cls (p ++ s ++ q) = classContents cls s := by
  have hend : classContents cls q = [] := by
    rw [← List.append_nil q, classContents_append_of_not_mem hq]
    rfl
  rw [List.append_assoc, classContents_append_of_not_mem hp, h.classContents_append, hend,
    List.append_nil]

theorem classContents_line {depth : Nat} {s : String} (h : Content named s.toList) :
    classContents cls (laidOut [indented depth s]) = classContents cls s.toList := by
  rw [laidOut_cons, toList_indented]
  exact classContents_surrounded (less_not_mem_blanks _) (by decide) h

/-- Shifts in text have no class. -/
theorem classContents_runs (hspan : named "tspan".toList) (rs : List Run) :
    classContents cls (runsText rs).toList = [] := by
  refine classContents_eq_nil_of_attributes fun hmem => ?_
  rw [allAttributes_runs hspan] at hmem
  have hkey : "class".toList ∈ shiftAttributes.map Prod.fst :=
    List.mem_map_of_mem (mem_shiftAttributes_runs rs _ hmem)
  exact absurd hkey (by decide)

mutual

/-- What is read as the contents of a class in the lines of a tree. -/
theorem classContents_lines (hspan : named "tspan".toList) (hcls : '\n' ∉ cls) (depth : Nat) :
    ∀ n : Node, n.Fits named →
    (classContents cls (laidOut (n.lines depth))).map contentLines = n.contents cls
  | .group tag children => by
    rintro ⟨ht, hc⟩
    have hchildren := content_nodesLines hspan (depth + 1) children hc
    have inner : Content named ('\n' :: laidOut (nodesLines (depth + 1) children) ++
        List.replicate (2 * depth) ' ') :=
      content_newline.append (hchildren.append (content_blanks (2 * depth)))
    have hcontents : classContents cls ('\n' :: laidOut (nodesLines (depth + 1) children) ++
        List.replicate (2 * depth) ' ') =
          classContents cls (laidOut (nodesLines (depth + 1) children)) :=
      classContents_surrounded (p := ['\n']) (by decide) (less_not_mem_blanks (2 * depth)) hchildren
    have hlines : contentLines ('\n' :: laidOut (nodesLines (depth + 1) children) ++
        List.replicate (2 * depth) ' ') = flow children := by
      rw [Text.contentLines_append_blank fun c hc => List.eq_of_mem_replicate hc ▸ rfl,
        ← contentLines_nodesLines (depth + 1)]
      exact Text.contentLines_append [] _
    rw [laidOut_group, classContents_surrounded (less_not_mem_blanks _) (by decide)
      (ht.element inner), classContents_tree ht inner, hcontents, List.map_append,
      classContents_nodesLines hspan hcls (depth + 1) children hc, Node.contents]
    split
    · rw [List.map_singleton, hlines]
    · rfl
  | .leaf tag => by
    intro ht
    rw [Node.lines, classContents_line ht.closed, classContents_leaf ht, Node.contents]
    split <;> rfl
  | .line tag content => by
    intro ht
    have hruns := content_runs hspan content
    have hline : Content named (tag.opening ++ runsText content ++ tag.closing).toList := by
      rw [String.toList_append, String.toList_append]
      exact ht.element hruns
    rw [Node.lines, classContents_line hline, String.toList_append, String.toList_append,
      classContents_tree ht hruns, classContents_runs hspan, List.append_nil, Node.contents]
    split <;> rfl
  | .verbatim markup => by
    intro h
    exact (h.relaid hcls (contentLines_verbatim depth markup)).2.1

theorem classContents_nodesLines (hspan : named "tspan".toList) (hcls : '\n' ∉ cls)
    (depth : Nat) : ∀ ns : List Node, NodesFit named ns →
    (classContents cls (laidOut (nodesLines depth ns))).map contentLines = nodesContents cls ns
  | [] => fun _ => rfl
  | n :: rest => by
    rintro ⟨hn, hr⟩
    rw [nodesLines, laidOut_append, (content_lines hspan depth n hn).classContents_append,
      List.map_append, classContents_lines hspan hcls depth n hn,
      classContents_nodesLines hspan hcls depth rest hr,
      nodesContents]

end

/-- Markup with the lines of trees is content, and is read like them. -/
theorem NodesFit.relaid (hspan : named "tspan".toList) (hcls : '\n' ∉ cls) {ns : List Node}
    (h : NodesFit named ns) {t : List Char} (ht : contentLines t = flow ns) :
    Content named t ∧ (classContents cls t).map contentLines = nodesContents cls ns := by
  have hcontent := content_nodesLines hspan 0 ns h
  rw [flow, toList_nodesText] at ht
  have hrelaid := hcontent.relaid hcls ht
  exact ⟨hrelaid.1, hrelaid.2.1.trans (classContents_nodesLines hspan hcls 0 ns h)⟩

/-- Markup with the lines of trees has their attributes, if these stay on their lines. -/
theorem NodesFit.attributes_relaid (hspan : named "tspan".toList) {ns : List Node}
    (h : NodesFit named ns) (hu : NodesUnbroken ns) (hline : ∀ a ∈ nodesAttributes ns, '\n' ∉ a.2)
    {t : List Char} (ht : contentLines t = flow ns) : allAttributes t = nodesAttributes ns := by
  have hcontent := content_nodesLines hspan 0 ns h
  have hattributes := allAttributes_nodesLines hspan 0 ns h hu
  rw [flow, toList_nodesText] at ht
  have htags := (hcontent.relaid List.not_mem_nil ht).2.2
    (hcontent.tags_unbroken (hattributes ▸ hline))
  rw [allAttributes, htags, ← allAttributes, hattributes]

/-- A root, too, is content, for whatever its own name is. -/
theorem content_root {name : String} {tag : Tag} {children : List Node} {inner : List Char}
    (h : (Node.group tag children).IsRoot named name) (hinner : Content named inner) :
    Content (fun _ => True) (tag.opening.toList ++ inner ++ tag.closing.toList) :=
  Tag.Fits.element ⟨trivial, h.1.2⟩ (hinner.imp fun _ _ => trivial)

/-- What is read as the contents of a class in a document whose root has another class. -/
theorem classContents_text (hspan : named "tspan".toList) (hcls : '\n' ∉ cls) {name : String}
    {tag : Tag} {children : List Node} (h : (Node.group tag children).IsRoot named name)
    (hclass : ("class".toList, cls) ∉ tag.pairs) :
    (classContents cls (Node.group tag children).text.toList).map contentLines =
      nodesContents cls children := by
  have hchildren := content_nodesLines hspan 1 children h.2
  have hinner : Content named ('\n' :: laidOut (nodesLines 1 children)) :=
    content_newline.append hchildren
  have hroot : classContents cls (tag.opening.toList ++ ('\n' :: laidOut (nodesLines 1 children)) ++
      tag.closing.toList ++ ['\n']) = classContents cls (tag.opening.toList ++
        ('\n' :: laidOut (nodesLines 1 children)) ++ tag.closing.toList) :=
    classContents_surrounded (p := []) (by decide) (by decide) (content_root h hinner)
  have hlines : classContents cls ('\n' :: laidOut (nodesLines 1 children)) =
      classContents cls (laidOut (nodesLines 1 children)) :=
    classContents_append_of_not_mem (t := ['\n']) (by decide) _
  rw [text_group, hroot, classContents_tree h.1 hinner, if_neg hclass, List.nil_append, hlines,
    classContents_nodesLines hspan hcls 1 children h.2]

/-- What is read in a document. -/
theorem readings_text {β : Type} {g : List (List Char × List Char) → List β} (hg : g [] = [])
    (hspan : named "tspan".toList) {name : String} {tag : Tag} {children : List Node}
    (h : (Node.group tag children).IsRoot named name) (hu : NodesUnbroken children) :
    readings g (Node.group tag children).text.toList =
      g tag.pairs ++ nodesReadings g children := by
  have hchildren := content_nodesLines hspan 1 children h.2
  have hinner : Content named ('\n' :: laidOut (nodesLines 1 children)) :=
    content_newline.append hchildren
  have hroot : readings g (tag.opening.toList ++ ('\n' :: laidOut (nodesLines 1 children)) ++
      tag.closing.toList ++ ['\n']) = readings g (tag.opening.toList ++
        ('\n' :: laidOut (nodesLines 1 children)) ++ tag.closing.toList) :=
    readings_surrounded (p := []) (by decide) (by decide) (content_root h hinner)
  have hlines : readings g ('\n' :: laidOut (nodesLines 1 children)) =
      readings g (laidOut (nodesLines 1 children)) := by
    rw [← List.singleton_append, readings, tags_append_of_not_mem (by decide), readings]
  rw [text_group, hroot, readings_element hg h.1 hinner, hlines,
    readings_nodesLines hg hspan 1 children h.2 hu]

/-- The attributes that are read in a document. -/
theorem allAttributes_text (hspan : named "tspan".toList) {name : String} {tag : Tag}
    {children : List Node} (h : (Node.group tag children).IsRoot named name)
    (hu : NodesUnbroken children) :
    allAttributes (Node.group tag children).text.toList =
      tag.pairs ++ nodesAttributes children := by
  rw [← nodesReadings_id]
  exact readings_text (g := id) rfl hspan h hu

end

end FreeBody.Markup
