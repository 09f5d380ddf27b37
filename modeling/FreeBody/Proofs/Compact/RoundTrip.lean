import FreeBody.Compact.Reader
import FreeBody.Proofs.Compact.Sections

/-!
# Reading what was written

Reading undoes writing on every diagram that the custom form can express, whatever the diagram was
made by (`read_write`).  The sections are found again because no element has a bar in it and none
begins or ends with a blank.
-/

namespace FreeBody

open Text (Stops)

namespace Compact

/-! ## Texts of elements -/

/-- A text that keeps its shape between blanks and bars. -/
structure IsElementText (s : String) : Prop where
  ne_nil : s.toList ≠ []
  trimmed : Text.trim s.toList = s.toList
  bar : '|' ∉ s.toList

theorem toNat_of_isIdentChar {c : Char} (h : isIdentChar c = true) :
    48 ≤ c.toNat ∧ c.toNat ≤ 122 := by
  unfold isIdentChar Markup.isAsciiDigit Markup.isAsciiLetter at h
  simp only [Bool.or_eq_true, Bool.and_eq_true, decide_eq_true_eq, beq_iff_eq, Char.le_def,
    UInt32.le_iff_toNat_le] at h
  rcases h with (h | h | h) | rfl
  · exact ⟨h.1, Nat.le_trans h.2 (by decide)⟩
  · exact ⟨Nat.le_trans (by decide) h.1, h.2⟩
  · exact ⟨Nat.le_trans (by decide) h.1, Nat.le_trans h.2 (by decide)⟩
  · decide

theorem isBlank_of_isIdentChar {c : Char} (h : isIdentChar c = true) :
    Text.isBlank c = false := by
  obtain ⟨h1, h2⟩ := toNat_of_isIdentChar h
  exact Text.isBlank_of_printed (by omega) (by omega)

theorem IsWord.stops_isBlank {w : String} (hw : IsWord w) (rest : List Char) :
    Stops Text.isBlank (w.toList ++ rest) := by
  obtain ⟨c, cs, h⟩ := List.exists_cons_of_ne_nil hw.ne_nil
  rw [h]
  exact Text.stops_cons_iff.2
    (isBlank_of_isIdentChar (hw.ident c (h ▸ List.mem_cons_self)))

theorem IsWord.bar_not_mem {w : String} (hw : IsWord w) : '|' ∉ w.toList := by
  intro h
  exact absurd (hw.ident _ h) (by decide)

theorem bar_not_mem_plain (x : Float) : '|' ∉ (Decimal.plain x).toList := by
  rcases hx : x.isFinite with _ | _
  · rcases Decimal.plain_of_not_finite hx with h | h | h <;> rw [h] <;> decide
  · obtain ⟨negative, mantissa, exponent, hparts⟩ := Decimal.isFinite_iff.1 hx
    obtain ⟨whole, places, -, hw, hp, htext, -⟩ := Decimal.plain_eq_numeral hparts
    have hdigits {s : List Char} (h : ∀ c ∈ s, Decimal.isDigit c = true) : '|' ∉ s :=
      fun hmem => absurd (h _ hmem) (by decide)
    rw [htext, List.mem_append, List.mem_append, not_or, not_or]
    refine ⟨by cases negative <;> decide, hdigits hw, ?_⟩
    unfold Decimal.point
    split_ifs
    · exact List.not_mem_nil
    · rw [List.mem_cons, not_or]
      exact ⟨by decide, hdigits hp⟩

theorem IsLabel.bar_not_mem {l : String} (hl : IsLabel l) : '|' ∉ l.toList :=
  fun h => (hl.inner _ h).2.2 rfl

theorem trim_call {name : String} (h : ∀ rest, Stops Text.isBlank (name.toList ++ rest))
    (parts : List String) :
    Text.trim (call name parts).toList = (call name parts).toList := by
  apply Text.trim_eq_self_of_stops
  · unfold call
    rw [String.toList_append, String.toList_append, String.toList_append, List.append_assoc,
      List.append_assoc]
    exact h _
  · unfold call
    rw [String.toList_append, List.reverse_append]
    exact Text.stops_cons_iff.2 (by decide)

theorem bar_not_mem_optionalText {part : Option String} (h : ∀ s ∈ part, '|' ∉ s.toList) :
    '|' ∉ optionalText part := by
  cases part with
  | none => exact List.not_mem_nil
  | some s =>
    show '|' ∉ ',' :: s.toList
    rw [List.mem_cons, not_or]
    exact ⟨by decide, h s rfl⟩

theorem isElementText_writePoint {p : Point} (he : p.Expressible) :
    IsElementText (writePoint p) where
  ne_nil := call_ne_nil _ _
  trimmed := trim_call he.id.stops_isBlank _
  bar := by
    have htext := toList_writePoint p []
    have hlabel := bar_not_mem_optionalText fun l hl => (he.label l hl).2.bar_not_mem
    rw [List.append_nil] at htext
    rw [htext]
    simp [he.id.bar_not_mem, bar_not_mem_plain, hlabel]

theorem isElementText_writeForce {f : Force} (he : f.Expressible) :
    IsElementText (writeForce f) where
  ne_nil := call_ne_nil _ _
  trimmed := by
    refine trim_call (fun rest => ?_) _
    rw [String.toList_append, String.toList_append, List.append_assoc, List.append_assoc]
    exact he.id.stops_isBlank _
  bar := by
    have htext := toList_writeForce f []
    have hkind : '|' ∉ optionalText (f.kind.map Keyword.word) :=
      bar_not_mem_optionalText fun s hs => by
        obtain ⟨k, -, rfl⟩ := Option.map_eq_some_iff.1 hs
        exact (isWord_word k).bar_not_mem
    rw [List.append_nil] at htext
    rw [htext]
    simp [he.id.bar_not_mem, he.point.bar_not_mem, bar_not_mem_plain, he.label.bar_not_mem, hkind]

theorem isElementText_option {key : String} (hk : IsWord key) (on : Bool) :
    IsElementText (key ++ "=" ++ onText on) where
  ne_nil := by
    rw [String.toList_append, String.toList_append, List.append_assoc]
    exact List.append_ne_nil_of_left_ne_nil hk.ne_nil _
  trimmed := by
    apply Text.trim_eq_self_of_stops
    · rw [String.toList_append, String.toList_append, List.append_assoc]
      exact hk.stops_isBlank _
    · rw [String.toList_append, List.reverse_append]
      cases on <;> exact Text.stops_cons_iff.2 (by decide)
  bar := by
    simp [hk.bar_not_mem, (isWord_onText on).bar_not_mem]

/-! ## Joined texts -/

section

variable {texts : List String}

theorem joined_cons_cons (first second : String) (others : List String) :
    joined (first :: second :: others) = first.toList ++ ' ' :: joined (second :: others) := by
  unfold joined
  rw [List.map_cons, List.map_cons, List.intercalate_cons_cons, List.append_assoc]
  rfl

theorem joined_singleton (text : String) : joined [text] = text.toList :=
  List.intercalate_singleton

theorem exists_joined_cons (first : String) (others : List String) :
    ∃ rest, joined (first :: others) = first.toList ++ rest := by
  rcases others with _ | ⟨second, others⟩
  · exact ⟨[], by rw [joined_singleton, List.append_nil]⟩
  · exact ⟨_, joined_cons_cons first second others⟩

theorem joined_ne_nil (h : ∀ t ∈ texts, IsElementText t) (hne : texts ≠ []) :
    joined texts ≠ [] := by
  rcases texts with _ | ⟨first, _ | ⟨second, others⟩⟩
  · exact absurd rfl hne
  · rw [joined_singleton]
    exact (h first List.mem_cons_self).ne_nil
  · rw [joined_cons_cons]
    exact List.append_ne_nil_of_left_ne_nil (h first List.mem_cons_self).ne_nil _

theorem bar_not_mem_joined (h : ∀ t ∈ texts, IsElementText t) : '|' ∉ joined texts := by
  induction texts with
  | nil => exact List.not_mem_nil
  | cons first others ih =>
    have hfirst := (h first List.mem_cons_self).bar
    cases others with
    | nil =>
      rw [joined_singleton]
      exact hfirst
    | cons second others =>
      have hrest := ih fun t ht => h t (List.mem_cons_of_mem first ht)
      rw [joined_cons_cons, List.mem_append, List.mem_cons, not_or, not_or]
      exact ⟨hfirst, by decide, hrest⟩

/-- Texts without blanks at their ends have none when they are joined. -/
theorem trim_joined (h : ∀ t ∈ texts, IsElementText t) :
    Text.trim (joined texts) = joined texts := by
  induction texts with
  | nil => rfl
  | cons first others ih =>
    have hfirst := h first List.mem_cons_self
    cases others with
    | nil =>
      rw [joined_singleton]
      exact hfirst.trimmed
    | cons second others =>
      have hother : ∀ t ∈ second :: others, IsElementText t :=
        fun t ht => h t (List.mem_cons_of_mem first ht)
      rw [joined_cons_cons]
      exact Text.trim_append_append hfirst.trimmed (ih hother) hfirst.ne_nil
        (joined_ne_nil hother (List.cons_ne_nil _ _)) [' ']

end

/-! ## Sections -/

section

variable {a b c : List Char}

theorem isBlank_of_mem : ∀ c ∈ [' '], Text.isBlank c = true :=
  List.forall_mem_singleton.2 (by decide)

theorem trim_before (h : Text.trim a = a) : Text.trim (a ++ [' ']) = a :=
  Text.trim_surround (List.forall_mem_nil _) isBlank_of_mem h

theorem trim_behind (h : Text.trim a = a) : Text.trim (' ' :: a) = a := by
  have := Text.trim_surround isBlank_of_mem (List.forall_mem_nil _) h
  rwa [List.append_nil] at this

theorem trim_between (h : Text.trim a = a) : Text.trim (' ' :: (a ++ [' '])) = a :=
  Text.trim_surround isBlank_of_mem isBlank_of_mem h

theorem pieces_bar (ha : '|' ∉ a) (rest : List Char) :
    Text.pieces '|' (a ++ ' ' :: '|' :: rest) = (a ++ [' ']) :: Text.pieces '|' rest := by
  rw [show a ++ ' ' :: '|' :: rest = (a ++ [' ']) ++ '|' :: rest by simp]
  exact Text.pieces_append_cons (by simp [ha])

theorem sections_two (ha : '|' ∉ a) (hb : '|' ∉ b) (hta : Text.trim a = a)
    (htb : Text.trim b = b) : sections (a ++ ' ' :: '|' :: ' ' :: b) = (a, b, []) := by
  unfold sections
  rw [pieces_bar ha, Text.pieces_of_not_mem (by simp [hb] : '|' ∉ ' ' :: b)]
  simp only [List.map_cons, List.map_nil, trim_before hta, trim_behind htb]
  rfl

theorem sections_three (ha : '|' ∉ a) (hb : '|' ∉ b) (hc : '|' ∉ c)
    (hta : Text.trim a = a) (htb : Text.trim b = b) (htc : Text.trim c = c) :
    sections (a ++ ' ' :: '|' :: ' ' :: (b ++ ' ' :: '|' :: ' ' :: c)) = (a, b, c) := by
  unfold sections
  rw [pieces_bar ha, ← List.cons_append, pieces_bar (by simp [hb] : '|' ∉ ' ' :: b),
    Text.pieces_of_not_mem (by simp [hc] : '|' ∉ ' ' :: c)]
  simp only [List.map_cons, List.map_nil, trim_before hta, trim_behind htc, List.cons_append,
    trim_between htb]
  rfl

end

theorem isElementText_of_mem_points {ps : List Point} (h : ∀ p ∈ ps, p.Expressible) :
    ∀ t ∈ ps.map writePoint, IsElementText t := by
  intro t ht
  obtain ⟨p, hmem, rfl⟩ := List.mem_map.1 ht
  exact isElementText_writePoint (h p hmem)

theorem isElementText_of_mem_forces {fs : List Force} (h : ∀ f ∈ fs, f.Expressible) :
    ∀ t ∈ fs.map writeForce, IsElementText t := by
  intro t ht
  obtain ⟨f, hmem, rfl⟩ := List.mem_map.1 ht
  exact isElementText_writeForce (h f hmem)

theorem isEmpty_intercalate {texts : List String} (h : ∀ t ∈ texts, IsElementText t) :
    (String.intercalate " " texts).isEmpty = texts.isEmpty := by
  rw [Bool.eq_iff_iff, String.isEmpty_iff, List.isEmpty_iff, ← String.toList_eq_nil_iff,
    toList_intercalate_blank]
  constructor
  · intro hnil
    by_contra hne
    exact joined_ne_nil h hne hnil
  · rintro rfl
    rfl

theorem isElementText_of_mem_optionTexts (axes grid angles : Option Bool) :
    ∀ t ∈ optionTexts axes grid angles, IsElementText t := by
  intro t ht
  rw [optionTexts_eq] at ht
  obtain ⟨o, ho, rfl⟩ := List.mem_map.1 ht
  exact isElementText_option (isWord_of_mem_settings o ho) o.2

/-- What is written for a diagram with points and with an option set. -/
theorem toList_write {d : Diagram} (hp : ∀ p ∈ d.points, p.Expressible)
    (hf : ∀ f ∈ d.forces, f.Expressible) (hpoints : d.points ≠ []) (haxes : d.showAxes ≠ none) :
    (write d).toList = joined (d.points.map writePoint) ++ ' ' :: '|' :: ' ' ::
      (if d.forces = [] then joined (optionTexts d.showAxes d.showGrid d.showAngles)
        else joined (d.forces.map writeForce) ++ ' ' :: '|' :: ' ' ::
          joined (optionTexts d.showAxes d.showGrid d.showAngles)) := by
  have hp' : (String.intercalate " " (d.points.map writePoint)).isEmpty = false := by
    rw [isEmpty_intercalate (isElementText_of_mem_points hp), List.isEmpty_eq_false_iff]
    simpa using hpoints
  have ho' : (String.intercalate " "
      (optionTexts d.showAxes d.showGrid d.showAngles)).isEmpty = false := by
    rw [isEmpty_intercalate (isElementText_of_mem_optionTexts _ _ _), List.isEmpty_eq_false_iff]
    obtain ⟨on, hon⟩ := Option.ne_none_iff_exists'.1 haxes
    rw [hon]
    exact List.cons_ne_nil _ _
  have hf' := isEmpty_intercalate (isElementText_of_mem_forces hf)
  show (String.intercalate " | " (List.filter (!·.isEmpty)
    [String.intercalate " " (d.points.map writePoint),
      String.intercalate " " (d.forces.map writeForce),
      String.intercalate " " (optionTexts d.showAxes d.showGrid d.showAngles)])).toList = _
  rw [← toList_intercalate_blank, ← toList_intercalate_blank, ← toList_intercalate_blank]
  generalize String.intercalate " " (d.points.map writePoint) = pointText at *
  generalize String.intercalate " " (optionTexts _ _ _) = optionText at *
  by_cases hforces : d.forces = []
  · have hempty : (String.intercalate " " (d.forces.map writeForce)).isEmpty = true := by
      rw [hf', hforces]
      rfl
    rw [if_pos hforces]
    simp [hp', ho', hempty]
  · have hempty : (String.intercalate " " (d.forces.map writeForce)).isEmpty = false := by
      rw [hf', List.isEmpty_eq_false_iff]
      simpa using hforces
    rw [if_neg hforces]
    generalize String.intercalate " " (d.forces.map writeForce) = forceText at *
    simp [hp', ho', hempty]

/-- The sections of a written diagram; without forces the options are in their place. -/
theorem sections_write {d : Diagram} (hp : ∀ p ∈ d.points, p.Expressible)
    (hf : ∀ f ∈ d.forces, f.Expressible) (hpoints : d.points ≠ []) (haxes : d.showAxes ≠ none) :
    sections (write d).toList =
      if d.forces = [] then
        (joined (d.points.map writePoint),
          joined (optionTexts d.showAxes d.showGrid d.showAngles), [])
      else
        (joined (d.points.map writePoint), joined (d.forces.map writeForce),
          joined (optionTexts d.showAxes d.showGrid d.showAngles)) := by
  have hp' := isElementText_of_mem_points hp
  have hf' := isElementText_of_mem_forces hf
  have ho' := isElementText_of_mem_optionTexts d.showAxes d.showGrid d.showAngles
  rw [toList_write hp hf hpoints haxes]
  split_ifs
  · exact sections_two (bar_not_mem_joined hp') (bar_not_mem_joined ho') (trim_joined hp')
      (trim_joined ho')
  · exact sections_three (bar_not_mem_joined hp') (bar_not_mem_joined hf')
      (bar_not_mem_joined ho') (trim_joined hp') (trim_joined hf') (trim_joined ho')

/-! ## Diagrams -/

/-- The diagram with the points and forces and flags that are given and nothing else. -/
def redrawn (id : String) (ps : List Point) (fs : List Force) (axes grid angles : Option Bool) :
    Diagram :=
  Builder.finish ⟨{ (Builder.ofSize id 600 400).diagram with
    points := ps, forces := fs, showAxes := axes, showGrid := grid, showAngles := angles }⟩
    (Diagram.gridEnds_of_ends ⟨Drawing.ends_usual.2.1, Drawing.ends_usual.1⟩)

/-- How a text is read whose sections are those that are written. -/
theorem readSections_of_sections {s : List Char} {ps : List Point} {forceText : List Char}
    {axes grid angles : Option Bool} (hp : ∀ p ∈ ps, p.Expressible ∧ p.Legible) (hne : ps ≠ [])
    (h : sections s =
      (joined (ps.map writePoint), forceText, joined (optionTexts axes grid angles)))
    (id : String) : readSections s id =
      .ok ⟨redrawn id ps (readForces forceText).1 (axes <|> some true) (grid <|> some false) angles,
        (readForces forceText).2⟩ := by
  unfold readSections redrawn
  simp only [h, readPoints_write hp, readOptions_write]
  rw [if_neg (by rwa [List.isEmpty_iff])]
  cases angles <;> simp [Builder.ofSize]

theorem readSections_write {d : Diagram} (hp : ∀ p ∈ d.points, p.Expressible ∧ p.Legible)
    (hf : ∀ f ∈ d.forces, f.Expressible ∧ f.Legible) (hpoints : d.points ≠ [])
    (hforces : d.forces ≠ []) (haxes : d.showAxes ≠ none) (hgrid : d.showGrid ≠ none)
    (id : String) : readSections (write d).toList id =
      .ok ⟨redrawn id d.points d.forces d.showAxes d.showGrid d.showAngles, []⟩ := by
  have hsections := sections_write (fun p h => (hp p h).1) (fun f h => (hf f h).1) hpoints haxes
  rw [if_neg hforces] at hsections
  obtain ⟨axes, haxes⟩ := Option.ne_none_iff_exists'.1 haxes
  obtain ⟨grid, hgrid⟩ := Option.ne_none_iff_exists'.1 hgrid
  rw [readSections_of_sections hp hpoints hsections, readForces_write hf, haxes, hgrid]
  rfl

theorem dropPrefix?_preset {w : String} (hw : IsWord w) (rest : List Char) :
    Text.dropPrefix? "PRESET:".toList (w.toList ++ '(' :: rest) = none := by
  have hpreset : IsWord "PRESET" := by decide
  rcases h : Text.dropPrefix? "PRESET:".toList (w.toList ++ '(' :: rest) with _ | more
  · rfl
  · -- the name ends at the parenthesis, the tag at the colon
    have htext := Text.dropPrefix?_eq_some_iff.1 h
    have htag : "PRESET:".toList ++ more = "PRESET".toList ++ ':' :: more := rfl
    have hname := ident?_append hw (by decide : isIdentChar '(' = false) rest
    rw [htext, htag, ident?_append hpreset (by decide : isIdentChar ':' = false) more] at hname
    exact absurd (List.cons.inj (Prod.mk.inj (Option.some.inj hname)).2).1 (by decide)

/-- What is written is never a preset call. -/
theorem read_eq_readSections (r : Registry) {d : Diagram} (hp : ∀ p ∈ d.points, p.Expressible)
    (hf : ∀ f ∈ d.forces, f.Expressible) (hpoints : d.points ≠ []) (haxes : d.showAxes ≠ none)
    (id : String) : read r (write d) id = readSections (write d).toList id := by
  have hp' := isElementText_of_mem_points hp
  have htext := toList_write hp hf hpoints haxes
  have hpne : joined (d.points.map writePoint) ≠ [] :=
    joined_ne_nil hp' (by simpa using hpoints)
  have hone : joined (optionTexts d.showAxes d.showGrid d.showAngles) ≠ [] := by
    refine joined_ne_nil (isElementText_of_mem_optionTexts _ _ _) ?_
    obtain ⟨on, hon⟩ := Option.ne_none_iff_exists'.1 haxes
    rw [hon]
    exact List.cons_ne_nil _ _
  have htrim : Text.trim (write d).toList = (write d).toList := by
    rw [htext]
    have hoption := trim_joined
      (isElementText_of_mem_optionTexts d.showAxes d.showGrid d.showAngles)
    split_ifs
    · exact Text.trim_append_append (trim_joined hp') hoption hpne hone [' ', '|', ' ']
    · have := Text.trim_append_append (trim_joined hp') hoption hpne hone
        (' ' :: '|' :: ' ' :: (joined (d.forces.map writeForce) ++ [' ', '|', ' ']))
      simpa using this
  have hempty : (write d).toList.isEmpty = false := by
    rw [List.isEmpty_eq_false_iff, htext]
    exact List.append_ne_nil_of_left_ne_nil hpne _
  obtain ⟨p, ps, hcons⟩ := List.exists_cons_of_ne_nil hpoints
  obtain ⟨more, hmore⟩ := exists_joined_cons (writePoint p) (ps.map writePoint)
  have hname : Text.dropPrefix? "PRESET:".toList (write d).toList = none := by
    rw [htext, hcons, List.map_cons, hmore, List.append_assoc, toList_writePoint]
    exact dropPrefix?_preset (hp p (hcons ▸ List.mem_cons_self)).id _
  unfold read
  simp only [htrim, hempty, Bool.false_eq_true, if_false, hname]

/-- Reading undoes writing. -/
theorem read_write_eq (r : Registry) {d : Diagram}
    (hp : ∀ p ∈ d.points, p.Expressible ∧ p.Legible)
    (hf : ∀ f ∈ d.forces, f.Expressible ∧ f.Legible) (hpoints : d.points ≠ [])
    (hforces : d.forces ≠ []) (haxes : d.showAxes ≠ none) (hgrid : d.showGrid ≠ none)
    (id : String) : read r (write d) id =
      .ok ⟨redrawn id d.points d.forces d.showAxes d.showGrid d.showAngles, []⟩ := by
  rw [read_eq_readSections r (fun p h => (hp p h).1) (fun f h => (hf f h).1) hpoints haxes]
  exact readSections_write hp hf hpoints hforces haxes hgrid id

end Compact

/-! ## Expressible diagrams -/

/-- What the custom form can say of a diagram: at least one point and one force, all with names,
labels and numbers that have a place in the form, and the flags that are always written. -/
structure Diagram.Expressible (d : Diagram) : Prop where
  points_ne_nil : d.points ≠ []
  forces_ne_nil : d.forces ≠ []
  points : ∀ p ∈ d.points, p.Expressible ∧ p.Legible
  forces : ∀ f ∈ d.forces, f.Expressible ∧ f.Legible
  axes : d.showAxes ≠ none
  grid : d.showGrid ≠ none

namespace Compact

/-- Reading undoes writing: the points, the forces and the three flags come back, in order and
without a warning. -/
theorem read_write (r : Registry) {d : Diagram} (h : d.Expressible) (id : String) :
    ∃ p, read r (write d) id = .ok p ∧ p.warnings = [] ∧ p.diagram.points = d.points ∧
      p.diagram.forces = d.forces ∧ p.diagram.showAxes = d.showAxes ∧
      p.diagram.showGrid = d.showGrid ∧ p.diagram.showAngles = d.showAngles :=
  ⟨_, read_write_eq r h.points h.forces h.points_ne_nil h.forces_ne_nil h.axes h.grid id,
    rfl, rfl, rfl, rfl, rfl, rfl⟩

/-- A diagram with a label beyond ASCII, a point without one and the angles left open. -/
def hangingMass : Diagram where
  id := "mass"
  width := 300
  height := 200
  points := [⟨"P_1", -1.5, 0, some "θ (hook", .free⟩, ⟨"2", 0.1, 1e21, none, .free⟩]
  forces := [.plain "W" "2" 80 (-90) "m g" (some .weight), .plain "T" "P_1" 80 90 "T" none]
  showAxes := some false
  showGrid := some true

theorem read_write_hangingMass : hangingMass.Expressible ∧
    ∃ p, read Registry.builtin (write hangingMass) "again" = .ok p ∧ p.warnings = [] ∧
      p.diagram.points = hangingMass.points ∧ p.diagram.forces = hangingMass.forces ∧
      p.diagram.showAxes = some false ∧ p.diagram.showGrid = some true ∧
      p.diagram.showAngles = none := by
  have h : hangingMass.Expressible := {
    points_ne_nil := List.cons_ne_nil _ _
    forces_ne_nil := List.cons_ne_nil _ _
    points := by
      intro p hp
      simp only [hangingMass, List.mem_cons, List.not_mem_nil, or_false] at hp
      rcases hp with rfl | rfl
      · refine ⟨⟨by decide, ?_, rfl⟩, ⟨by decide, by decide⟩⟩
        rintro l ⟨⟩
        decide
      · refine ⟨⟨by decide, ?_, rfl⟩, ⟨by decide, by decide⟩⟩
        rintro l ⟨⟩
    forces := by
      intro f hf
      simp only [hangingMass, List.mem_cons, List.not_mem_nil, or_false] at hf
      rcases hf with rfl | rfl <;>
        exact ⟨⟨by decide, by decide, by decide, rfl, rfl⟩,
          ⟨by decide, by decide, by decide⟩⟩
    axes := Option.some_ne_none _
    grid := Option.some_ne_none _ }
  exact ⟨h, read_write Registry.builtin h "again"⟩

end Compact

end FreeBody
