import FreeBody.Proofs.Drawing.WellFormed
import FreeBody.Proofs.Markup.Coordinate
import FreeBody.Proofs.Markup.Reading

/-!
# The attributes of pictures

The root and the definitions of a picture have ids.  Every other attribute is neither an id nor a
class of a composition, and refers to none but those definitions: its value is harmless, unless it
was chosen by the style or the diagram (`Drawn`).  This is shown layer by layer
(`definitions_drawn`, `upper_drawn`).
-/

namespace FreeBody

open Markup (Node NodesAll nodesAll_iff nodesAll_append isNumeral coordinate corners
  not_mem_coordinate not_mem_corners)

/-! ## Values -/

/-- The colours of a palette. -/
def Palette.colors (p : Palette) : List String :=
  [p.weight, p.normal, p.friction, p.tension, p.applied, p.custom, p.component]

theorem Palette.color_mem (p : Palette) (k : ForceKind) : p.color k ∈ p.colors := by
  cases k <;> simp [Palette.color, Palette.colors]

/-- The colours of a style. -/
def Style.colors (s : Style) : List String :=
  [s.axesColor, s.gridColor, s.momentColor, s.pointColor, s.angleColor, s.bodyStroke] ++
    s.bodyFill.toList ++ s.palette.colors

/-- The strings of a diagram that are values of attributes in its picture. -/
def Diagram.values (d : Diagram) : List String :=
  d.backgroundColor.toList ++ d.points.map Point.id ++
    d.forces.flatMap (fun f => f.id :: f.color.toList) ++ d.moments.map Moment.id ++
    d.allBodies.flatMap (fun b => b.fill.toList ++ b.stroke.toList)

/-- The names of the definitions in the picture of a diagram, and the references to them. -/
def Diagram.names (d : Diagram) : List String :=
  [markerId d.id, gradientId d.id, reference (markerId d.id), reference (gradientId d.id)]

namespace Drawing

/-- The colours of the body gradient. -/
def gradientColors : List String := ["#F3F4F6", "#D1D5DB"]

/-- The values in a picture that are not made for it: colours, strings of the diagram, names. -/
def choices (style : Style) (d : Diagram) : List String :=
  gradientColors ++ style.colors ++ d.values ++ d.names

/-- A value that refers to nothing and stays on its line, also when it is escaped. -/
structure Harmless (v : String) : Prop where
  hash : '#' ∉ v.toList
  quote : '\'' ∉ v.toList
  newline : '\n' ∉ v.toList

theorem harmless_iff {v : String} :
    Harmless v ↔ '#' ∉ v.toList ∧ '\'' ∉ v.toList ∧ '\n' ∉ v.toList :=
  ⟨fun h => ⟨h.hash, h.quote, h.newline⟩, fun h => ⟨h.1, h.2.1, h.2.2⟩⟩

instance (v : String) : Decidable (Harmless v) := decidable_of_iff _ harmless_iff.symm

/-- What holds of every attribute between the definitions of a picture and its end. -/
structure Drawn (style : Style) (d : Diagram) (a : String × String) : Prop where
  cls : a.1 = "class" → a.2 ≠ "fbd-composed"
  id : a.1 ≠ "id"
  value : Harmless a.2 ∨ a.2 ∈ choices style d

variable {style : Style} {d : Diagram}

theorem drawn_iff {k v : String} : Drawn style d (k, v) ↔
    (k = "class" → v ≠ "fbd-composed") ∧ k ≠ "id" ∧
      (('#' ∉ v.toList ∧ '\'' ∉ v.toList ∧ '\n' ∉ v.toList) ∨ v ∈ choices style d) :=
  ⟨fun h => ⟨h.cls, h.id, h.value.imp_left harmless_iff.1⟩,
    fun h => ⟨h.1, h.2.1, h.2.2.imp_left harmless_iff.2⟩⟩

theorem style_choice {v : String} (h : v ∈ style.colors) : v ∈ choices style d := by
  simp [choices, h]

theorem diagram_choice {v : String} (h : v ∈ d.values) : v ∈ choices style d := by
  simp [choices, h]

theorem name_choice {v : String} (h : v ∈ d.names) : v ∈ choices style d := by
  simp [choices, h]

theorem force_choice (style : Style) {f : Force} (h : f ∈ d.forces) :
    style.forceColor f ∈ choices style d := by
  unfold Style.forceColor
  cases hcolor : f.color with
  | none => exact style_choice (List.mem_append_right _ (Palette.color_mem _ _))
  | some color =>
    refine diagram_choice ?_
    simp only [Diagram.values, List.mem_append, List.mem_flatMap]
    exact .inl (.inl (.inr ⟨f, h, by simp [hcolor]⟩))

theorem stroke_choice (style : Style) {b : Body} (h : b ∈ d.allBodies) :
    style.strokeOf b ∈ choices style d := by
  unfold Style.strokeOf
  cases hstroke : b.stroke with
  | none => exact style_choice (by simp [Style.colors])
  | some stroke =>
    refine diagram_choice ?_
    simp only [Diagram.values, List.mem_append, List.mem_flatMap]
    exact .inr ⟨b, h, by simp [hstroke]⟩

theorem fill_choice (style : Style) {b : Body} (h : b ∈ d.allBodies) :
    style.fillOf d.id b ∈ choices style d := by
  unfold Style.fillOf
  cases hfill : b.fill with
  | none =>
    cases hstyle : style.bodyFill with
    | none => exact name_choice (by simp [Diagram.names])
    | some fill => exact style_choice (by simp [Style.colors, hstyle])
  | some fill =>
    refine diagram_choice ?_
    simp only [Diagram.values, List.mem_append, List.mem_flatMap]
    exact .inr ⟨b, h, by simp [hfill]⟩

/-! ## Backdrop -/

theorem definitions_drawn : (definitions style d.id).All fun a =>
    a = ("id", markerId d.id) ∨ a = ("id", gradientId d.id) ∨ Drawn style d a := by
  have hcolors : ∀ v ∈ gradientColors, v ∈ choices style d := fun v hv => by simp [choices, hv]
  simp only [gradientColors, List.forall_mem_cons] at hcolors
  simp (disch := decide) [definitions, Node.All, NodesAll, drawn_iff, not_mem_coordinate,
    not_mem_corners, hcolors]

theorem background_drawn : (background d).All (Drawn style d) := by
  have hcolor : ('#' ∉ (d.backgroundColor.getD "transparent").toList ∧
      '\'' ∉ (d.backgroundColor.getD "transparent").toList ∧
      '\n' ∉ (d.backgroundColor.getD "transparent").toList) ∨
      d.backgroundColor.getD "transparent" ∈ choices style d := by
    cases h : d.backgroundColor with
    | none => exact .inl ⟨by decide, by decide, by decide⟩
    | some color => exact .inr (diagram_choice (by simp [Diagram.values, h]))
  simp (disch := decide) [background, Node.All, drawn_iff, not_mem_coordinate, hcolor]

/-- The characters of paths that are no numerals. -/
def pathMarks : List Char := ['M', 'L', 'A', ',', ' ']

/-- Whatever a loop hands back is one of its lines, or was drawn before. -/
theorem Ruling.exists_of_mem_draw {r : Ruling} {x : Float} {drawn lines : List String}
    (h : r.draw x drawn = some lines) : ∀ s ∈ lines, s ∈ drawn ∨ ∃ x, s = r.line x := by
  refine draw.partial_correctness r
    (fun _ drawn lines => ∀ s ∈ lines, s ∈ drawn ∨ ∃ x, s = r.line x) ?_ x drawn lines h
  intro loop ih x drawn lines hstep s hs
  split at hstep
  · rcases ih _ _ _ hstep s hs with hdrawn | hline
    · exact (List.mem_cons.1 hdrawn).symm.imp_right fun heq => ⟨x, heq⟩
    · exact .inr hline
  · cases hstep
    exact .inl (List.mem_reverse.1 hs)

theorem exists_of_mem_gridLines {line : Float → String} {step bound : Float} {lines : List String}
    (h : gridLines line step bound = some lines) {s : String} (hs : s ∈ lines) :
    ∃ x, s = line x :=
  (Ruling.exists_of_mem_draw h s hs).resolve_left List.not_mem_nil

/-- The path of a grid is made of lines down and lines across. -/
theorem exists_of_gridPath {step width height : Float} {path : String}
    (h : gridPath step width height = some path) :
    ∃ lines, path = String.intercalate " " lines ∧
      ∀ s ∈ lines, (∃ x, s = downLine height x) ∨ ∃ y, s = acrossLine width y := by
  obtain ⟨down, hdown, h⟩ := Option.bind_eq_some_iff.1 h
  obtain ⟨across, hacross, h⟩ := Option.bind_eq_some_iff.1 h
  cases h
  refine ⟨down ++ across, rfl, fun s hs => ?_⟩
  exact (List.mem_append.1 hs).imp (exists_of_mem_gridLines hdown) (exists_of_mem_gridLines hacross)

section

variable {c : Char} (hc : isNumeral c = false) (hpath : c ∉ pathMarks)

include hc hpath

theorem not_mem_gridPath {step width height : Float} {path : String}
    (h : gridPath step width height = some path) : c ∉ path.toList := by
  obtain ⟨lines, rfl, hlines⟩ := exists_of_gridPath h
  simp only [pathMarks, List.mem_cons, List.not_mem_nil, or_false, not_or] at hpath
  refine Markup.not_mem_intercalate (by simp [hpath]) fun s hs => ?_
  have hzero : c ≠ '0' := by
    rintro rfl
    cases hc
  rcases hlines s hs with ⟨x, rfl⟩ | ⟨y, rfl⟩
  · simp [downLine, not_mem_coordinate hc, hpath, hzero]
  · simp [acrossLine, not_mem_coordinate hc, hpath, hzero]

theorem not_mem_hatchPath (foot : Vec) : c ∉ (hatchPath foot).toList := by
  simp only [pathMarks, List.mem_cons, List.not_mem_nil, or_false, not_or] at hpath
  unfold hatchPath
  refine Markup.not_mem_intercalate (by simp [hpath]) fun s hs => ?_
  rcases List.mem_cons.1 hs with rfl | hs
  · simp [not_mem_coordinate hc, hpath]
  · obtain ⟨i, -, rfl⟩ := List.mem_map.1 hs
    simp [not_mem_coordinate hc, hpath]

theorem not_mem_arcPath (a : Arc) : c ∉ (arcPath a).toList := by
  simp only [pathMarks, List.mem_cons, List.not_mem_nil, or_false, not_or] at hpath
  have hflag : c ≠ '0' ∧ c ≠ '1' := by
    constructor <;> rintro rfl <;> cases hc
  have hsweep := Markup.not_mem_toString hc a.sweep
  have hmarks : ∀ t ∈ ["M ", " ", " A ", " 0 1 "], c ∉ t.toList := by simp [hpath, hflag]
  simp only [List.forall_mem_cons] at hmarks
  unfold arcPath
  simp only [String.toList_append, List.mem_append, not_or, not_mem_coordinate hc,
    hsweep, hmarks, not_false_eq_true, and_self]

end

theorem grid_drawn {grid : List Node} (h : gridLayer style d = some grid) :
    NodesAll (Drawn style d) grid := by
  have hcolor : style.gridColor ∈ choices style d := style_choice (by simp [Style.colors])
  rcases gridLayer_cases h with rfl | ⟨path, hpath, rfl⟩
  · trivial
  · have hmarks : '#' ∉ path.toList ∧ '\'' ∉ path.toList ∧ '\n' ∉ path.toList :=
      ⟨not_mem_gridPath (by decide) (by decide) hpath,
        not_mem_gridPath (by decide) (by decide) hpath,
        not_mem_gridPath (by decide) (by decide) hpath⟩
    simp (disch := decide) [gridNode, NodesAll, Node.All, drawn_iff, hmarks, hcolor]

theorem axes_drawn : (axes style d).All (Drawn style d) := by
  have hcolor : style.axesColor ∈ choices style d := style_choice (by simp [Style.colors])
  have hmarker : reference (markerId d.id) ∈ choices style d :=
    name_choice (by simp [Diagram.names])
  simp (disch := decide) [axes, axis, axisName, Node.All, NodesAll, drawn_iff,
    not_mem_coordinate, hcolor, hmarker]

theorem backdrop_drawn {grid : List Node} (h : d.backgroundMarkup = none)
    (hgrid : gridLayer style d = some grid) :
    NodesAll (Drawn style d) (backdrop style d grid).tail := by
  have hsheet : (Node.line ⟨"style", []⟩ (Markup.plainRuns (styleSheet d.id))).All
      (Drawn style d) := fun a ha => absurd ha List.not_mem_nil
  have haxes : NodesAll (Drawn style d)
      (if d.showAxes = some true then [axes style d] else []) := by
    split
    · exact ⟨axes_drawn, trivial⟩
    · trivial
  rw [backdrop, backgroundArt_eq_nil h, List.append_nil, List.cons_append, List.tail_cons,
    nodesAll_append]
  exact ⟨⟨hsheet, background_drawn, grid_drawn hgrid⟩, haxes⟩

/-! ## Bodies -/

theorem outline_drawn {b : Body} (hb : b ∈ d.allBodies) {n : Node}
    (h : outline style d.id b = some n) : n.All (Drawn style d) := by
  have hfill := fill_choice style hb
  have hstroke := stroke_choice style hb
  unfold outline at h
  split at h
  case h_5 =>
    split at h
    · cases h
    · cases h
      simp (disch := decide) [polygon, paint, Node.All, drawn_iff, not_mem_corners, hfill, hstroke]
  all_goals
    cases h
    simp (disch := decide) [polygon, paint, Node.All, drawn_iff, not_mem_coordinate,
      not_mem_corners, hfill, hstroke]

theorem body_drawn {b : Body} (hb : b ∈ d.allBodies) {n : Node}
    (h : body style d.id b = some n) : n.All (Drawn style d) := by
  obtain ⟨shape, hs, rfl⟩ := Option.map_eq_some_iff.mp h
  have inner := outline_drawn hb hs
  split
  · exact inner
  · refine ⟨?_, inner, trivial⟩
    simp (disch := decide) [drawn_iff, not_mem_coordinate]

/-! ## Points, forces and moments -/

theorem support_drawn (p : Point) : NodesAll (Drawn style d) (support style p) := by
  have hcolor : style.pointColor ∈ choices style d := style_choice (by simp [Style.colors])
  unfold support
  split
  case h_3 => trivial
  all_goals
    simp (disch := decide) [NodesAll, Node.All, drawn_iff, not_mem_coordinate, not_mem_hatchPath,
      hcolor]

theorem pointLabel_drawn (p : Point) : NodesAll (Drawn style d) (pointLabel style p) := by
  have hcolor : style.pointColor ∈ choices style d := style_choice (by simp [Style.colors])
  simp only [pointLabel]
  split
  · trivial
  · simp (disch := decide) [NodesAll, Node.All, drawn_iff, not_mem_coordinate, hcolor]

theorem point_drawn {p : Point} (hp : p ∈ d.points) : (point style p).All (Drawn style d) := by
  have hid : p.id ∈ choices style d :=
    diagram_choice (by simp only [Diagram.values, List.mem_append]; simp [List.mem_map_of_mem hp])
  have hcolor : style.pointColor ∈ choices style d := style_choice (by simp [Style.colors])
  have hclass : ∀ k : PointKind, "fbd-point fbd-point-" ++ Keyword.word k ≠ "fbd-composed" ∧
      '#' ∉ (Keyword.word k).toList ∧ '\'' ∉ (Keyword.word k).toList ∧
      '\n' ∉ (Keyword.word k).toList := by
    rintro (_ | _ | _) <;> decide
  rw [point]
  refine ⟨?_, nodesAll_append.2 ⟨support_drawn p, ?_, pointLabel_drawn p⟩⟩
  · simp (disch := decide) [drawn_iff, hid, hclass p.kind]
  · simp (disch := decide) [Node.All, drawn_iff, not_mem_coordinate, hcolor]

theorem forceLabel_drawn {f : Force} (hf : f ∈ d.forces) (tip : Vec) :
    NodesAll (Drawn style d) (forceLabel (style.forceColor f) f tip) := by
  have hcolor := force_choice style hf
  simp only [forceLabel]
  split
  · trivial
  · simp (disch := decide) [NodesAll, Node.All, drawn_iff, not_mem_coordinate, hcolor]

theorem angleText_drawn (f : Force) (foot : Vec) :
    NodesAll (Drawn style d) (angleText style f foot) := by
  have hcolor : style.angleColor ∈ choices style d := style_choice (by simp [Style.colors])
  simp only [angleText]
  split
  · trivial
  · simp (disch := decide) [NodesAll, Node.All, drawn_iff, not_mem_coordinate, hcolor]

theorem force_drawn {f : Force} (hf : f ∈ d.forces) {showAngles : Bool} {p : Point} {n : Node}
    (h : force style showAngles p f = some n) : n.All (Drawn style d) := by
  have hid : f.id ∈ choices style d := by
    refine diagram_choice ?_
    simp only [Diagram.values, List.mem_append, List.mem_flatMap]
    exact .inl (.inl (.inr ⟨f, hf, by simp⟩))
  have hcolor := force_choice style hf
  have hangle : NodesAll (Drawn style d)
      (if showAngles = true then angleText style f p.position else []) := by
    split
    · exact angleText_drawn f p.position
    · trivial
  simp only [force] at h
  split at h
  · cases h
  · cases h
    refine ⟨?_, ?_, ?_, nodesAll_append.2 ⟨forceLabel_drawn hf _, hangle⟩⟩
    · simp (disch := decide) [drawn_iff, hid]
    · simp (disch := decide) [Node.All, drawn_iff, not_mem_coordinate, hcolor]
    · simp (disch := decide) [Node.All, drawn_iff, not_mem_corners, hcolor]

theorem moment_drawn {m : Moment} (hm : m ∈ d.moments) (p : Point) :
    (moment style p m).All (Drawn style d) := by
  have hid : m.id ∈ choices style d :=
    diagram_choice (by simp only [Diagram.values, List.mem_append]; simp [List.mem_map_of_mem hm])
  have hcolor : style.momentColor ∈ choices style d := style_choice (by simp [Style.colors])
  have hclass : ∀ k : Rotation, "fbd-moment fbd-moment-" ++ Keyword.word k ≠ "fbd-composed" ∧
      '#' ∉ (Keyword.word k).toList ∧ '\'' ∉ (Keyword.word k).toList ∧
      '\n' ∉ (Keyword.word k).toList := by
    rintro (_ | _) <;> decide
  rw [moment]
  refine ⟨?_, ?_⟩
  · simp (disch := decide) [drawn_iff, hid, hclass m.direction]
  · simp (disch := decide) [NodesAll, Node.All, drawn_iff, not_mem_coordinate, not_mem_corners,
      not_mem_arcPath, hcolor]

/-! ## Pictures -/

/-- What lies on the definitions of a picture. -/
def upper (style : Style) (d : Diagram) (grid : List Node) : List Node :=
  (backdrop style d grid).tail ++ bodies style d ++ points style d ++ forces style d ++
    moments style d

theorem layers_eq (style : Style) (d : Diagram) (grid : List Node) :
    backdrop style d grid ++ bodies style d ++ points style d ++ forces style d ++
      moments style d = definitions style d.id :: upper style d grid := rfl

/-- **The attributes of a picture**, from its definitions on. -/
theorem upper_drawn {grid : List Node} (h : d.backgroundMarkup = none)
    (hgrid : gridLayer style d = some grid) : NodesAll (Drawn style d) (upper style d grid) := by
  simp only [upper, nodesAll_append]
  refine ⟨⟨⟨⟨backdrop_drawn h hgrid, ?_⟩, ?_⟩, ?_⟩, ?_⟩
  · rw [nodesAll_iff]
    intro n hn
    obtain ⟨b, hmem, hb⟩ := List.mem_filterMap.mp hn
    exact body_drawn hmem hb
  · rw [nodesAll_iff]
    intro n hn
    obtain ⟨p, hmem, rfl⟩ := List.mem_map.mp hn
    exact point_drawn hmem
  · rw [nodesAll_iff]
    intro n hn
    obtain ⟨f, hmem, hf⟩ := List.mem_filterMap.mp hn
    obtain ⟨p, _, hp⟩ := Option.bind_eq_some_iff.mp hf
    exact force_drawn hmem hp
  · rw [nodesAll_iff]
    intro n hn
    obtain ⟨m, hmem, hm⟩ := List.mem_filterMap.mp hn
    obtain ⟨p, _, rfl⟩ := Option.map_eq_some_iff.mp hm
    exact moment_drawn hmem p

end Drawing

end FreeBody
