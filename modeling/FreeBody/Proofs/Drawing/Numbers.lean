import FreeBody.Proofs.Drawing.Names
import FreeBody.Proofs.Markup.Datum

/-!
# Numbers in pictures

Every attribute in a picture that holds numbers has a datum of its kind, with numbers that are
written as coordinates are (`render_measured`).  This is shown layer by layer, on the tags.  A
picture that shows a drawing has the numbers of the drawing as well (`shows_measured`).
-/

namespace FreeBody.Drawing

open Markup (Node NodesFit NodesAll NodesRead nodesAll_iff nodesAll_append nodesAttributes
  allAttributes coordinate corners Measured ReadMeasured IsWritten Numbers IsPath numbers_pair
  measured_of_none measured_of_some measured_of_literal isWritten_coordinate)

variable {style : Style} {d : Diagram}

/-! ## Lists, transformations and paths -/

theorem measured_corners (v : Vec) (vs : List Vec) : Measured ("points", corners (v :: vs)) :=
  measured_of_some (d := .corners) (by decide)
    ⟨(v :: vs).length, Markup.numbers_corners (List.cons_ne_nil v vs)⟩

theorem measured_viewBox (width height : Float) :
    Measured ("viewBox", "0 0 " ++ coordinate width ++ " " ++ coordinate height) := by
  have hbox : Numbers IsWritten 4 ("0".toList ++ ([' '] ++ ("0".toList ++ ([' '] ++
      ((coordinate width).toList ++ ([' '] ++ (coordinate height).toList)))))) :=
    .cons (by decide) (by decide) (.cons (by decide) (by decide)
      (numbers_pair (by decide) width height))
  refine measured_of_some (d := .box) (by decide) ?_
  simpa [Markup.Datum.Language] using hbox

theorem measured_turn (angle x y : Float) :
    Measured ("transform", "rotate(" ++ coordinate angle ++ " " ++ coordinate x ++ " " ++
      coordinate y ++ ")") := by
  have hnumbers : Numbers IsWritten 3 ((coordinate angle).toList ++ ([' '] ++
      ((coordinate x).toList ++ ([' '] ++ (coordinate y).toList)))) :=
    .cons (isWritten_coordinate angle) (by decide) (numbers_pair (by decide) x y)
  refine measured_of_some (d := .transformation) (by decide) ⟨"rotate", 3, _, ?_, by decide,
    hnumbers⟩
  simp

/-- A line from a point to another, as a path. -/
theorem isPath_line {start blank separator : List Char} (hstart : Numbers IsWritten 2 start)
    (hblank : blank ∈ [[], [' ']]) (hs : separator ∈ Markup.separators) (x y : Float) :
    IsPath IsWritten ('M' :: (blank ++ start) ++ ' ' :: 'L' :: (blank ++
      ((coordinate x).toList ++ (separator ++ (coordinate y).toList)))) := by
  exact .cons ⟨'M', 2, blank, start, rfl, by decide, hblank, hstart⟩
    (.one ⟨'L', 2, blank, _, rfl, by decide, hblank, numbers_pair hs x y⟩)

theorem measured_hatchPath (foot : Vec) : Measured ("d", hatchPath foot) := by
  have hblank : [' '] ∈ [[], [' ']] := by decide
  have hseparator : [' '] ∈ Markup.separators := by decide
  have hsegment (a b : Vec) : IsPath IsWritten ("M " ++ coordinate a.x ++ " " ++ coordinate a.y ++
      " L " ++ coordinate b.x ++ " " ++ coordinate b.y).toList := by
    have hline := isPath_line (numbers_pair hseparator a.x a.y) hblank hseparator b.x b.y
    simpa using hline
  unfold hatchPath
  refine measured_of_some (d := .path) (by decide) (Markup.path_intercalate ?_)
  refine List.forall_mem_cons.2 ⟨hsegment _ _, ?_⟩
  rw [List.forall_mem_map]
  exact fun i _ => hsegment _ _

theorem measured_gridPath {step width height : Float} {path : String}
    (h : gridPath step width height = some path) : Measured ("d", path) := by
  have hzero : IsWritten "0".toList := by decide
  have hcomma : [','] ∈ Markup.separators := by decide
  have hblank : [] ∈ [[], [' ']] := by decide
  have hdown (x : Float) : IsPath IsWritten (downLine height x).toList := by
    have hstart : Numbers IsWritten 2 ((coordinate x).toList ++ ([','] ++ "0".toList)) :=
      .cons (isWritten_coordinate x) (by decide) (.one hzero)
    have hline := isPath_line hstart hblank hcomma x height
    simpa [downLine] using hline
  have hacross (y : Float) : IsPath IsWritten (acrossLine width y).toList := by
    have hstart : Numbers IsWritten 2 ("0".toList ++ ([','] ++ (coordinate y).toList)) :=
      .cons hzero (by decide) (.one (isWritten_coordinate y))
    have hline := isPath_line hstart hblank hcomma width y
    simpa [acrossLine] using hline
  obtain ⟨lines, rfl, hlines⟩ := exists_of_gridPath h
  refine measured_of_some (d := .path) (by decide) (Markup.path_intercalate fun s hs => ?_)
  rcases hlines s hs with ⟨x, rfl⟩ | ⟨y, rfl⟩
  · exact hdown x
  · exact hacross y

theorem measured_arcPath (a : Arc) : Measured ("d", arcPath a) := by
  have hblank : [' '] ∈ Markup.separators := by decide
  have hflag : IsWritten ['0'] ∧ IsWritten ['1'] := by decide
  have hpair (v : Vec) := numbers_pair hblank v.x v.y
  have hsweep := Numbers.cons (Or.inl (Markup.isPlain_toString a.sweep)) hblank (hpair a.finish)
  have harc := Numbers.cons (isWritten_coordinate a.radius) hblank
    (.cons (isWritten_coordinate a.radius) hblank
      (.cons hflag.1 hblank (.cons hflag.2 hblank hsweep)))
  have hpath : IsPath IsWritten _ :=
    .cons ⟨'M', 2, [' '], _, rfl, by decide, by decide, hpair a.start⟩
      (.one ⟨'A', 7, [' '], _, rfl, by decide, by decide, harc⟩)
  have hmarks : "M ".toList = ['M', ' '] ∧ " ".toList = [' '] ∧ " A ".toList = [' ', 'A', ' '] ∧
      " 0 1 ".toList = [' ', '0', ' ', '1', ' '] := by decide
  refine measured_of_some (d := .path) (by decide) (Or.inr ?_)
  unfold arcPath
  simp only [String.toList_append, hmarks, List.append_assoc, List.cons_append, List.nil_append]
    at hpath ⊢
  exact hpath

/-! ## Backdrop -/

theorem definitions_measured : (definitions style d.id).All Measured := by
  simp (disch := decide) [definitions, Node.All, NodesAll, measured_of_none, measured_of_literal,
    measured_corners]

theorem background_measured : (background d).All Measured := by
  simp (disch := decide) [background, Node.All, measured_of_none]

theorem grid_measured {grid : List Node} (h : gridLayer style d = some grid) :
    NodesAll Measured grid := by
  rcases gridLayer_cases h with rfl | ⟨path, hpath, rfl⟩
  · trivial
  · simp (disch := decide) [gridNode, NodesAll, Node.All, measured_of_none, measured_of_literal,
      measured_gridPath hpath]

theorem axes_measured : (axes style d).All Measured := by
  simp (disch := decide) [axes, axis, axisName, Node.All, NodesAll, measured_of_none,
    measured_of_literal]

theorem backdrop_measured {grid : List Node} (h : d.backgroundMarkup = none)
    (hgrid : gridLayer style d = some grid) : NodesAll Measured (backdrop style d grid) := by
  have hsheet : (Node.line ⟨"style", []⟩ (Markup.plainRuns (styleSheet d.id))).All Measured :=
    fun a ha => absurd ha List.not_mem_nil
  have haxes : NodesAll Measured (if d.showAxes = some true then [axes style d] else []) := by
    split
    · exact ⟨axes_measured, trivial⟩
    · trivial
  rw [backdrop, backgroundArt_eq_nil h, List.append_nil, nodesAll_append]
  exact ⟨⟨definitions_measured, hsheet, background_measured, grid_measured hgrid⟩, haxes⟩

/-! ## Bodies -/

theorem measured_triangle (b : Body) : Measured ("points", corners (triangleCorners b)) := by
  unfold triangleCorners
  simp only
  split
  next h =>
    cases hown : b.points.getD [] with
    | nil =>
      rw [hown] at h
      cases h
    | cons v vs => exact measured_corners v vs
  next => exact measured_corners _ _

theorem outline_measured {b : Body} {n : Node} (h : outline style d.id b = some n) :
    n.All Measured := by
  unfold outline at h
  split at h
  case h_5 =>
    split at h
    · cases h
    next hne =>
      cases h
      have hcorners : Measured ("points", corners (b.points.getD [])) := by
        obtain ⟨v, rest, hcons⟩ := List.exists_cons_of_ne_nil hne
        rw [hcons]
        exact measured_corners v rest
      simp (disch := decide) [polygon, paint, Node.All, measured_of_none, measured_of_literal,
        hcorners]
  all_goals
    cases h
    simp (disch := decide) [polygon, paint, Node.All, measured_of_none, measured_of_literal,
      measured_triangle]

theorem body_measured {b : Body} {n : Node} (h : body style d.id b = some n) :
    n.All Measured := by
  obtain ⟨shape, hs, rfl⟩ := Option.map_eq_some_iff.mp h
  have inner := outline_measured hs
  split
  · exact inner
  next angle _ =>
    exact ⟨List.forall_mem_singleton.2 (measured_turn (-angle) b.x b.y), inner, trivial⟩

/-! ## Points, forces and moments -/

theorem support_measured (p : Point) : NodesAll Measured (support style p) := by
  unfold support
  split
  case h_3 => trivial
  all_goals
    simp (disch := decide) [NodesAll, Node.All, measured_of_none, measured_of_literal,
      measured_hatchPath]

theorem pointLabel_measured (p : Point) : NodesAll Measured (pointLabel style p) := by
  simp only [pointLabel]
  split
  · trivial
  · simp (disch := decide) [NodesAll, Node.All, measured_of_none]

theorem point_measured (p : Point) : (point style p).All Measured := by
  rw [point]
  refine ⟨?_, nodesAll_append.2 ⟨support_measured p, ?_, pointLabel_measured p⟩⟩
  · simp (disch := decide) [measured_of_none]
  · simp (disch := decide) [Node.All, measured_of_none, measured_of_literal]

theorem forceLabel_measured (color : String) (f : Force) (tip : Vec) :
    NodesAll Measured (forceLabel color f tip) := by
  simp only [forceLabel]
  split
  · trivial
  · simp (disch := decide) [NodesAll, Node.All, measured_of_none]

theorem angleText_measured (f : Force) (foot : Vec) :
    NodesAll Measured (angleText style f foot) := by
  have hsize : Measured ("font-size", "11") :=
    measured_of_some (d := .size) (by decide) (Or.inl (by decide))
  simp only [angleText]
  split
  · trivial
  · simp (disch := decide) [NodesAll, Node.All, measured_of_none, hsize]

theorem force_measured {showAngles : Bool} {p : Point} {f : Force} {n : Node}
    (h : force style showAngles p f = some n) : n.All Measured := by
  have hangle : NodesAll Measured
      (if showAngles = true then angleText style f p.position else []) := by
    split
    · exact angleText_measured f p.position
    · trivial
  have hhead (tip heading : Vec) (size : Float) :
      Measured ("points", corners (arrowHead tip heading size)) :=
    measured_corners _ _
  simp only [force] at h
  split at h
  · cases h
  · cases h
    refine ⟨?_, ?_, ?_, nodesAll_append.2 ⟨forceLabel_measured _ f _, hangle⟩⟩
    · simp (disch := decide) [measured_of_none]
    · simp (disch := decide) [Node.All, measured_of_none]
    · simp (disch := decide) [Node.All, measured_of_none, hhead]

theorem moment_measured (m : Moment) (p : Point) : (moment style p m).All Measured := by
  have hhead (tip heading : Vec) (size : Float) :
      Measured ("points", corners (arrowHead tip heading size)) :=
    measured_corners _ _
  rw [moment]
  refine ⟨?_, ?_⟩
  · simp (disch := decide) [measured_of_none]
  · simp (disch := decide) [NodesAll, Node.All, measured_of_none, measured_of_literal, hhead,
      measured_arcPath]

/-! ## Pictures -/

theorem layers_measured (style : Style) {grid : List Node} (h : d.backgroundMarkup = none)
    (hgrid : gridLayer style d = some grid) :
    NodesAll Measured (definitions style d.id :: upper style d grid) := by
  rw [← layers_eq]
  simp only [nodesAll_append]
  refine ⟨⟨⟨⟨backdrop_measured h hgrid, ?_⟩, ?_⟩, ?_⟩, ?_⟩
  · rw [nodesAll_iff]
    intro n hn
    obtain ⟨b, -, hb⟩ := List.mem_filterMap.mp hn
    exact body_measured hb
  · rw [nodesAll_iff]
    intro n hn
    obtain ⟨p, -, rfl⟩ := List.mem_map.mp hn
    exact point_measured p
  · rw [nodesAll_iff]
    intro n hn
    obtain ⟨f, -, hf⟩ := List.mem_filterMap.mp hn
    obtain ⟨p, -, hp⟩ := Option.bind_eq_some_iff.mp hf
    exact force_measured hp
  · rw [nodesAll_iff]
    intro n hn
    obtain ⟨m, -, hm⟩ := List.mem_filterMap.mp hn
    obtain ⟨p, -, rfl⟩ := Option.map_eq_some_iff.mp hm
    exact moment_measured m p

/-- The attributes of the root of a picture. -/
theorem root_measured (d : Diagram) : ∀ a ∈ Markup.Tag.pairs ⟨"svg", [
      ("xmlns", "http://www.w3.org/2000/svg"),
      ("id", d.id),
      ("class", "fbd-diagram"),
      ("width", coordinate d.width),
      ("height", coordinate d.height),
      ("viewBox", "0 0 " ++ coordinate d.width ++ " " ++ coordinate d.height)]⟩,
    ReadMeasured a := by
  refine Markup.Tag.readMeasured ?_
  simp (disch := decide) [measured_of_none, measured_viewBox]

/-- **Numbers in pictures.** -/
theorem render_measured (style : Style) (h : d.backgroundMarkup = none) {markup : String}
    (hrender : d.render style = some markup) :
    ∀ a ∈ allAttributes markup.toList, ReadMeasured a := by
  obtain ⟨grid, hgrid, rfl⟩ := exists_of_render hrender
  have hlayers := layers_measured style h hgrid
  rw [picture, Markup.allAttributes_text (by decide) (picture_isRoot style h hgrid)
    hlayers.readOf.1]
  exact List.forall_mem_append.2 ⟨root_measured d, hlayers.readMeasured⟩

/-- A picture without its root has the numbers of its layers. -/
theorem rootContent_measured (hd : d.Unstyled) (hid : IsId d.id) {markup : String}
    (hrender : d.render {} = some markup) :
    ∀ a ∈ allAttributes (Markup.rootContent markup.toList), ReadMeasured a := by
  obtain ⟨grid, hgrid, rfl⟩ := exists_of_render hrender
  rw [rootContent_attributes hd hid hgrid]
  exact (layers_measured {} hd.art hgrid).readMeasured

/-! ## Pictures of drawings -/

section

variable {drawing : List Node} {named known : List (List Char)} (h : NodesFit Inner drawing)
  (hreads : NodesRead named known drawing)
  (hmeasured : ∀ a ∈ nodesAttributes drawing, ReadMeasured a)

include h hreads hmeasured

theorem asArt_measured : ∀ a ∈ nodesAttributes (asArt drawing), ReadMeasured a := by
  cases drawing with
  | nil => exact hmeasured
  | cons n rest =>
    have hgroup : ∀ a ∈ Markup.Tag.pairs ⟨"g", [("class", "fbd-background-art")]⟩,
        ReadMeasured a :=
      Markup.Tag.readMeasured (List.forall_mem_singleton.2 (measured_of_none (by decide)))
    simp only [asArt, nodesAttributes, Node.attributes, String.toList_ofList, List.append_nil]
    rw [attributes_trim h hreads]
    exact List.forall_mem_append.2 ⟨hgroup, hmeasured⟩

/-- **Numbers in pictures of drawings.** -/
theorem shows_measured (hbare : { d with backgroundMarkup := none }.Unstyled) (hid : IsId d.id)
    (hd : Shows d drawing) :
    ∀ a ∈ allAttributes (picture {} d []).text.toList, ReadMeasured a := by
  have hlower : NodesAll Measured
      (definitions {} d.id :: upper {} { d with backgroundMarkup := none } []) :=
    layers_measured {} (d := { d with backgroundMarkup := none }) rfl
      (gridLayer_of_hidden {} hd.hidden)
  have hlayers := shown_read h hreads hbare hid hd
  rw [← layers_of_shows {} hd] at hlayers
  rw [picture, Markup.allAttributes_text (by decide)
    (picture_isRoot_of_shows {} hd h) hlayers.unbroken, layers_of_shows {} hd,
    Markup.nodesAttributes_append, List.forall_mem_append, List.forall_mem_append]
  exact ⟨root_measured d, hlower.readMeasured, asArt_measured h hreads hmeasured⟩

end

end FreeBody.Drawing
