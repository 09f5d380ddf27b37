import FreeBody.Proofs.Diagram.Validity
import FreeBody.Proofs.Drawing.Attributes

/-!
# What is drawn

Every body, point, force and moment of a picture is marked in it: a body by its class, the others
by attributes with their ids.  Read from top to bottom, the marks are those of the bodies, the
points, the forces and the moments of the diagram, each in its order and once, without what cannot
be drawn (`marks_render`): custom bodies without corners, forces without a length, and forces and
moments that are reported to have no point.
-/

namespace FreeBody

open Markup (Node Tag Run NodesAll nodesAll_append decode nodesReadings)

namespace Drawing

/-! ## Marks -/

/-- An element of a picture as it is marked: a body by the tag of its outline, others by ids. -/
inductive Mark
  | body (attributes : List (String × String))
  | point (id : String)
  | force (id : String)
  | moment (id : String)
  deriving DecidableEq

/-- What an attribute marks in a tag whose attributes are `all`. -/
def mark? (all : List (String × String)) (a : String × String) : Option Mark :=
  if a.1 = "data-point-id" then some (.point a.2)
  else if a.1 = "data-force-id" then some (.force a.2)
  else if a.1 = "data-moment-id" then some (.moment a.2)
  else if a.1 = "class" ∧ "fbd-body ".toList <+: a.2.toList then some (.body all)
  else none

/-- The marks in a tag. -/
def tagMarks (all : List (String × String)) : List Mark := all.filterMap (mark? all)

/-- Attributes as they were before they were written. -/
def decoded (as : List (List Char × List Char)) : List (String × String) :=
  as.map fun a => (String.ofList a.1, String.ofList (decode a.2))

/-- The marks in the attributes of a tag as they are written. -/
def writtenMarks (as : List (List Char × List Char)) : List Mark := tagMarks (decoded as)

/-- The marks in a markup, from top to bottom. -/
def marks (markup : String) : List Mark := Markup.readings writtenMarks markup.toList

theorem decoded_pairs (t : Tag) : decoded t.pairs = t.attributes := by
  rw [decoded, Tag.pairs, List.map_map]
  refine (List.map_congr_left fun a _ => ?_).trans (List.map_id _)
  simp only [Function.comp_apply, Markup.decode_escapeValue, String.ofList_toList, id_eq]

theorem writtenMarks_pairs (t : Tag) : writtenMarks t.pairs = tagMarks t.attributes := by
  rw [writtenMarks, decoded_pairs]

/-! ## What has no mark -/

/-- An attribute that marks nothing in any tag. -/
def Plain (a : String × String) : Prop := ∀ all, mark? all a = none

/-- The names of attributes that may mark something. -/
def markNames : List String := ["data-point-id", "data-force-id", "data-moment-id", "class"]

theorem plain_of_name {k v : String} (h : k ∉ markNames) : Plain (k, v) := by
  intro all
  simp only [markNames, List.mem_cons, List.not_mem_nil, or_false, not_or] at h
  obtain ⟨hpoint, hforce, hmoment, hclass⟩ := h
  rw [mark?, if_neg hpoint, if_neg hforce, if_neg hmoment, if_neg fun h => hclass h.1]

theorem plain_class {v : String} (h : ¬ "fbd-body ".toList <+: v.toList) : Plain ("class", v) := by
  intro all
  have hids : "class" ≠ "data-point-id" ∧ "class" ≠ "data-force-id" ∧
      "class" ≠ "data-moment-id" := by decide
  rw [mark?, if_neg hids.1, if_neg hids.2.1, if_neg hids.2.2, if_neg fun hv => h hv.2]

theorem tagMarks_eq_nil {as : List (String × String)} (h : ∀ a ∈ as, Plain a) :
    tagMarks as = [] := by
  rw [tagMarks, List.filterMap_eq_nil_iff]
  exact fun a ha => h a ha as

mutual

theorem run_unmarked : ∀ r : Run, r.readings writtenMarks = []
  | .char _ => rfl
  | .shifted shift content => by
    rw [Run.readings, writtenMarks_pairs, runs_unmarked content, List.append_nil]
    cases shift <;> decide

theorem runs_unmarked : ∀ rs : List Run, Markup.runsReadings writtenMarks rs = []
  | [] => rfl
  | r :: rest => by rw [Markup.runsReadings, run_unmarked r, runs_unmarked rest, List.append_nil]

end

mutual

theorem node_unmarked : ∀ {n : Node}, n.All Plain → n.readings writtenMarks = []
  | .group tag children => by
    rintro ⟨ht, hc⟩
    rw [Node.readings, writtenMarks_pairs, tagMarks_eq_nil ht, nodes_unmarked hc, List.append_nil]
  | .leaf tag => fun ht => by rw [Node.readings, writtenMarks_pairs, tagMarks_eq_nil ht]
  | .line tag content => fun ht => by
    rw [Node.readings, writtenMarks_pairs, tagMarks_eq_nil ht, runs_unmarked, List.append_nil]
  | .verbatim _ => False.elim

theorem nodes_unmarked : ∀ {ns : List Node}, NodesAll Plain ns →
    nodesReadings writtenMarks ns = []
  | [] => fun _ => rfl
  | n :: rest => by
    rintro ⟨hn, hr⟩
    rw [nodesReadings, node_unmarked hn, nodes_unmarked hr, List.append_nil]

end

variable {style : Style} {d : Diagram}

/-- The classes of what is no body, and of no group with an id. -/
theorem plain_classes : ∀ v ∈ ["fbd-diagram", "fbd-background", "fbd-grid", "fbd-axes", "fbd-label",
    "fbd-point-label", "fbd-angle", "fbd-force-line", "fbd-force"], Plain ("class", v) := by
  have hbody : ∀ v ∈ ["fbd-diagram", "fbd-background", "fbd-grid", "fbd-axes", "fbd-label",
      "fbd-point-label", "fbd-angle", "fbd-force-line", "fbd-force"],
      ¬ "fbd-body ".toList <+: v.toList := by decide
  exact fun v hv => plain_class (hbody v hv)

theorem definitions_plain : (definitions style d.id).All Plain := by
  simp (disch := decide) [definitions, Node.All, NodesAll, plain_of_name]

theorem background_plain : (background d).All Plain := by
  simp (disch := decide) [background, Node.All, plain_of_name, plain_classes]

theorem grid_plain {grid : List Node} (h : gridLayer style d = some grid) :
    NodesAll Plain grid := by
  rcases gridLayer_cases h with rfl | ⟨path, -, rfl⟩
  · trivial
  · simp (disch := decide) [gridNode, NodesAll, Node.All, plain_of_name, plain_classes]

theorem axes_plain : (axes style d).All Plain := by
  simp (disch := decide) [axes, axis, axisName, Node.All, NodesAll, plain_of_name, plain_classes]

/-- Nothing beneath the bodies is marked. -/
theorem backdrop_plain {grid : List Node} (h : backgroundArt d = [])
    (hgrid : gridLayer style d = some grid) : NodesAll Plain (backdrop style d grid) := by
  have hsheet : (Node.line ⟨"style", []⟩ (Markup.plainRuns (styleSheet d.id))).All Plain :=
    fun a ha => absurd ha List.not_mem_nil
  have haxes : NodesAll Plain (if d.showAxes = some true then [axes style d] else []) := by
    split
    · exact ⟨axes_plain, trivial⟩
    · trivial
  rw [backdrop, h, List.append_nil, nodesAll_append]
  exact ⟨⟨definitions_plain, hsheet, background_plain, grid_plain hgrid⟩, haxes⟩

/-! ## What can be drawn -/

/-- Whether a body has an outline: a custom one needs corners. -/
def HasOutline (b : Body) : Prop := b.kind = .custom → (b.points.getD []).isEmpty = false

instance : DecidablePred HasOutline := fun b =>
  inferInstanceAs (Decidable (b.kind = .custom → (b.points.getD []).isEmpty = false))

/-- Whether the arrow of a force has a length. -/
def HasLength (style : Style) (f : Force) : Prop :=
  ((displacement f.magnitude f.angle (style.forceUnits f)).lengthSquared == 0) = false

instance : DecidablePred (HasLength style) := fun f =>
  inferInstanceAs (Decidable
    (((displacement f.magnitude f.angle (style.forceUnits f)).lengthSquared == 0) = false))

theorem outline_eq_none_iff {b : Body} : outline style d.id b = none ↔ ¬ HasOutline b := by
  unfold outline HasOutline
  split
  case h_5 hkind =>
    split
    next hcorners => simp [hkind, hcorners]
    next hcorners =>
      exact iff_of_false (Option.some_ne_none _)
        fun h => h fun _ => List.isEmpty_eq_false_iff.2 hcorners
  all_goals next hkind => simp [hkind]

theorem body_eq_none_iff {b : Body} : body style d.id b = none ↔ ¬ HasOutline b := by
  rw [body, Option.map_eq_none_iff, outline_eq_none_iff]

theorem point?_eq_none_iff {id : String} : d.point? id = none ↔ ¬ d.HasPoint id := by
  simp [Diagram.point?, Diagram.HasPoint]

theorem force_eq_none_iff {showAngles : Bool} {p : Point} {f : Force} :
    force style showAngles p f = none ↔ ¬ HasLength style f := by
  simp only [force, HasLength]
  split
  next h => simp [h]
  next h => simp [h]

/-- A force is drawn at the first point with the name that it gives. -/
theorem forceAt_eq_none_iff {showAngles : Bool} {f : Force} :
    (d.point? f.point).bind (fun p => force style showAngles p f) = none ↔
      ¬ (d.HasPoint f.point ∧ HasLength style f) := by
  have hpoint : d.point? f.point = none ↔ ¬ d.HasPoint f.point := point?_eq_none_iff
  cases h : d.point? f.point with
  | none =>
    exact iff_of_true rfl fun hdrawn => hpoint.1 h hdrawn.1
  | some p =>
    have hhas : d.HasPoint f.point := by
      by_contra hno
      rw [hpoint.2 hno] at h
      cases h
    rw [Option.bind_some, force_eq_none_iff]
    simp [hhas]

/-! ## Elements -/

/-- The attributes of the outline of a body. -/
def bodyAttributes (style : Style) (id : String) (b : Body) : List (String × String) :=
  match outline style id b with
  | some (.leaf tag) => tag.attributes
  | _ => []

/-- A tag with the class of a body and attributes that mark nothing is marked as a body. -/
theorem tagMarks_body {cls : String} (hcls : "fbd-body ".toList <+: cls.toList)
    {as : List (String × String)} (h : ∀ a ∈ as, Plain a) :
    tagMarks (("class", cls) :: as) = [.body (("class", cls) :: as)] := by
  have hbody (all : List (String × String)) : mark? all ("class", cls) = some (.body all) := by
    have hids : "class" ≠ "data-point-id" ∧ "class" ≠ "data-force-id" ∧
        "class" ≠ "data-moment-id" := by decide
    rw [mark?, if_neg hids.1, if_neg hids.2.1, if_neg hids.2.2, if_pos ⟨rfl, hcls⟩]
  have hrest := List.filterMap_eq_nil_iff.2 fun a ha => h a ha (("class", cls) :: as)
  rw [tagMarks, List.filterMap_cons_some (hbody _), hrest]

theorem outline_marks {b : Body} {n : Node} (h : outline style d.id b = some n) :
    n.readings writtenMarks = [.body (bodyAttributes style d.id b)] := by
  have hleaf : ∃ name cls as, n = .leaf ⟨name, ("class", cls) :: as⟩ ∧
      "fbd-body ".toList <+: cls.toList ∧ ∀ a ∈ as, Plain a := by
    unfold outline at h
    split at h
    case h_5 =>
      split at h
      · cases h
      · cases h
        exact ⟨_, _, _, rfl, by decide, by simp (disch := decide) [paint, plain_of_name]⟩
    all_goals
      cases h
      exact ⟨_, _, _, rfl, by decide, by simp (disch := decide) [paint, plain_of_name]⟩
  obtain ⟨name, cls, as, rfl, hcls, has⟩ := hleaf
  rw [Node.readings, writtenMarks_pairs, tagMarks_body hcls has, bodyAttributes, h]

/-- A turned body is marked in the tag of its outline. -/
theorem body_marks {b : Body} {n : Node} (h : body style d.id b = some n) :
    n.readings writtenMarks = [.body (bodyAttributes style d.id b)] := by
  obtain ⟨shape, hshape, rfl⟩ := Option.map_eq_some_iff.1 h
  have hmarks := outline_marks hshape
  cases turn? b with
  | none => exact hmarks
  | some angle =>
    have hturn (v : String) : tagMarks [("transform", v)] = [] :=
      tagMarks_eq_nil (by simp (disch := decide) [plain_of_name])
    rw [Node.readings, writtenMarks_pairs, hturn, nodesReadings, nodesReadings, hmarks]
    rfl

/-- A group with an id is marked by it, whatever is in it. -/
theorem group_marks {mark : String → Mark} {key cls id : String}
    (hkey : ∀ all, mark? all (key, id) = some (mark id)) (hcls : Plain ("class", cls))
    {name : String} {children : List Node} (h : NodesAll Plain children) :
    (Node.group ⟨name, [("class", cls), (key, id)]⟩ children).readings writtenMarks =
      [mark id] := by
  rw [Node.readings, writtenMarks_pairs, nodes_unmarked h, List.append_nil, tagMarks,
    List.filterMap_cons_none (hcls _), List.filterMap_cons_some (hkey _)]
  rfl

theorem support_plain (p : Point) : NodesAll Plain (support style p) := by
  unfold support
  split
  case h_3 => trivial
  all_goals simp (disch := decide) [NodesAll, Node.All, plain_of_name]

theorem pointLabel_plain (p : Point) : NodesAll Plain (pointLabel style p) := by
  simp only [pointLabel]
  split
  · trivial
  · simp (disch := decide) [NodesAll, Node.All, plain_of_name, plain_classes]

theorem point_marks (p : Point) : (point style p).readings writtenMarks = [.point p.id] := by
  have hclass : Plain ("class", "fbd-point fbd-point-" ++ Keyword.word p.kind) := by
    apply plain_class
    cases p.kind <;> decide
  refine group_marks (fun _ => rfl) hclass (nodesAll_append.2 ⟨support_plain p, ?_, ?_⟩)
  · simp (disch := decide) [Node.All, plain_of_name]
  · exact pointLabel_plain p

theorem forceLabel_plain (color : String) (f : Force) (tip : Vec) :
    NodesAll Plain (forceLabel color f tip) := by
  simp only [forceLabel]
  split
  · trivial
  · simp (disch := decide) [NodesAll, Node.All, plain_of_name, plain_classes]

theorem angleText_plain (f : Force) (foot : Vec) : NodesAll Plain (angleText style f foot) := by
  simp only [angleText]
  split
  · trivial
  · simp (disch := decide) [NodesAll, Node.All, plain_of_name, plain_classes]

theorem force_marks {showAngles : Bool} {p : Point} {f : Force} {n : Node}
    (h : force style showAngles p f = some n) :
    n.readings writtenMarks = [.force f.id] := by
  have hangle : NodesAll Plain
      (if showAngles = true then angleText style f p.position else []) := by
    split
    · exact angleText_plain f p.position
    · trivial
  simp only [force] at h
  split at h
  · cases h
  · cases h
    refine group_marks (fun _ => rfl) (plain_classes _ (by decide)) ⟨?_, ?_,
      nodesAll_append.2 ⟨forceLabel_plain _ f _, hangle⟩⟩
    · simp (disch := decide) [Node.All, plain_of_name, plain_classes]
    · simp (disch := decide) [Node.All, plain_of_name]

theorem moment_marks (p : Point) (m : Moment) :
    (moment style p m).readings writtenMarks = [.moment m.id] := by
  have hclass : Plain ("class", "fbd-moment fbd-moment-" ++ Keyword.word m.direction) := by
    apply plain_class
    cases m.direction <;> decide
  refine group_marks (fun _ => rfl) hclass ?_
  simp (disch := decide) [NodesAll, Node.All, plain_of_name, plain_classes]

/-! ## Pictures -/

/-- The marks of what is drawn of a list, where each element has one mark. -/
theorem marks_filterMap {α : Type} {draw : α → Option Node} {keep : α → Prop} [DecidablePred keep]
    {mark : α → Mark} (hnone : ∀ x, draw x = none ↔ ¬ keep x)
    (hmark : ∀ {x n}, draw x = some n → n.readings writtenMarks = [mark x]) (xs : List α) :
    nodesReadings writtenMarks (xs.filterMap draw) = (xs.filter keep).map mark := by
  induction xs with
  | nil => rfl
  | cons x xs ih =>
    cases hx : draw x with
    | none => rw [List.filterMap_cons_none hx, ih,
        List.filter_cons_of_neg (by simpa using (hnone x).1 hx)]
    | some n =>
      have hkeep : keep x := by
        by_contra hno
        rw [(hnone x).2 hno] at hx
        cases hx
      rw [List.filterMap_cons_some hx, List.filter_cons_of_pos (by simpa using hkeep),
        nodesReadings, hmark hx, ih]
      rfl

theorem marks_points (style : Style) (d : Diagram) :
    nodesReadings writtenMarks (points style d) = d.points.map (.point ·.id) := by
  rw [points]
  induction d.points with
  | nil => rfl
  | cons p ps ih =>
    rw [List.map_cons, nodesReadings, point_marks, ih]
    rfl

/-- Where no art is drawn, the picture is that of a diagram without art. -/
theorem render_of_backgroundArt (h : backgroundArt d = []) :
    d.render style = Diagram.render { d with backgroundMarkup := none } style := by
  have hnone : backgroundArt { d with backgroundMarkup := none } = [] := backgroundArt_eq_nil rfl
  have hpicture (grid : List Node) :
      picture style d grid = picture style { d with backgroundMarkup := none } grid := by
    rw [picture, picture, backdrop, backdrop, h, hnone]
    rfl
  simp only [Diagram.render, hpicture]
  rfl

/-- The marks of a picture, layer by layer. -/
theorem marks_layers (style : Style) {d : Diagram} {grid : List Node}
    (h : d.backgroundMarkup = none) (hgrid : gridLayer style d = some grid) :
    marks (picture style d grid).text =
      nodesReadings writtenMarks (bodies style d) ++ nodesReadings writtenMarks (points style d) ++
        nodesReadings writtenMarks (forces style d) ++
        nodesReadings writtenMarks (moments style d) := by
  have hunbroken : Markup.NodesUnbroken (backdrop style d grid ++ bodies style d ++
      points style d ++ forces style d ++ moments style d) := by
    rw [layers_eq]
    exact ⟨definitions_drawn.readOf.1, (upper_drawn h hgrid).readOf.1⟩
  have hroot : writtenMarks (Tag.pairs ⟨"svg", [
      ("xmlns", "http://www.w3.org/2000/svg"), ("id", d.id), ("class", "fbd-diagram"),
      ("width", Markup.coordinate d.width), ("height", Markup.coordinate d.height),
      ("viewBox", "0 0 " ++ Markup.coordinate d.width ++ " " ++ Markup.coordinate d.height)]⟩) =
        [] := by
    rw [writtenMarks_pairs]
    exact tagMarks_eq_nil (by simp (disch := decide) [plain_of_name, plain_classes])
  rw [marks, picture,
    Markup.readings_text (g := writtenMarks) rfl (by decide) (picture_isRoot style h hgrid)
      hunbroken, hroot, List.nil_append]
  simp only [Markup.nodesReadings_append,
    nodes_unmarked (backdrop_plain (backgroundArt_eq_nil h) hgrid), List.nil_append]

/-- **What is drawn is what is anchored.**  A diagram without background art has a picture exactly
if the loops that draw its grid end.  The marks of the picture are those of all bodies with an
outline, all points, the forces with a length and a point, and the moments with a point, in this
order and in the order of the lists.  Forces and moments without a point are those that are
reported, by their places. -/
theorem marks_render (style : Style) {d : Diagram} (h : backgroundArt d = []) :
    ((d.render style).isSome = true ↔ d.GridEnds style) ∧
      (∀ markup, d.render style = some markup → marks markup =
        ((d.body.toList ++ d.bodies).filter HasOutline).map
          (fun b => Mark.body (bodyAttributes style d.id b)) ++
        d.points.map (Mark.point ·.id) ++
        (d.forces.filter fun f => d.HasPoint f.point ∧ HasLength style f).map (Mark.force ·.id) ++
        (d.moments.filter fun m => d.HasPoint m.point).map (Mark.moment ·.id)) ∧
      (∀ i f, d.forces[i]? = some f →
        ((∃ name, .danglingForce i name ∈ d.issues) ↔ ¬ d.HasPoint f.point)) ∧
      ∀ i m, d.moments[i]? = some m →
        ((∃ name, .danglingMoment i name ∈ d.issues) ↔ ¬ d.HasPoint m.point) := by
  refine ⟨Diagram.render_isSome_iff, fun markup hmarkup => ?_,
    fun i f hf => Diagram.danglingForce_mem_issues hf,
    fun i m hm => Diagram.danglingMoment_mem_issues hm⟩
  have hbodies : nodesReadings writtenMarks (bodies style d) =
      ((d.body.toList ++ d.bodies).filter HasOutline).map
        fun b => Mark.body (bodyAttributes style d.id b) :=
    marks_filterMap (fun _ => body_eq_none_iff) body_marks d.allBodies
  have hforces : nodesReadings writtenMarks (forces style d) =
      (d.forces.filter fun f => d.HasPoint f.point ∧ HasLength style f).map (Mark.force ·.id) :=
    marks_filterMap (fun _ => forceAt_eq_none_iff)
      (fun hf => force_marks (Option.bind_eq_some_iff.1 hf).choose_spec.2) d.forces
  have hmoments : nodesReadings writtenMarks (moments style d) =
      (d.moments.filter fun m => d.HasPoint m.point).map (Mark.moment ·.id) := by
    refine marks_filterMap (fun _ => ?_) (fun {m n} hm => ?_) d.moments
    · rw [Option.map_eq_none_iff, point?_eq_none_iff]
    · obtain ⟨p, -, rfl⟩ := Option.map_eq_some_iff.1 hm
      exact moment_marks p m
  rw [render_of_backgroundArt h] at hmarkup
  obtain ⟨grid, hgrid, rfl⟩ := exists_of_render hmarkup
  rw [marks_layers style rfl hgrid]
  exact congr (congrArg _ (congr (congrArg _ (congr (congrArg _ hbodies) (marks_points style d)))
    hforces)) hmoments

/-- A diagram with ids that are used again, names that stand for nothing and nothing to draw in its
art and in one of its bodies. -/
def crowded : Diagram where
  id := "d"
  width := 100
  height := 100
  points := [⟨"A<", 1, 2, none, .free⟩, ⟨"A<", 3, 4, none, .fixed⟩]
  forces := [⟨"F", "A", 30, 45, "pull", none, none, none⟩]
  moments := [⟨"\"M\"", "A<", 5, .cw, "M", none⟩, ⟨"\"M\"", "B", 5, .cw, "M", none⟩]
  body := some { kind := .custom, x := 1, y := 1 }
  bodies := [.circle 5 5 5]
  backgroundMarkup := some "<svg></svg>"
  showGrid := some false

theorem marks_render_crowded :
    backgroundArt crowded = [] ∧ crowded.GridEnds {} ∧
      ∃ markup, crowded.render {} = some markup ∧ marks markup =
        [.body (bodyAttributes {} "d" (.circle 5 5 5)), .point "A<", .point "A<",
          .moment "\"M\""] := by
  have hgrid : crowded.GridEnds {} := Diagram.gridEnds_of_hidden rfl
  obtain ⟨hdrawn, hmarks, -⟩ := marks_render {} (d := crowded) rfl
  obtain ⟨markup, hmarkup⟩ := Option.isSome_iff_exists.1 (hdrawn.2 hgrid)
  exact ⟨rfl, hgrid, markup, hmarkup, hmarks markup hmarkup⟩

/-- The point of this diagram is not drawn: there is no picture. -/
theorem marks_never_drawn :
    let d : Diagram := {
      id := "d", width := 1e300, height := 400,
      points := [⟨"A", 1, 2, none, .free⟩], showGrid := some true }
    let style : Style := { gridSpacing := 1e280 }
    backgroundArt d = [] ∧ d.render style = none := by
  intro d style
  exact ⟨rfl, Diagram.render_eq_none_iff.2 (not_gridEnds_huge rfl rfl)⟩

end Drawing

end FreeBody
