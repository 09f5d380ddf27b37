import FreeBody.Diagram.Builder
import FreeBody.Proofs.Diagram.Validity
import FreeBody.Proofs.Drawing.Art
import Mathlib.Data.List.Induction

/-!
# What a builder builds

A builder is used by a sequence of calls, of which any may be a look at the finished diagram
(`Call`).  Whatever the calls and their order are, the diagram they leave is read off the list of
them: its elements are those that were added, in turn, and each of its settings is the one made
last (`described`).  That is kept by one call after the other, so it holds of a whole run
(`run_describes`).

A look at a diagram whose grid is never finished does not come to an end, and no more does a run
with such a look in it (`build_never_ends`).
-/

namespace FreeBody

namespace Builder

/-- What can be asked of a builder. -/
inductive Call where
  | addPoint (id : String) (x y : Float) (label : Option String)
  | addSupport (id : String) (x y : Float) (label : Option String) (kind : PointKind)
  | addForce (id point : String) (magnitude angle : Float) (label : String)
      (kind : Option ForceKind)
  | pushForce (f : Force)
  | addMoment (id point : String) (magnitude : Float) (direction : Rotation) (label : String)
  | setBody (body : Body)
  | addBody (body : Body)
  | showAxes (on : Bool)
  | showGrid (on : Bool)
  | showAngles (on : Bool)
  | backgroundColor (color : String)
  | backgroundMarkup (markup : String)
  | renderedMarkup (markup : String)
  | build (style : Style)

/-! ## Runs -/

/-- The builder after a call.  Finishing the diagram is a look at the builder. -/
def apply (b : Builder) : Call → Builder
  | .addPoint id x y label => b.addPoint id x y label
  | .addSupport id x y label kind => b.addSupport id x y label kind
  | .addForce id point magnitude angle label kind =>
    b.addForce id point magnitude angle label kind
  | .pushForce f => b.pushForce f
  | .addMoment id point magnitude direction label =>
    b.addMoment id point magnitude direction label
  | .setBody body => b.setBody body
  | .addBody body => b.addBody body
  | .showAxes on => b.showAxes on
  | .showGrid on => b.showGrid on
  | .showAngles on => b.showAngles on
  | .backgroundColor color => b.backgroundColor color
  | .backgroundMarkup markup => b.backgroundMarkup markup
  | .renderedMarkup markup => b.renderedMarkup markup
  | .build _ => b

/-- The diagrams that a call returns: one if it is a look at the finished diagram, none otherwise.
There is no answer to a look that never ends. -/
def answers (b : Builder) : Call → Option (List Diagram)
  | .build style => (b.buildWith style).map fun d => [d]
  | _ => some []

/-- The builder after some calls, with the diagrams that they return in turn, if all of them come to
an end. -/
def run (b : Builder) : List Call → Option (Builder × List Diagram)
  | [] => some (b, [])
  | call :: calls => do
    let given ← b.answers call
    let (after, built) ← (b.apply call).run calls
    pure (after, given ++ built)

/-- A builder that was just begun, with a size of its own or with the usual one. -/
def begun (id : String) : Option (Float × Float) → Builder
  | some (width, height) => ofSize id width height
  | none => empty id

/-! ## What is asked for -/

namespace Call

/-- The point that a call adds. -/
def point? : Call → Option Point
  | addPoint id x y label => some ⟨id, x, y, label, .free⟩
  | addSupport id x y label kind => some ⟨id, x, y, label, kind⟩
  | _ => none

/-- The force that a call adds. -/
def force? : Call → Option Force
  | addForce id point magnitude angle label kind =>
    some ⟨id, point, magnitude, angle, label, kind, none, none⟩
  | pushForce f => some f
  | _ => none

/-- The moment that a call adds. -/
def moment? : Call → Option Moment
  | addMoment id point magnitude direction label =>
    some ⟨id, point, magnitude, direction, label, none⟩
  | _ => none

/-- The body that a call adds to the others. -/
def addedBody? : Call → Option Body
  | addBody body => some body
  | _ => none

/-- The body that a call puts in the place of the single one. -/
def body? : Call → Option Body
  | setBody body => some body
  | _ => none

def axes? : Call → Option Bool
  | showAxes on => some on
  | _ => none

def grid? : Call → Option Bool
  | showGrid on => some on
  | _ => none

def angles? : Call → Option Bool
  | showAngles on => some on
  | _ => none

def color? : Call → Option String
  | backgroundColor color => some color
  | _ => none

def art? : Call → Option String
  | backgroundMarkup markup => some markup
  | _ => none

/-- The finished picture that a call supplies. -/
def picture? : Call → Option String
  | renderedMarkup markup => some markup
  | _ => none

end Call

variable {α : Type}

/-- What the last of the calls that make a setting makes it. -/
def last? (setting? : Call → Option α) (calls : List Call) : Option α :=
  (calls.filterMap setting?).getLast?

theorem added_concat (element? : Call → Option α) (calls : List Call) (call : Call) :
    (calls ++ [call]).filterMap element? = calls.filterMap element? ++ (element? call).toList := by
  rw [List.filterMap_append, List.filterMap_cons]
  cases element? call <;> rfl

theorem last?_concat (setting? : Call → Option α) (calls : List Call) (call : Call) :
    last? setting? (calls ++ [call]) = (setting? call).or (last? setting? calls) := by
  rw [last?, added_concat, List.getLast?_append, ← last?]
  cases setting? call <;> rfl

/-- The diagram that the calls ask for, with axes and without a grid unless they say so. -/
def described (id : String) (size : Option (Float × Float)) (calls : List Call) : Diagram where
  id := id
  width := (size.getD (600, 400)).1
  height := (size.getD (600, 400)).2
  points := calls.filterMap Call.point?
  forces := calls.filterMap Call.force?
  moments := calls.filterMap Call.moment?
  body := last? Call.body? calls
  bodies := calls.filterMap Call.addedBody?
  showAxes := some ((last? Call.axes? calls).getD true)
  showGrid := some ((last? Call.grid? calls).getD false)
  showAngles := last? Call.angles? calls
  backgroundColor := last? Call.color? calls
  backgroundMarkup := last? Call.art? calls
  renderedMarkup := last? Call.picture? calls

/-! ## One call and many -/

theorem begun_diagram (id : String) (size : Option (Float × Float)) :
    (begun id size).diagram = described id size [] := by
  cases size <;> rfl

/-- A call puts what it adds behind all else of its kind, and makes the settings it makes. -/
theorem apply_diagram (b : Builder) (call : Call) : (b.apply call).diagram =
    { b.diagram with
      points := b.diagram.points ++ call.point?.toList
      forces := b.diagram.forces ++ call.force?.toList
      moments := b.diagram.moments ++ call.moment?.toList
      body := call.body?.or b.diagram.body
      bodies := b.diagram.bodies ++ call.addedBody?.toList
      showAxes := call.axes?.or b.diagram.showAxes
      showGrid := call.grid?.or b.diagram.showGrid
      showAngles := call.angles?.or b.diagram.showAngles
      backgroundColor := call.color?.or b.diagram.backgroundColor
      backgroundMarkup := call.art?.or b.diagram.backgroundMarkup
      renderedMarkup := call.picture?.or b.diagram.renderedMarkup } := by
  have hrest {α : Type} (xs : List α) : xs ++ (none : Option α).toList = xs := List.append_nil xs
  obtain ⟨d⟩ := b
  -- each call has a say in one field at most, and what it says is put there as the builder does
  cases call <;>
    simp only [Call.point?, Call.force?, Call.moment?, Call.addedBody?, Call.body?, Call.axes?,
      Call.grid?, Call.angles?, Call.color?, Call.art?, Call.picture?, hrest, Option.none_or] <;>
    rfl

theorem foldl_diagram (id : String) (size : Option (Float × Float)) (calls : List Call) :
    (calls.foldl apply (begun id size)).diagram = described id size calls := by
  -- The last call is the outermost, so the induction is from the end.
  induction calls using List.reverseRecOn with
  | nil => exact begun_diagram id size
  | append_singleton calls call ih =>
    rw [List.foldl_concat, apply_diagram, ih]
    simp only [described, added_concat, last?_concat, Option.getD_or, Option.or_some]

/-! ## Runs that come to an end -/

/-- A run leaves what its calls leave, one after the other. -/
theorem eq_foldl_of_run {b after : Builder} {calls : List Call} {built : List Diagram}
    (h : b.run calls = some (after, built)) : after = calls.foldl apply b := by
  induction calls generalizing b built with
  | nil =>
    cases h
    rfl
  | cons call calls ih =>
    obtain ⟨given, -, h⟩ := Option.bind_eq_some_iff.1 h
    obtain ⟨⟨left, rest⟩, hrun, h⟩ := Option.bind_eq_some_iff.1 h
    cases h
    exact ih hrun

theorem isSome_answers_iff {b : Builder} {call : Call} : (b.answers call).isSome = true ↔
    ∀ style, call = .build style → (b.buildWith style).isSome = true := by
  cases call with
  | build style => simp [answers]
  | _ => simp [answers]

/-- A run ends exactly if each look in it does. -/
theorem isSome_run_iff {b : Builder} {calls : List Call} : (b.run calls).isSome = true ↔
    ∀ before style, before ++ [.build style] <+: calls →
      ((before.foldl apply b).buildWith style).isSome = true := by
  induction calls generalizing b with
  | nil => simp [run]
  | cons call calls ih =>
    have hrun : (b.run (call :: calls)).isSome = true ↔
        (b.answers call).isSome = true ∧ ((b.apply call).run calls).isSome = true := by
      rw [run]
      cases b.answers call <;> cases (b.apply call).run calls <;> simp
    rw [hrun, isSome_answers_iff, ih]
    constructor
    · rintro ⟨hfirst, hrest⟩ before style hbefore
      cases before with
      | nil => exact hfirst style (List.cons_prefix_cons.1 hbefore).1.symm
      | cons c before =>
        rw [List.cons_append, List.cons_prefix_cons] at hbefore
        obtain ⟨rfl, hbefore⟩ := hbefore
        exact hrest before style hbefore
    · intro h
      refine ⟨fun style hcall => h [] style ?_, fun before style hbefore => ?_⟩
      · rw [hcall]
        exact List.prefix_append [_] _
      · exact h (call :: before) style (List.cons_prefix_cons.2 ⟨rfl, hbefore⟩)

theorem run_build_cons (b : Builder) (style : Style) (calls : List Call) :
    b.run (.build style :: calls) = (b.buildWith style).bind fun d =>
      (b.run calls).map fun (after, built) => (after, d :: built) := by
  rw [run, answers]
  cases b.buildWith style with
  | none => rfl
  | some d =>
    show ((b.run calls).bind fun left => some (left.1, [d] ++ left.2)) = _
    cases b.run calls <;> rfl

/-- Looks leave a builder as it is, and each gives the diagram that it gives alone. -/
theorem run_build_iff {b after : Builder} {styles : List Style} {built : List Diagram} :
    b.run (styles.map .build) = some (after, built) ↔
      after = b ∧ styles.map b.buildWith = built.map some := by
  induction styles generalizing after built with
  | nil =>
    constructor
    · intro h
      cases h
      exact ⟨rfl, rfl⟩
    · rintro ⟨rfl, h⟩
      obtain rfl := List.map_eq_nil_iff.1 h.symm
      rfl
  | cons style styles ih =>
    simp only [List.map_cons, run_build_cons, Option.bind_eq_some_iff, Option.map_eq_some_iff,
      Prod.exists, ih, Prod.mk.injEq]
    constructor
    · rintro ⟨d, hd, _, ds, ⟨rfl, hds⟩, rfl, rfl⟩
      exact ⟨rfl, by rw [hd, hds, List.map_cons]⟩
    · rintro ⟨rfl, h⟩
      cases built with
      | nil => cases h
      | cons d ds =>
        obtain ⟨hd, hds⟩ := List.cons.inj h
        exact ⟨d, hd, after, ds, ⟨rfl, hds⟩, rfl, rfl⟩

/-! ## Finished diagrams -/

theorem isSome_buildWith_iff {b : Builder} {style : Style} :
    (b.buildWith style).isSome = true ↔
      b.diagram.renderedMarkup.isSome = true ∨ b.diagram.GridEnds style := by
  unfold buildWith
  split
  next hsupplied => simp [hsupplied]
  next hnone => simp [hnone, Diagram.render_isSome_iff]

/-- A finished diagram has the picture that was supplied, or else its own. -/
theorem buildWith_eq_some_iff {b : Builder} {style : Style} {d : Diagram} :
    b.buildWith style = some d ↔ ∃ picture,
      b.diagram.renderedMarkup.or (d.render style) = some picture ∧
        d = { b.diagram with renderedMarkup := some picture } := by
  have hrender (picture : Option String) :
      { b.diagram with renderedMarkup := picture }.render style = b.diagram.render style :=
    Diagram.render_rendered _ _ _
  obtain ⟨drawn⟩ := b
  unfold buildWith
  split
  next supplied hsupplied =>
    dsimp only at hsupplied
    rw [hsupplied, Option.some.injEq]
    constructor
    · rintro rfl
      exact ⟨supplied, rfl, congrArg (fun m => { drawn with renderedMarkup := m }) hsupplied⟩
    · rintro ⟨picture, hpicture, rfl⟩
      cases hpicture
      exact (congrArg (fun m => { drawn with renderedMarkup := m }) hsupplied)
  next hnone =>
    dsimp only at hnone
    rw [Option.map_eq_some_iff, hnone]
    constructor
    · rintro ⟨picture, hpicture, rfl⟩
      exact ⟨picture, (hrender _).trans hpicture, rfl⟩
    · rintro ⟨picture, hpicture, rfl⟩
      exact ⟨picture, (hrender _).symm.trans hpicture, rfl⟩

/-- Whether a look in some style comes to an end after some calls: a picture was supplied, or the
loops that draw the grid end. -/
def Finishes (id : String) (size : Option (Float × Float)) (calls : List Call) (style : Style) :
    Prop :=
  (last? Call.picture? calls).isSome = true ∨ (described id size calls).GridEnds style

theorem isSome_buildWith_foldl_iff {id : String} {size : Option (Float × Float)}
    {calls : List Call} {style : Style} :
    ((calls.foldl apply (begun id size)).buildWith style).isSome = true ↔
      Finishes id size calls style := by
  rw [isSome_buildWith_iff, foldl_diagram]
  rfl

/-- **A builder keeps account of its calls.**  A run of calls comes to an end exactly if each look
at the finished diagram in it does.  Whatever was asked of the builder, its diagram is then the one
described by the calls.  It may be looked at any number of times and in any styles: the builder
stays as it is, and the same style gives the same diagram.  A look has a result exactly if a
picture was supplied or the grid ends.  The picture of the finished diagram is the one supplied
last, or else that of the finished diagram itself.  Nothing is reported of the diagram if and only
if it has a name and a size, what was added has ids that are used once within their kind, and every
force and every moment that was added is at a point that was added too, earlier or later. -/
theorem run_describes (id : String) (size : Option (Float × Float)) (calls : List Call) :
    (((begun id size).run calls).isSome = true ↔
        ∀ before style, before ++ [.build style] <+: calls → Finishes id size before style) ∧
      ∀ b built, (begun id size).run calls = some (b, built) →
        b.diagram = described id size calls ∧
        (∀ (styles : List Style) after looks, b.run (styles.map .build) = some (after, looks) ↔
          after = b ∧ styles.map b.buildWith = looks.map some) ∧
        ∀ style,
          ((b.buildWith style).isSome = true ↔ Finishes id size calls style) ∧
          ∀ d, b.buildWith style = some d →
            (∃ picture, (last? Call.picture? calls).or (d.render style) = some picture ∧
              d = { described id size calls with renderedMarkup := some picture }) ∧
            (d.issues = [] ↔
              (∃ c ∈ id.toList, Text.isBlank c = false) ∧
              IsSize (size.getD (600, 400)).1 ∧ IsSize (size.getD (600, 400)).2 ∧
              ((calls.filterMap Call.point?).map Point.id).Nodup ∧
              ((calls.filterMap Call.force?).map Force.id).Nodup ∧
              ((calls.filterMap Call.moment?).map Moment.id).Nodup ∧
              (∀ f ∈ calls.filterMap Call.force?,
                ∃ p ∈ calls.filterMap Call.point?, p.id = f.point) ∧
              ∀ m ∈ calls.filterMap Call.moment?,
                ∃ p ∈ calls.filterMap Call.point?, p.id = m.point) := by
  refine ⟨?_, fun b built hrun => ?_⟩
  · simp only [isSome_run_iff, isSome_buildWith_foldl_iff]
  obtain rfl := eq_foldl_of_run hrun
  refine ⟨foldl_diagram id size calls, fun styles after looks => run_build_iff,
    fun style => ⟨isSome_buildWith_foldl_iff, fun d hd => ?_⟩⟩
  rw [buildWith_eq_some_iff, foldl_diagram] at hd
  refine ⟨hd, ?_⟩
  obtain ⟨picture, -, rfl⟩ := hd
  rw [Diagram.issues_eq_nil_iff]
  constructor
  · intro h
    exact ⟨h.named, h.width, h.height, h.points, h.forces, h.moments, h.forcesAnchored,
      h.momentsAnchored⟩
  · rintro ⟨named, width, height, points, forces, moments, forcesAnchored, momentsAnchored⟩
    exact ⟨named, width, height, points, forces, moments, forcesAnchored, momentsAnchored⟩

/-- A force that is added before its point, with a look at the diagram in between. -/
theorem run_describes_force_first :
    let calls := [.addForce "F" "A" 5 90 "N" none, .build {}, .addPoint "A" 10 20 none]
    ∃ b built d, (begun "d" none).run calls = some (b, built) ∧ b.buildWith {} = some d ∧
      d.issues = [] := by
  intro calls
  obtain ⟨hends, hdescribes⟩ := run_describes "d" none calls
  have hlooks : ∀ before style, before ++ [.build style] <+: calls →
      Finishes "d" none before style := by
    intro before style hbefore
    have hgrid : ∀ call ∈ calls, call.grid? = none := by simp [calls, Call.grid?]
    have hsubset := ((List.prefix_append before _).trans hbefore).subset
    have hnone : before.filterMap Call.grid? = [] :=
      List.filterMap_eq_nil_iff.2 fun call hcall => hgrid call (hsubset hcall)
    refine .inr (Diagram.gridEnds_of_hidden ?_)
    show some ((last? Call.grid? before).getD false) = some false
    rw [last?, hnone]
    rfl
  obtain ⟨⟨b, built⟩, hrun⟩ := Option.isSome_iff_exists.1 (hends.2 hlooks)
  obtain ⟨hfinishes, hfinished⟩ := (hdescribes b built hrun).2.2 {}
  obtain ⟨d, hd⟩ := Option.isSome_iff_exists.1
    (hfinishes.2 (.inr (Diagram.gridEnds_of_hidden rfl)))
  have hnamed : ∃ c ∈ "d".toList, Text.isBlank c = false := ⟨'d', List.mem_singleton_self _, rfl⟩
  refine ⟨b, built, d, hrun, hd, (hfinished d hd).2.2 ⟨hnamed, ?_, ?_, ?_, ?_, ?_, ?_, ?_⟩⟩
  all_goals decide

/-- A run with a look at a grid that is never finished does not come to an end. -/
theorem run_eq_none_of_grid {id : String} {size : Option (Float × Float)} {style : Style}
    (h : ¬ (described id size [.showGrid true]).GridEnds style) :
    (begun id size).run [.showGrid true, .build style] = none := by
  rw [← Option.not_isSome_iff_eq_none, isSome_run_iff]
  intro hends
  have hlook := hends [.showGrid true] style List.prefix_rfl
  rw [isSome_buildWith_foldl_iff] at hlook
  rcases hlook with hsupplied | hgrid
  · cases hsupplied
  · exact h hgrid

/-- A look at the grid of a wide canvas never ends, be its lines set close or far apart. -/
theorem build_never_ends :
    (begun "d" (some (1e18, 400))).run [.showGrid true, .build {}] = none ∧
      (begun "d" (some (1e300, 400))).run [.showGrid true, .build { gridSpacing := 1e280 }] =
        none :=
  ⟨run_eq_none_of_grid (Drawing.not_gridEnds_wide rfl rfl),
    run_eq_none_of_grid (Drawing.not_gridEnds_huge rfl rfl)⟩

end Builder

end FreeBody
