import FreeBody.Diagram.Issue
import FreeBody.Proofs.Text.Lines
import Mathlib.Data.List.Nodup

/-!
# What is reported of a diagram

A diagram without reported problems is a valid one: it has a name and a size, no two elements of a
kind share an id, and forces and moments act at points that are there (`issues_exact`).  Of all
other diagrams the problems are told one by one and in a fixed order: those of the canvas, then
every id that is used again, at each further use, then the forces and at last the moments without
a point, with their places.
-/

namespace FreeBody

/-! ## Ids that are used again -/

/-- The names that stand further in front in the list as well, at each such place. -/
def laterUses (ids : List String) : List String :=
  (ids.zipIdx.filter fun e => e.1 ∈ ids.take e.2).map Prod.fst

/-- What was seen is what stands in front. -/
theorem repeats_eq_of_front {front seen : List String} (hseen : ∀ x, x ∈ seen ↔ x ∈ front)
    (rest : List String) : repeats seen rest =
      ((rest.zipIdx front.length).filter fun e => e.1 ∈ (front ++ rest).take e.2).map Prod.fst := by
  induction rest generalizing front seen with
  | nil => rfl
  | cons x rest ih =>
    have hhead : (front ++ x :: rest).take front.length = front := List.take_left
    have hnext : ∀ seen' : List String, (∀ y, y ∈ seen' ↔ y ∈ front ++ [x]) →
        repeats seen' rest = ((rest.zipIdx (front.length + 1)).filter fun e =>
          e.1 ∈ (front ++ x :: rest).take e.2).map Prod.fst := by
      intro seen' hseen'
      have := ih hseen'
      rwa [List.length_append, List.length_singleton, List.append_assoc,
        List.singleton_append] at this
    rw [repeats, List.zipIdx_cons]
    by_cases hx : x ∈ front
    · rw [if_pos (List.contains_iff_mem.2 ((hseen x).2 hx)),
        List.filter_cons_of_pos (by simpa [hhead] using hx), List.map_cons,
        hnext seen fun y => ?_]
      rw [hseen, List.mem_append, List.mem_singleton]
      exact ⟨Or.inl, fun h => h.elim id fun hy => hy ▸ hx⟩
    · rw [if_neg fun h => hx ((hseen x).1 (List.contains_iff_mem.1 h)),
        List.filter_cons_of_neg (by simpa [hhead] using hx), hnext (x :: seen) fun y => ?_]
      rw [List.mem_cons, hseen, List.mem_append, List.mem_singleton, or_comm]

theorem repeats_eq_laterUses (ids : List String) : repeats [] ids = laterUses ids := by
  have hseen : ∀ x, x ∈ ([] : List String) ↔ x ∈ ([] : List String) := fun _ => Iff.rfl
  exact repeats_eq_of_front hseen ids

/-- A name that was seen is told at every use, another at every use but the first. -/
theorem count_repeats (x : String) (seen ids : List String) :
    (repeats seen ids).count x = if x ∈ seen then ids.count x else ids.count x - 1 := by
  induction ids generalizing seen with
  | nil => simp [repeats]
  | cons y ids ih =>
    rw [repeats]
    by_cases hy : y ∈ seen
    · rw [if_pos (List.contains_iff_mem.2 hy), List.count_cons, ih, List.count_cons]
      by_cases hx : x ∈ seen
      · rw [if_pos hx, if_pos hx]
      · have hne : ¬ (y == x) = true := fun h => hx (beq_iff_eq.1 h ▸ hy)
        rw [if_neg hx, if_neg hx, if_neg hne]
        rfl
    · rw [if_neg fun h => hy (List.contains_iff_mem.1 h), ih, List.count_cons]
      by_cases hxy : y = x
      · subst hxy
        simp [hy]
      · have hne : ¬ x = y := fun h => hxy h.symm
        simp [hxy, hne]

/-- Every name is told once for each of its uses but the first. -/
theorem count_laterUses (x : String) (ids : List String) :
    (laterUses ids).count x = ids.count x - 1 := by
  rw [← repeats_eq_laterUses, count_repeats, if_neg List.not_mem_nil]

theorem laterUses_eq_nil_iff {ids : List String} : laterUses ids = [] ↔ ids.Nodup := by
  rw [List.nodup_iff_count_le_one, List.eq_nil_iff_forall_not_mem]
  constructor
  · intro h x
    have hnone := List.count_eq_zero.2 (h x)
    rw [count_laterUses] at hnone
    omega
  · intro h x
    have hx := h x
    rw [← List.count_eq_zero, count_laterUses]
    omega

/-! ## Forces and moments without a point -/

namespace Diagram

/-- Whether the diagram has a point called `id`. -/
def HasPoint (d : Diagram) (id : String) : Prop := ∃ p ∈ d.points, p.id = id

theorem hasPoint_iff_mem {d : Diagram} {id : String} : d.HasPoint id ↔ id ∈ d.points.map Point.id :=
  List.mem_map.symm

instance (d : Diagram) : DecidablePred d.HasPoint := fun _ =>
  decidable_of_iff _ hasPoint_iff_mem.symm

end Diagram

/-- What names no known point is told with its place. -/
theorem dangling_eq_filter {α : Type} (known : List String) (name : α → String) (index : Nat)
    (xs : List α) : dangling known index (xs.map name) =
      ((xs.zipIdx index).filter fun e => name e.1 ∉ known).map fun e => (e.2, name e.1) := by
  induction xs generalizing index with
  | nil => rfl
  | cons x xs ih =>
    rw [List.map_cons, dangling, List.zipIdx_cons, ih]
    by_cases hx : name x ∈ known
    · rw [if_pos (List.contains_iff_mem.2 hx), List.filter_cons_of_neg (by simpa using hx)]
    · rw [if_neg fun h => hx (List.contains_iff_mem.1 h),
        List.filter_cons_of_pos (by simpa using hx), List.map_cons]

/-! ## The report -/

/-- Whether a canvas may have this size: a finite positive number. -/
def IsSize (size : Float) : Prop := size.isFinite = true ∧ 0 < size

instance (size : Float) : Decidable (IsSize size) :=
  inferInstanceAs (Decidable (size.isFinite = true ∧ 0 < size))

theorem isExtent_iff {size : Float} : isExtent size = true ↔ IsSize size := by
  rw [isExtent, Bool.and_eq_true, decide_eq_true_iff, IsSize]

namespace Diagram

/-- Whether the diagram has a name that is not blank. -/
def IsNamed (d : Diagram) : Prop := ∃ c ∈ d.id.toList, Text.isBlank c = false

instance (d : Diagram) : Decidable d.IsNamed :=
  List.decidableBEx (fun c => Text.isBlank c = false) d.id.toList

/-- A diagram with a name, a finite positive size, ids that are used once within their kind, and
points for all its forces and moments. -/
structure Valid (d : Diagram) : Prop where
  named : d.IsNamed
  width : IsSize d.width
  height : IsSize d.height
  points : (d.points.map Point.id).Nodup
  forces : (d.forces.map Force.id).Nodup
  moments : (d.moments.map Moment.id).Nodup
  forcesAnchored : ∀ f ∈ d.forces, d.HasPoint f.point
  momentsAnchored : ∀ m ∈ d.moments, d.HasPoint m.point

theorem canvasIssues_eq (d : Diagram) : d.canvasIssues =
    (if d.IsNamed then [] else [Issue.missingId]) ++
      (if IsSize d.width then [] else [Issue.invalidWidth d.width]) ++
      (if IsSize d.height then [] else [Issue.invalidHeight d.height]) := by
  have hname : (Text.trim d.id.toList).isEmpty = true ↔ ¬ d.IsNamed := by
    rw [List.isEmpty_iff, Text.trim_eq_nil_iff, IsNamed]
    simp [Text.Blank]
  simp only [canvasIssues, hname, isExtent_iff, ite_not]

theorem danglingIssues_eq (d : Diagram) : d.danglingIssues =
    (d.forces.zipIdx.filter fun e => ¬ d.HasPoint e.1.point).map
        (fun e => Issue.danglingForce e.2 e.1.point) ++
      (d.moments.zipIdx.filter fun e => ¬ d.HasPoint e.1.point).map
        (fun e => Issue.danglingMoment e.2 e.1.point) := by
  simp only [danglingIssues, dangling_eq_filter, List.map_map, hasPoint_iff_mem]
  rfl

/-- The forces that are reported are those without a point. -/
theorem danglingForce_mem_issues {d : Diagram} {i : Nat} {f : Force} (h : d.forces[i]? = some f) :
    (∃ name, .danglingForce i name ∈ d.issues) ↔ ¬ d.HasPoint f.point := by
  simp [issues, canvasIssues_eq, duplicateIssues, danglingIssues_eq, List.mem_zipIdx_iff_getElem?,
    h]

/-- The moments that are reported are those without a point. -/
theorem danglingMoment_mem_issues {d : Diagram} {i : Nat} {m : Moment}
    (h : d.moments[i]? = some m) :
    (∃ name, .danglingMoment i name ∈ d.issues) ↔ ¬ d.HasPoint m.point := by
  simp [issues, canvasIssues_eq, duplicateIssues, danglingIssues_eq, List.mem_zipIdx_iff_getElem?,
    h]

/-- A list of zipped elements without those that satisfy `p` is empty when all do. -/
theorem filter_zipIdx_eq_nil_iff {α : Type} {p : α → Prop} [DecidablePred p] (xs : List α) :
    (xs.zipIdx.filter fun e => ¬ p e.1) = [] ↔ ∀ x ∈ xs, p x := by
  rw [List.filter_eq_nil_iff]
  constructor
  · intro h x hx
    obtain ⟨i, hi⟩ := List.mem_iff_getElem?.1 hx
    simpa using h (x, i) (List.mk_mem_zipIdx_iff_getElem?.2 hi)
  · intro h e he
    simpa using h e.1 (List.mem_iff_getElem?.2 ⟨e.2, List.mk_mem_zipIdx_iff_getElem?.1 he⟩)

theorem issues_eq_nil_iff {d : Diagram} : d.issues = [] ↔ d.Valid := by
  have hone {c : Prop} [Decidable c] {i : Issue} : (if c then [] else [i]) = [] ↔ c := by
    by_cases hc : c <;> simp [hc]
  have hforces := filter_zipIdx_eq_nil_iff (p := fun f => d.HasPoint f.point) d.forces
  have hmoments := filter_zipIdx_eq_nil_iff (p := fun m => d.HasPoint m.point) d.moments
  rw [issues, canvasIssues_eq, duplicateIssues, danglingIssues_eq]
  simp only [repeats_eq_laterUses, List.append_eq_nil_iff, List.map_eq_nil_iff, hone,
    laterUses_eq_nil_iff, hforces, hmoments]
  constructor
  · rintro ⟨⟨⟨⟨named, width⟩, height⟩, ⟨points, forces⟩, moments⟩, anchored, anchored'⟩
    exact ⟨named, width, height, points, forces, moments, anchored, anchored'⟩
  · intro h
    exact ⟨⟨⟨⟨h.named, h.width⟩, h.height⟩, ⟨h.points, h.forces⟩, h.moments⟩, h.forcesAnchored,
      h.momentsAnchored⟩

/-- **The report is exact.**  Nothing is reported of a valid diagram and of no other.  Otherwise
the report has, in this order, what is wrong with the canvas, the ids of points, of forces and of
moments at each of their later uses, and the forces and the moments without a point, by their
places. -/
theorem issues_exact (d : Diagram) :
    (d.issues = [] ↔ d.Valid) ∧
      d.issues =
        (if d.IsNamed then [] else [Issue.missingId]) ++
          (if IsSize d.width then [] else [Issue.invalidWidth d.width]) ++
          (if IsSize d.height then [] else [Issue.invalidHeight d.height]) ++
        ((laterUses (d.points.map Point.id)).map (Issue.duplicateId .point) ++
          (laterUses (d.forces.map Force.id)).map (Issue.duplicateId .force) ++
          (laterUses (d.moments.map Moment.id)).map (Issue.duplicateId .moment)) ++
        ((d.forces.zipIdx.filter fun e => ¬ d.HasPoint e.1.point).map
            (fun e => Issue.danglingForce e.2 e.1.point) ++
          (d.moments.zipIdx.filter fun e => ¬ d.HasPoint e.1.point).map
            (fun e => Issue.danglingMoment e.2 e.1.point)) := by
  refine ⟨issues_eq_nil_iff, ?_⟩
  rw [issues, canvasIssues_eq, danglingIssues_eq, duplicateIssues]
  simp only [repeats_eq_laterUses]

end Diagram

end FreeBody
