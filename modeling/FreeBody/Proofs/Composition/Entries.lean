import FreeBody.Composition.Assembly

/-!
# What becomes of the entries

Each entry is run on its own.  The children of a composition and the entries that were set aside
are the two halves of the numbered entries (`children_eq_filterMap`, `skipped_eq_filterMap`): an
entry is in the one or the other by its own run, and their numbers rise.
-/

namespace FreeBody.Composition

section

variable {r : Registry} {id : String} {index : Nat} {e : Entry} {entries : List Entry}

theorem runEntry_eq_ok_iff {d : Diagram} :
    runEntry r id index e = .ok d ↔
      r.generate? e.preset (childId id index) e.args = some (.ok d) := by
  unfold runEntry
  split
  next h => rw [h]; simp
  next h => rw [h]; simp
  next h => rw [h]; simp

theorem runEntry_eq_error_iff {reason : SkipReason} :
    runEntry r id index e = .error reason ↔
      (r.get? e.preset = none ∧ reason = .unknownPreset) ∨
        ∃ err, r.generate? e.preset (childId id index) e.args = some (.error err) ∧
          reason = .generator err := by
  unfold runEntry Registry.generate?
  cases r.get? e.preset with
  | none => simp [eq_comm]
  | some g =>
    cases hrun : (g (childId id index) e.args).result with
    | ok d => simp [hrun]
    | error err => simp [hrun, eq_comm]

/-! ## The two halves -/

/-- The child that an entry gives. -/
def child? (r : Registry) (id : String) (p : Entry × Nat) : Option Child :=
  match runEntry r id p.2 p.1 with
  | .ok d => some ⟨p.2, p.1, d⟩
  | .error _ => none

/-- The account of an entry that is set aside. -/
def skipped? (r : Registry) (id : String) (p : Entry × Nat) : Option Skipped :=
  match runEntry r id p.2 p.1 with
  | .ok _ => none
  | .error reason => some ⟨p.2, p.1.preset, reason⟩

theorem children_eq_filterMap (r : Registry) (id : String) (index : Nat) (entries : List Entry) :
    children r id index entries = (entries.zipIdx index).filterMap (child? r id) := by
  induction entries generalizing index with
  | nil => rfl
  | cons e rest ih =>
    rw [children, List.zipIdx_cons, List.filterMap_cons, child?, ih]
    cases runEntry r id index e <;> rfl

theorem skipped_eq_filterMap (r : Registry) (id : String) (index : Nat) (entries : List Entry) :
    skipped r id index entries = (entries.zipIdx index).filterMap (skipped? r id) := by
  induction entries generalizing index with
  | nil => rfl
  | cons e rest ih =>
    rw [skipped, List.zipIdx_cons, List.filterMap_cons, skipped?, ih]
    cases runEntry r id index e <;> rfl

theorem child?_eq_some_iff {p : Entry × Nat} {c : Child} :
    child? r id p = some c ↔
      c.index = p.2 ∧ c.entry = p.1 ∧ runEntry r id p.2 p.1 = .ok c.diagram := by
  obtain ⟨index, entry, diagram⟩ := c
  unfold child?
  cases runEntry r id p.2 p.1 <;> simp [eq_comm]

theorem skipped?_eq_some_iff {p : Entry × Nat} {q : Skipped} :
    skipped? r id p = some q ↔
      q.index = p.2 ∧ q.preset = p.1.preset ∧ runEntry r id p.2 p.1 = .error q.reason := by
  obtain ⟨index, preset, reason⟩ := q
  unfold skipped?
  cases runEntry r id p.2 p.1 <;> simp [eq_comm]

theorem mem_children_iff {c : Child} :
    c ∈ children r id 0 entries ↔
      entries[c.index]? = some c.entry ∧ runEntry r id c.index c.entry = .ok c.diagram := by
  rw [children_eq_filterMap, List.mem_filterMap]
  simp only [child?_eq_some_iff]
  constructor
  · rintro ⟨⟨e, i⟩, hmem, rfl, rfl, hrun⟩
    exact ⟨List.mk_mem_zipIdx_iff_getElem?.1 hmem, hrun⟩
  · rintro ⟨hentry, hrun⟩
    exact ⟨(c.entry, c.index), List.mk_mem_zipIdx_iff_getElem?.2 hentry, rfl, rfl, hrun⟩

theorem mem_skipped_iff {q : Skipped} :
    q ∈ skipped r id 0 entries ↔
      ∃ e, entries[q.index]? = some e ∧ q.preset = e.preset ∧
        runEntry r id q.index e = .error q.reason := by
  rw [skipped_eq_filterMap, List.mem_filterMap]
  simp only [skipped?_eq_some_iff]
  constructor
  · rintro ⟨⟨e, i⟩, hmem, rfl, hpreset, hrun⟩
    exact ⟨e, List.mk_mem_zipIdx_iff_getElem?.1 hmem, hpreset, hrun⟩
  · rintro ⟨e, hentry, hpreset, hrun⟩
    exact ⟨(e, q.index), List.mk_mem_zipIdx_iff_getElem?.2 hentry, rfl, hpreset, hrun⟩

/-- Numbers rise among what is taken of numbered entries. -/
theorem pairwise_filterMap_zipIdx {β : Type} {f : Entry × Nat → Option β} {number : β → Nat}
    (hf : ∀ p b, f p = some b → number b = p.2) (index : Nat) (entries : List Entry) :
    ((entries.zipIdx index).filterMap f).Pairwise fun b b' => number b < number b' := by
  have hrising : ((entries.zipIdx index).map Prod.snd).Pairwise (· < ·) := by
    rw [List.zipIdx_map_snd]
    exact List.pairwise_lt_range'
  rw [List.pairwise_map] at hrising
  refine List.pairwise_filterMap.2 (hrising.imp ?_)
  intro p p' hlt b hb b' hb'
  rw [hf p b hb, hf p' b' hb']
  exact hlt

/-- Children have rising numbers. -/
theorem children_rising (r : Registry) (id : String) (index : Nat) (entries : List Entry) :
    (children r id index entries).Pairwise fun c c' => c.index < c'.index := by
  rw [children_eq_filterMap]
  exact pairwise_filterMap_zipIdx (fun _ _ h => (child?_eq_some_iff.1 h).1) index entries

theorem skipped_rising (r : Registry) (id : String) (index : Nat) (entries : List Entry) :
    (skipped r id index entries).Pairwise fun q q' => q.index < q'.index := by
  rw [skipped_eq_filterMap]
  exact pairwise_filterMap_zipIdx (fun _ _ h => (skipped?_eq_some_iff.1 h).1) index entries

end

end FreeBody.Composition
