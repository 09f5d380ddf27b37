import FreeBody.Compact.Reader
import FreeBody.Proofs.Compact.Sections
import FreeBody.Proofs.Compact.Spelling

/-!
# What is read

Every point and force that is read from a section without bars can be written again: its names are
words and its labels are trimmed and have no character that ends one (`expressible_of_readPoints`,
`expressible_of_readForces`).  Options change nothing but the flags, and leave those for axes and
grid set (`flagsSet_readOptions`).
-/

namespace FreeBody.Compact

/-! ## Elements -/

theorem isWord_ofList {text : List Char} (h : IsName text) : IsWord (String.ofList text) :=
  ⟨by rw [String.toList_ofList]; exact h.1, by rw [String.toList_ofList]; exact h.2⟩

theorem PointText.IsWritten.isName {t : PointText} {text : List Char} (h : t.IsWritten text) :
    IsName t.id := by
  cases h
  assumption

/-- The label of a point is a part of its text. -/
theorem PointText.IsWritten.isLabel {t : PointText} {text : List Char} (h : t.IsWritten text) :
    ∀ l ∈ t.label, IsLabelText l ∧ ∀ c ∈ l, c ∈ text := by
  obtain ⟨-, -, -, hlabel⟩ := h
  intro l hl
  cases hlabel with
  | none => cases hl
  | some h =>
    obtain rfl := Option.some.inj hl
    obtain ⟨hlabel, rfl⟩ := h
    exact ⟨hlabel, fun c hc => by simp [hc]⟩

theorem ForceText.IsWritten.isName {t : ForceText} {text : List Char} (h : t.IsWritten text) :
    IsName t.id ∧ IsName t.point := by
  obtain ⟨hid, hpoint⟩ := h
  exact ⟨hid, hpoint⟩

theorem ForceText.IsWritten.isLabel {t : ForceText} {text : List Char} (h : t.IsWritten text) :
    IsLabelText t.label ∧ ∀ c ∈ t.label, c ∈ text := by
  obtain ⟨-, -, -, -, hlabel⟩ := h
  exact ⟨hlabel, fun c hc => by simp [hc]⟩

section

variable {s text : List Char}

theorem isLabel_ofList_trim {l : List Char} (hbar : '|' ∉ text)
    (h : IsLabelText l ∧ ∀ c ∈ l, c ∈ text) : IsLabel (String.ofList (Text.trim l)) where
  trimmed := by rw [String.toList_ofList, Text.trim_trim]
  inner := by
    rw [String.toList_ofList]
    intro c hc
    have hl := Text.mem_of_mem_trim hc
    exact ⟨(h.1.2 c hl).1, (h.1.2 c hl).2, fun heq => hbar (heq ▸ h.2 c hl)⟩

theorem expressible_of_point? {t : PointText} {p : Point} (hbar : '|' ∉ text)
    (hwritten : t.IsWritten text) (hp : t.point? = some p) : p.Expressible := by
  obtain ⟨x, -, hp⟩ := Option.bind_eq_some_iff.1 hp
  obtain ⟨y, -, hp⟩ := Option.bind_eq_some_iff.1 hp
  obtain rfl := Option.some.inj hp
  refine ⟨isWord_ofList hwritten.isName, ?_, rfl⟩
  intro l hl
  obtain ⟨text, htext, rfl⟩ := Option.map_eq_some_iff.1 hl
  obtain ⟨hmem, hne⟩ := Option.filter_eq_some_iff.1 htext
  obtain ⟨label, hsome, rfl⟩ := Option.map_eq_some_iff.1 hmem
  refine ⟨?_, isLabel_ofList_trim hbar (hwritten.isLabel label hsome)⟩
  intro hempty
  rw [String.ofList_eq_empty_iff] at hempty
  rw [hempty] at hne
  cases hne

theorem eq_plain_of_force? {t : ForceText} {f : Force} {warnings : List Warning}
    (h : t.force? = some (f, warnings)) : ∃ magnitude angle kind,
      f = .plain (String.ofList t.id) (String.ofList t.point) magnitude angle
        (String.ofList (Text.trim t.label)) kind := by
  obtain ⟨magnitude, -, h⟩ := Option.bind_eq_some_iff.1 h
  obtain ⟨angle, -, h⟩ := Option.bind_eq_some_iff.1 h
  simp only at h
  split at h
  next =>
    obtain ⟨rfl, -⟩ := Prod.mk.inj (Option.some.inj h)
    exact ⟨magnitude, angle, none, rfl⟩
  next =>
    split at h
    next k _ =>
      obtain ⟨rfl, -⟩ := Prod.mk.inj (Option.some.inj h)
      exact ⟨magnitude, angle, some k, rfl⟩
    next =>
      obtain ⟨rfl, -⟩ := Prod.mk.inj (Option.some.inj h)
      exact ⟨magnitude, angle, none, rfl⟩

theorem expressible_of_force? {t : ForceText} {f : Force} {warnings : List Warning}
    (hbar : '|' ∉ text) (hwritten : t.IsWritten text)
    (hf : t.force? = some (f, warnings)) : f.Expressible := by
  obtain ⟨magnitude, angle, kind, rfl⟩ := eq_plain_of_force? hf
  exact ⟨isWord_ofList hwritten.isName.1, isWord_ofList hwritten.isName.2,
    isLabel_ofList_trim hbar hwritten.isLabel, rfl, rfl⟩

/-! ## Sections -/

theorem expressible_of_readPoints (hbar : '|' ∉ s) {p : Point} (hp : p ∈ (readPoints s).1) :
    p.Expressible := by
  rw [readPoints_eq] at hp
  obtain ⟨token, htoken, hp⟩ := List.mem_flatMap.1 hp
  unfold collectPoint at hp
  rcases hbind : token.element.bind PointText.point? with _ | q
  · rw [hbind] at hp
    cases hp
  · rw [hbind, List.mem_singleton] at hp
    subst hp
    obtain ⟨t, helement, ht⟩ := Option.bind_eq_some_iff.1 hbind
    obtain ⟨hwritten, hmem⟩ := (Scanner.spells_tokens point?_sound s).isWritten htoken helement
    exact expressible_of_point? (fun h => hbar (hmem _ h)) hwritten ht

theorem expressible_of_readForces (hbar : '|' ∉ s) {f : Force} (hf : f ∈ (readForces s).1) :
    f.Expressible := by
  rw [readForces_eq] at hf
  obtain ⟨token, htoken, hf⟩ := List.mem_flatMap.1 hf
  unfold collectForce at hf
  rcases hbind : token.element.bind ForceText.force? with _ | ⟨g, warnings⟩
  · rw [hbind] at hf
    cases hf
  · rw [hbind, List.mem_singleton] at hf
    subst hf
    obtain ⟨t, helement, ht⟩ := Option.bind_eq_some_iff.1 hbind
    obtain ⟨hwritten, hmem⟩ := (Scanner.spells_tokens force?_sound s).isWritten htoken helement
    exact expressible_of_force? (fun h => hbar (hmem _ h)) hwritten ht

/-- Whether a builder differs from `b` in its flags only, with axes and grid set. -/
def FlagsSet (b b' : Builder) : Prop :=
  ∃ axes grid angles, b' = ⟨{ b.diagram with
    showAxes := some axes, showGrid := some grid, showAngles := angles }⟩

theorem flagsSet_setOption {b b' : Builder} (h : FlagsSet b b') (o : OptionText) :
    FlagsSet b (setOption b' o).1 := by
  obtain ⟨axes, grid, angles, rfl⟩ := h
  unfold setOption
  simp only
  split
  · exact ⟨_, _, _, rfl⟩
  · exact ⟨_, _, _, rfl⟩
  · exact ⟨_, _, _, rfl⟩
  · exact ⟨_, _, _, rfl⟩

/-- Options change nothing but the flags. -/
theorem flagsSet_readOptions {b : Builder} (h : FlagsSet b b) (s : List Char) :
    FlagsSet b (readOptions b s).1 := by
  unfold readOptions
  refine List.foldlRecOn (motive := fun acc : Builder × List Warning => FlagsSet b acc.1) _ _ h ?_
  intro acc hacc token _
  rcases token.element with _ | o
  · exact hacc
  · exact flagsSet_setOption hacc o

/-- The diagram in the making with the points and forces of a text. -/
def filled (id : String) (s : List Char) : Builder :=
  ⟨{ (Builder.ofSize id 600 400).diagram with
      points := (readPoints (sections s).1).1
      forces := (readForces (sections s).2.1).1 }⟩

theorem readSections_eq_ok_iff {id : String} {p : Parsed} :
    readSections s id = .ok p ↔ (readPoints (sections s).1).1 ≠ [] ∧
      p = ⟨(readOptions (filled id s) (sections s).2.2).1.finish (gridEnds_readOptions rfl rfl _),
        (readPoints (sections s).1).2 ++ (readForces (sections s).2.1).2 ++
          (readOptions (filled id s) (sections s).2.2).2⟩ := by
  unfold readSections
  simp only [List.isEmpty_iff]
  by_cases hnil : (readPoints (sections s).1).1 = []
  · rw [if_pos hnil]
    simp [hnil]
  · rw [if_neg hnil, Except.ok.injEq, eq_comm]
    simp only [hnil, ne_eq, not_false_eq_true, true_and]
    rfl

/-! ## Texts -/

/-- The diagram of a call is made by the registry, or is a fallback figure. -/
theorem runPreset_eq_ok {r : Registry} {name id : String} {args : List Argument} {d : Diagram}
    (h : runPreset r name id args = .ok d) :
    r.generate? name id args = some (.ok d) ∨ Preset.fallback? name id args = some d := by
  unfold runPreset at h
  split at h
  next made hmade => exact .inl (Except.ok.inj h ▸ hmade)
  next =>
    split at h
    next figure hfallback => exact .inr (Except.ok.inj h ▸ hfallback)
    next => split at h <;> cases h

/-- A text is read as a call behind the tag, or else in sections. -/
theorem read_cases {r : Registry} {text id : String} {p : Parsed} (h : read r text id = .ok p) :
    (∃ rest call d, Text.trim text.toList = "PRESET:".toList ++ rest ∧
      readCall (Text.trim text.toList) rest = .ok call ∧ runCall r id call = .ok d ∧
        p = ⟨d, []⟩) ∨
    (¬"PRESET:".toList <+: Text.trim text.toList ∧
      readSections (Text.trim text.toList) id = .ok p) := by
  unfold read at h
  simp only at h
  split at h
  next => cases h
  next =>
  split at h
  next rest hprefix =>
    split at h
    next call hcall =>
      cases hrun : runCall r id call with
      | error e =>
        rw [hrun] at h
        cases h
      | ok d =>
        rw [hrun] at h
        exact Or.inl ⟨rest, call, d, Text.dropPrefix?_eq_some_iff.1 hprefix, hcall, hrun,
          (Except.ok.inj h).symm⟩
    next => cases h
  next hprefix =>
    refine Or.inr ⟨?_, h⟩
    rintro ⟨rest, hrest⟩
    rw [Text.dropPrefix?_eq_some_iff.2 hrest.symm] at hprefix
    cases hprefix

end

end FreeBody.Compact
