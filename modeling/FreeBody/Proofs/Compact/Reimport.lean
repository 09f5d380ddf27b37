import FreeBody.Proofs.Compact.Reading
import FreeBody.Proofs.Compact.RoundTrip

/-!
# Writing what was read

A diagram that was read from a custom text is not always read again when it is written.  Without
forces its options move up to the place of the forces; a force whose label is only blanks is written
without one; a number too large for a double is written as a word.  These are the only reasons
(`reread_iff`).
-/

namespace FreeBody.Compact

/-! ## What a custom text says -/

theorem bar_not_mem_sections (s : List Char) :
    '|' ∉ (sections s).1 ∧ '|' ∉ (sections s).2.1 ∧ '|' ∉ (sections s).2.2 := by
  have hcut (n : Nat) : '|' ∉ ((Text.pieces '|' s).map Text.trim).getD n [] := by
    rw [List.getD_eq_getElem?_getD, List.getElem?_map]
    rcases hpiece : (Text.pieces '|' s)[n]? with _ | piece
    · exact List.not_mem_nil
    · exact fun h => Text.not_mem_of_mem_pieces (List.mem_of_getElem? hpiece)
        (Text.mem_of_mem_trim h)
  exact ⟨hcut 0, hcut 1, hcut 2⟩

/-- What is known of the diagram of a custom text called `id`. -/
structure IsCustom (id : String) (d : Diagram) : Prop where
  points_ne_nil : d.points ≠ []
  points : ∀ p ∈ d.points, p.Expressible
  forces : ∀ f ∈ d.forces, f.Expressible
  axes : d.showAxes ≠ none
  grid : d.showGrid ≠ none
  redrawn : redrawn id d.points d.forces d.showAxes d.showGrid d.showAngles = d

section

variable {s : List Char} {id : String} {p : Parsed}

theorem isCustom_of_readSections (h : readSections s id = .ok p) : IsCustom id p.diagram := by
  obtain ⟨hbar, hbar', -⟩ := bar_not_mem_sections s
  obtain ⟨hne, rfl⟩ := readSections_eq_ok_iff.1 h
  obtain ⟨axes, grid, angles, hb⟩ :=
    flagsSet_readOptions (b := filled id s) ⟨true, false, none, rfl⟩ (sections s).2.2
  simp only [hb]
  exact {
    points_ne_nil := hne
    points := fun q hq => expressible_of_readPoints hbar hq
    forces := fun f hf => expressible_of_readForces hbar' hf
    axes := Option.some_ne_none axes
    grid := Option.some_ne_none grid
    redrawn := rfl }

/-- Every section adds its own warnings. -/
theorem warnings_of_readSections (h : readSections s id = .ok p) (hclean : p.warnings = []) :
    (readPoints (sections s).1).2 = [] ∧ (readForces (sections s).2.1).2 = [] := by
  obtain ⟨-, rfl⟩ := readSections_eq_ok_iff.1 h
  rw [List.append_eq_nil_iff, List.append_eq_nil_iff] at hclean
  exact hclean.1

end

/-- A text without the tag of a preset call is read in sections. -/
theorem isCustom_of_read {r : Registry} {text id : String} {p : Parsed}
    (hcustom : ¬"PRESET:".toList <+: Text.trim text.toList) (h : read r text id = .ok p) :
    IsCustom id p.diagram := by
  rcases read_cases h with ⟨rest, -, -, htag, -⟩ | ⟨-, hsections⟩
  · exact absurd ⟨rest, htag.symm⟩ hcustom
  · exact isCustom_of_readSections hsections

/-! ## Reading again -/

/-- An option is no force. -/
theorem fails_option {key : String} (hk : IsWord key) (on : Bool) :
    forces.Fails (key ++ "=" ++ onText on).toList where
  ne_nil := (isElementText_option hk on).ne_nil
  start rest := by
    rw [String.toList_append, String.toList_append, List.append_assoc, List.append_assoc]
    exact stops_isSpace_word hk _
  read rest := by
    have htext : (key ++ "=" ++ onText on).toList ++ rest =
        key.toList ++ '=' :: ((onText on).toList ++ rest) := by
      simp
    show force? _ = _
    rw [htext]
    unfold force?
    simp only [ident?_append hk (by decide : isIdentChar '=' = false),
      char?_cons_ne (by decide : '=' ≠ '@'), Option.bind_eq_bind, Option.bind_some,
      Option.bind_none]

theorem readForces_options_warnings {axes grid angles : Option Bool} (h : axes ≠ none) :
    (readForces (joined (optionTexts axes grid angles))).2 ≠ [] := by
  have hfails : ∀ o ∈ settings axes grid angles,
      forces.Fails (o.1 ++ "=" ++ onText o.2).toList :=
    fun o ho => fails_option (isWord_of_mem_settings o ho) o.2
  obtain ⟨on, rfl⟩ := Option.ne_none_iff_exists'.1 h
  have hmem : ("axes", on) ∈ settings (some on) grid angles := List.mem_cons_self
  obtain ⟨token, htoken, hnone⟩ := Scanner.exists_none_of_fails
    (fun o ho => Or.inr (hfails o ho)) ⟨_, hmem, hfails _ hmem⟩
  rw [readForces_eq, optionTexts_eq, joined, List.map_map, Function.comp_def, Ne,
    List.flatMap_eq_nil_iff]
  intro hnil
  have := hnil token htoken
  rw [collectForce, hnone] at this
  cases this

/-- A diagram of a custom text comes back whole, without a warning, exactly if it has a force, no
force has an empty label and all its numbers are finite. -/
theorem reread_iff (r : Registry) {text id : String} {p : Parsed}
    (hcustom : ¬"PRESET:".toList <+: Text.trim text.toList) (hread : read r text id = .ok p) :
    (∃ q, read r (write p.diagram) id = .ok q ∧ q.warnings = [] ∧ q.diagram = p.diagram) ↔
      p.diagram.forces ≠ [] ∧ (∀ f ∈ p.diagram.forces, f.Legible) ∧
        ∀ point ∈ p.diagram.points, point.Legible := by
  have hd := isCustom_of_read hcustom hread
  have hsections := sections_write hd.points hd.forces hd.points_ne_nil hd.axes
  constructor
  · rintro ⟨q, hq, hclean, -⟩
    rw [read_eq_readSections r hd.points hd.forces hd.points_ne_nil hd.axes] at hq
    obtain ⟨hpoints, hforces⟩ := warnings_of_readSections hq hclean
    rw [hsections] at hpoints hforces
    by_cases hnil : p.diagram.forces = []
    · rw [if_pos hnil] at hforces
      exact absurd hforces (readForces_options_warnings hd.axes)
    · rw [if_neg hnil] at hpoints hforces
      refine ⟨hnil, fun f hf => ?_, fun point hpoint => ?_⟩
      · by_contra hbad
        exact readForces_write_warnings hd.forces ⟨f, hf, hbad⟩ hforces
      · by_contra hbad
        exact readPoints_write_warnings hd.points ⟨point, hpoint, hbad⟩ hpoints
  · rintro ⟨hforces, hf, hp⟩
    exact ⟨_, read_write_eq r (fun p h => ⟨hd.points p h, hp p h⟩)
      (fun f h => ⟨hd.forces f h, hf f h⟩) hd.points_ne_nil hforces hd.axes hd.grid id, rfl,
      hd.redrawn⟩

/-- A text with a blank in a label comes back whole. -/
theorem reread_labelled_force :
    ∃ p, read Registry.builtin "P1(1,-0.5) | F@P1(3,4, two words ,weight)" "q" = .ok p ∧
      ∃ q, read Registry.builtin (write p.diagram) "q" = .ok q ∧ q.warnings = [] ∧
        q.diagram = p.diagram := by
  have hcheck : (read Registry.builtin "P1(1,-0.5) | F@P1(3,4, two words ,weight)"
      "q").toOption.map (fun p => !p.diagram.forces.isEmpty &&
        p.diagram.forces.all (fun f => f.magnitude.isFinite && f.angle.isFinite && f.label != "") &&
        p.diagram.points.all fun p => p.x.isFinite && p.y.isFinite) = some true := by
    decide +kernel
  rcases h : read Registry.builtin "P1(1,-0.5) | F@P1(3,4, two words ,weight)" "q" with e | p
  · rw [h] at hcheck
    cases hcheck
  · rw [h] at hcheck
    replace hcheck := Option.some.inj hcheck
    simp only [Bool.and_eq_true, Bool.not_eq_true', List.isEmpty_eq_false_iff, List.all_eq_true,
      bne_iff_ne] at hcheck
    obtain ⟨⟨hforces, hf⟩, hp⟩ := hcheck
    refine ⟨p, rfl, (reread_iff Registry.builtin (by decide) h).2
      ⟨hforces, fun f hmem => ?_, fun q hmem => ⟨(hp q hmem).1, (hp q hmem).2⟩⟩⟩
    exact ⟨(hf f hmem).1.1, (hf f hmem).1.2, (hf f hmem).2⟩

/-- Options without forces come back as warnings, and so does a force with a blank label. -/
theorem warnings_on_rereading :
    let warnings (text : String) : Option (Nat × Nat) := do
      let p ← (read Registry.builtin text "q").toOption
      let q ← (read Registry.builtin (write p.diagram) "q").toOption
      pure (p.warnings.length, q.warnings.length)
    warnings "P1(1,2) | | axes=false angles=true" = some (0, 3) ∧
      warnings "P1(1,2) | F1@P1(3,4, )" = some (0, 1) := by
  decide +kernel

end FreeBody.Compact
