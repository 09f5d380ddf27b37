import FreeBody.Proofs.Compact.Element
import FreeBody.Proofs.Compact.Tokens

/-!
# Sections read back

A section of written points or forces reads back as these (`readPoints_write`,
`readForces_write`), and gives a warning if one of them cannot be read.  The options of a diagram
set its flags again (`readOptions_write`).
-/

namespace FreeBody.Compact

open Text (Stops)

/-- Texts with a blank between them. -/
def joined (texts : List String) : List Char := [' '].intercalate (texts.map String.toList)

theorem toList_intercalate_blank (texts : List String) :
    (String.intercalate " " texts).toList = joined texts := String.toList_intercalate

/-! ## Token by token -/

/-- What one token adds to a section of points. -/
def collectPoint (token : Token PointText) : List Point × List Warning :=
  match token.element.bind PointText.point? with
  | some p => ([p], [])
  | none => ([], [.skippedPoint (String.ofList token.text)])

/-- What one token adds to a section of forces. -/
def collectForce (token : Token ForceText) : List Force × List Warning :=
  match token.element.bind ForceText.force? with
  | some (f, warnings) => ([f], warnings)
  | none => ([], [.skippedForce (String.ofList token.text)])

/-- A fold that emits what does not depend on its state. -/
theorem foldl_emit {σ α γ : Type} {step : σ × List γ → α → σ × List γ} (advance : σ → α → σ)
    (emit : α → List γ) (h : ∀ acc a, step acc a = (advance acc.1 a, acc.2 ++ emit a))
    (as : List α) (acc : σ × List γ) :
    as.foldl step acc = (as.foldl advance acc.1, acc.2 ++ as.flatMap emit) := by
  induction as generalizing acc with
  | nil => simp
  | cons a as ih => rw [List.foldl_cons, ih, h]; simp

theorem foldl_collect {α β γ : Type} {step : List β × List γ → α → List β × List γ}
    {f : α → List β × List γ}
    (h : ∀ acc token, step acc token = (acc.1 ++ (f token).1, acc.2 ++ (f token).2))
    (tokens : List α) (acc : List β × List γ) :
    tokens.foldl step acc =
      (acc.1 ++ tokens.flatMap (fun token => (f token).1),
        acc.2 ++ tokens.flatMap (fun token => (f token).2)) := by
  rw [foldl_emit (fun found token => found ++ (f token).1) (fun token => (f token).2) h,
    List.foldl_append_eq_append, ← List.flatMap_def]

section

variable {α β γ : Type} {scanner : Scanner α} {collect : Token α → List β × List γ}
  (text : β → List Char) {items : List β}

/-- Joined texts that each add one element without a warning add up to these. -/
theorem flatMap_collect {element : β → α}
    (hreads : ∀ b ∈ items, scanner.Reads (text b) (element b))
    (hcollect : ∀ b ∈ items, collect ⟨text b, some (element b)⟩ = ([b], [])) :
    (scanner.tokens ([' '].intercalate (items.map text))).flatMap (fun t => (collect t).1) =
        items ∧
      (scanner.tokens ([' '].intercalate (items.map text))).flatMap (fun t => (collect t).2) =
        [] := by
  rw [Scanner.tokens_join hreads]
  clear hreads
  induction items with
  | nil => exact ⟨rfl, rfl⟩
  | cons b items ih =>
    obtain ⟨ih₁, ih₂⟩ := ih fun c hc => hcollect c (List.mem_cons_of_mem b hc)
    rw [List.map_cons, List.flatMap_cons, List.flatMap_cons, hcollect b List.mem_cons_self, ih₁,
      ih₂]
    exact ⟨rfl, rfl⟩

/-- One of the joined texts that cannot be read gives a warning. -/
theorem flatMap_collect_ne_nil
    (hnone : ∀ token, token.element = none → (collect token).2 ≠ [])
    (h : ∀ b ∈ items, (∃ e, scanner.Reads (text b) e) ∨ scanner.Fails (text b))
    (hbad : ∃ b ∈ items, scanner.Fails (text b)) :
    (scanner.tokens ([' '].intercalate (items.map text))).flatMap (fun t => (collect t).2) ≠
      [] := by
  obtain ⟨token, htoken, helement⟩ := Scanner.exists_none_of_fails h hbad
  intro hnil
  exact hnone token helement (List.flatMap_eq_nil_iff.1 hnil token htoken)

end

theorem readPoints_eq (s : List Char) : readPoints s =
    ((points.tokens s).flatMap (fun token => (collectPoint token).1),
      (points.tokens s).flatMap (fun token => (collectPoint token).2)) := by
  refine foldl_collect ?_ (points.tokens s) ([], [])
  intro acc token
  unfold collectPoint
  cases token.element.bind PointText.point? <;> simp

theorem readForces_eq (s : List Char) : readForces s =
    ((forces.tokens s).flatMap (fun token => (collectForce token).1),
      (forces.tokens s).flatMap (fun token => (collectForce token).2)) := by
  refine foldl_collect ?_ (forces.tokens s) ([], [])
  intro acc token
  unfold collectForce
  rcases token.element.bind ForceText.force? with _ | ⟨f, warnings⟩ <;> simp

/-! ## Points and forces -/

theorem reads_writePoint {p : Point} (he : p.Expressible) (hl : p.Legible) :
    points.Reads (writePoint p).toList (pointText p) where
  start rest := by
    rw [toList_writePoint]
    exact stops_isSpace_word he.id _
  read rest _ := point?_writePoint he hl rest

theorem fails_writePoint {p : Point} (he : p.Expressible) (hl : ¬p.Legible) :
    points.Fails (writePoint p).toList where
  ne_nil := call_ne_nil _ _
  start rest := by
    rw [toList_writePoint]
    exact stops_isSpace_word he.id _
  read rest := point?_writePoint_none he hl rest

theorem readPoints_write {ps : List Point} (h : ∀ p ∈ ps, p.Expressible ∧ p.Legible) :
    readPoints (joined (ps.map writePoint)) = (ps, []) := by
  have hcollect (p : Point) (hp : p ∈ ps) :
      collectPoint ⟨(writePoint p).toList, some (pointText p)⟩ = ([p], []) := by
    unfold collectPoint
    rw [Option.bind_some, pointText_point? (h p hp).1 (h p hp).2]
  obtain ⟨hpoints, hwarnings⟩ := flatMap_collect (fun p => (writePoint p).toList)
    (fun p hp => reads_writePoint (h p hp).1 (h p hp).2) hcollect
  rw [readPoints_eq, joined, List.map_map, Function.comp_def, hpoints, hwarnings]

theorem readPoints_write_warnings {ps : List Point} (h : ∀ p ∈ ps, p.Expressible)
    (hbad : ∃ p ∈ ps, ¬p.Legible) : (readPoints (joined (ps.map writePoint))).2 ≠ [] := by
  obtain ⟨bad, hmem, hbad⟩ := hbad
  rw [readPoints_eq, joined, List.map_map, Function.comp_def]
  refine flatMap_collect_ne_nil _ ?_ ?_ ⟨bad, hmem, fails_writePoint (h bad hmem) hbad⟩
  · intro token hnone
    rw [collectPoint, hnone]
    exact List.cons_ne_nil _ _
  · intro p hp
    by_cases hl : p.Legible
    · exact Or.inl ⟨_, reads_writePoint (h p hp) hl⟩
    · exact Or.inr (fails_writePoint (h p hp) hl)

theorem reads_writeForce {f : Force} (he : f.Expressible) (hl : f.Legible) :
    forces.Reads (writeForce f).toList (forceText f) where
  start rest := by
    rw [toList_writeForce]
    exact stops_isSpace_word he.id _
  read rest _ := force?_writeForce he hl rest

theorem fails_writeForce {f : Force} (he : f.Expressible) (hl : ¬f.Legible) :
    forces.Fails (writeForce f).toList where
  ne_nil := call_ne_nil _ _
  start rest := by
    rw [toList_writeForce]
    exact stops_isSpace_word he.id _
  read rest := force?_writeForce_none he hl rest

theorem readForces_write {fs : List Force} (h : ∀ f ∈ fs, f.Expressible ∧ f.Legible) :
    readForces (joined (fs.map writeForce)) = (fs, []) := by
  have hcollect (f : Force) (hf : f ∈ fs) :
      collectForce ⟨(writeForce f).toList, some (forceText f)⟩ = ([f], []) := by
    unfold collectForce
    rw [Option.bind_some, forceText_force? (h f hf).1 (h f hf).2]
  obtain ⟨hforces, hwarnings⟩ := flatMap_collect (fun f => (writeForce f).toList)
    (fun f hf => reads_writeForce (h f hf).1 (h f hf).2) hcollect
  rw [readForces_eq, joined, List.map_map, Function.comp_def, hforces, hwarnings]

theorem readForces_write_warnings {fs : List Force} (h : ∀ f ∈ fs, f.Expressible)
    (hbad : ∃ f ∈ fs, ¬f.Legible) : (readForces (joined (fs.map writeForce))).2 ≠ [] := by
  obtain ⟨bad, hmem, hbad⟩ := hbad
  rw [readForces_eq, joined, List.map_map, Function.comp_def]
  refine flatMap_collect_ne_nil _ ?_ ?_ ⟨bad, hmem, fails_writeForce (h bad hmem) hbad⟩
  · intro token hnone
    rw [collectForce, hnone]
    exact List.cons_ne_nil _ _
  · intro f hf
    by_cases hl : f.Legible
    · exact Or.inl ⟨_, reads_writeForce (h f hf) hl⟩
    · exact Or.inr (fails_writeForce (h f hf) hl)

/-! ## Options -/

/-- The word for whether an option is on. -/
def onText (on : Bool) : String := if on then "true" else "false"

theorem isWord_onText (on : Bool) : IsWord (onText on) := by
  cases on <;> decide

/-- The options of a diagram as they are written. -/
def optionTexts (axes grid angles : Option Bool) : List String :=
  writeOption "axes" axes ++ writeOption "grid" grid ++ writeOption "angles" angles

/-- The options that are written, with their values. -/
def settings (axes grid angles : Option Bool) : List (String × Bool) :=
  (axes.map fun on => ("axes", on)).toList ++ (grid.map fun on => ("grid", on)).toList ++
    (angles.map fun on => ("angles", on)).toList

theorem optionTexts_eq (axes grid angles : Option Bool) :
    optionTexts axes grid angles =
      (settings axes grid angles).map fun o => o.1 ++ "=" ++ onText o.2 := by
  cases axes <;> cases grid <;> cases angles <;> rfl

theorem reads_option {key : String} (hk : IsWord key) (on : Bool) :
    options.Reads (key ++ "=" ++ onText on).toList ⟨key.toList, (onText on).toList⟩ where
  start rest := by
    rw [String.toList_append, String.toList_append, List.append_assoc, List.append_assoc]
    exact stops_isSpace_word hk _
  read rest hends := by
    have htext : (key ++ "=" ++ onText on).toList ++ rest =
        key.toList ++ '=' :: ((onText on).toList ++ rest) := by
      simp
    have hstops : Stops isIdentChar rest := by
      rcases hends with rfl | ⟨more, rfl⟩
      · exact Text.stops_nil _
      · exact Text.stops_cons_iff.2 (by decide)
    have hon : ident? ((onText on).toList ++ rest) = some ((onText on).toList, rest) :=
      some?_append (isWord_onText on).ne_nil (isWord_onText on).ident hstops
    show option? _ = _
    rw [htext]
    unfold option?
    simp only [ident?_append hk (by decide : isIdentChar '=' = false), char?_cons, hon,
      Option.bind_eq_bind, Option.bind_some, Option.pure_def]

section

variable (b : Builder) (on : Bool)

theorem setOption_axes :
    setOption b ⟨['a', 'x', 'e', 's'], (onText on).toList⟩ = (b.showAxes on, []) := by
  cases on <;> rfl

theorem setOption_grid :
    setOption b ⟨['g', 'r', 'i', 'd'], (onText on).toList⟩ = (b.showGrid on, []) := by
  cases on <;> rfl

theorem setOption_angles :
    setOption b ⟨['a', 'n', 'g', 'l', 'e', 's'], (onText on).toList⟩ =
      (b.showAngles on, []) := by
  cases on <;> rfl

end

theorem isWord_of_mem_settings {axes grid angles : Option Bool} :
    ∀ o ∈ settings axes grid angles, IsWord o.1 := by
  have haxes : IsWord "axes" := by decide
  have hgrid : IsWord "grid" := by decide
  have hangles : IsWord "angles" := by decide
  intro o ho
  simp only [settings, List.mem_append, Option.mem_toList, Option.map_eq_some_iff] at ho
  rcases ho with (⟨on, -, rfl⟩ | ⟨on, -, rfl⟩) | ⟨on, -, rfl⟩
  · exact haxes
  · exact hgrid
  · exact hangles

theorem readOptions_write (b : Builder) (axes grid angles : Option Bool) :
    readOptions b (joined (optionTexts axes grid angles)) =
      (⟨{ b.diagram with
        showAxes := axes <|> b.diagram.showAxes
        showGrid := grid <|> b.diagram.showGrid
        showAngles := angles <|> b.diagram.showAngles }⟩, []) := by
  have htokens := Scanner.tokens_join
    fun o (ho : o ∈ settings axes grid angles) => reads_option (isWord_of_mem_settings o ho) o.2
  unfold readOptions
  rw [optionTexts_eq, joined, List.map_map, Function.comp_def, htokens, List.foldl_map]
  simp only
  cases axes <;> cases grid <;> cases angles <;>
    simp [settings, setOption_axes, setOption_grid, setOption_angles, Builder.showAxes,
      Builder.showGrid, Builder.showAngles]

end FreeBody.Compact
