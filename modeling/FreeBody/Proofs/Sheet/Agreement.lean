import FreeBody.Proofs.Sheet.Gallery

/-!
# The commands on a sheet agree

`render` and `gallery` ask for the diagram of a line, but `check` reads the line on its own, and
each command counts its failures in another way.  Nevertheless the lines that `check` reports as
failures are those that `render` lists and those that `gallery` shows as errors, and `render`
writes the pictures of the others (`commands_agree`).

All three rest on one case distinction (`findings_cases`): a line has an error or a diagram, and
what is found on it is that error or holds no failure.
-/

namespace FreeBody.Sheet

/-! ## What is seen of a line -/

/-- The place of a line, as reports name it. -/
def place (sheet : String) (l : Line) : String := sheet ++ ":" ++ toString l.number

/-- What `check` prints for a line. -/
def report (reports : Reports) (sheet : String) (l : Line) : List String :=
  (findings l).flatMap (Finding.report reports (place sheet l))

namespace Finding

/-- Whether a finding is that a line cannot be read. -/
def isFailure : Finding → Bool
  | failure _ => true
  | skipped _ | warning _ | issue _ => false

/-- A report that is not of a failure has more in its first line than the place. -/
theorem head?_report (reports : Reports) (place : String) {f : Finding}
    (h : f.isFailure = false) :
    ∃ text, (f.report reports place).head? = some (place ++ ":" ++ (" " ++ text)) := by
  cases f with
  | failure e => cases h
  | skipped s =>
    exact ⟨"entry " ++ toString s.index ++ " (" ++ s.preset ++ ") skipped: " ++
      skipReport s.reason, congrArg some (String.toList_injective (by simp))⟩
  | warning w => exact ⟨"warning: " ++ w.message, congrArg some (String.toList_injective (by simp))⟩
  | issue i => exact ⟨i.message, congrArg some (String.toList_injective (by simp))⟩

end Finding

/-- Whether `check` finds that a line cannot be read. -/
def reportsFailure (l : Line) : Bool := (findings l).any Finding.isFailure

/-- The error card of a message. -/
def errorBody (message : String) : String := "<pre class=\"error\">" ++ pageText message ++ "</pre>"

/-- Whether the card of a line is an error card. -/
def showsError (l : Line) : Bool := "<pre class=\"error\">".toList.isPrefixOf (cardBody l).toList

/-! ## One line -/

theorem isPrefix_errorBody (message : String) :
    "<pre class=\"error\">".toList <+: (errorBody message).toList := by
  unfold errorBody
  generalize pageText message = text
  simp

/-- A picture begins with its root. -/
theorem root_isPrefixOf_render {d : Diagram} {style : Style} {markup : String}
    (h : d.render style = some markup) : "<svg".toList <+: markup.toList := by
  obtain ⟨grid, -, rfl⟩ := Drawing.exists_of_render h
  rw [Drawing.picture, Markup.text_group, Markup.Tag.opening]
  simp only [String.toList_append, List.append_assoc]
  exact ⟨_, rfl⟩

/-- The picture of a line is drawn, not taken from its text. -/
theorem Line.markup_of_diagram {l : Line} {d : Diagram} (h : l.diagram = .ok d) :
    d.markup = d.render {} := by
  rcases layoutId_or_parsed h with ⟨id, hid⟩ | ⟨p, hp, rfl⟩
  · obtain ⟨c, d', -, hd, hdiagram⟩ := exists_of_layoutId hid
    obtain rfl := Except.ok.inj (hdiagram.symm.trans h)
    obtain ⟨shown, -, rfl⟩ := Option.map_eq_some_iff.1 hd
    exact Composition.markup_framed_eq_render _ _ _
  · exact (Compact.plainAs_of_read Registry.builtin_plain hp).2.markup

/-- A line has an error, which is all that is found on it, or a diagram, and then no failure is
found.  The cases are those of the dispatch, which `check` makes again. -/
theorem findings_cases (l : Line) :
    (∃ e, l.diagram = .error e ∧ findings l = [.failure e]) ∨
      ∃ d, l.diagram = .ok d ∧ ∀ f ∈ findings l, f.isFailure = false := by
  cases hl : l.isCombination with
  | true =>
    rw [findings, hl, if_pos rfl]
    cases hc : l.composed with
    | error e => exact .inl ⟨e, Line.diagram_of_not_composed hl hc, rfl⟩
    | ok c =>
      obtain ⟨d, hd⟩ := Option.isSome_iff_exists.1 (Line.isSome_composed hc)
      refine .inr ⟨d, Line.diagram_of_composed hl hc hd, fun f hf => ?_⟩
      obtain ⟨s, -, rfl⟩ := List.mem_map.1 hf
      rfl
  | false =>
    rw [Line.diagram_of_parsed hl, findings, hl, if_neg Bool.false_ne_true]
    cases l.parsed with
    | error e => exact .inl ⟨e, rfl, rfl⟩
    | ok p =>
      refine .inr ⟨p.diagram, rfl, fun f hf => ?_⟩
      rcases List.mem_append.1 hf with hf | hf <;> obtain ⟨x, -, rfl⟩ := List.mem_map.1 hf <;> rfl

section

variable {l : Line} {e : CompactError} {d : Diagram}

theorem findings_of_error (h : l.diagram = .error e) : findings l = [.failure e] := by
  rcases findings_cases l with ⟨e', he, hfound⟩ | ⟨d, hd, -⟩
  · rw [h] at he
    rw [hfound, Except.error.inj he]
  · rw [h] at hd
    cases hd

theorem reportsFailure_of_error (h : l.diagram = .error e) : reportsFailure l = true := by
  rw [reportsFailure, findings_of_error h]
  rfl

theorem isFailure_of_ok (h : l.diagram = .ok d) : ∀ f ∈ findings l, f.isFailure = false := by
  rcases findings_cases l with ⟨e, he, -⟩ | ⟨d', -, hfound⟩
  · rw [h] at he
    cases he
  · exact hfound

theorem reportsFailure_of_ok (h : l.diagram = .ok d) : reportsFailure l = false := by
  rw [reportsFailure, List.any_eq_false]
  exact fun f hf => by simp [isFailure_of_ok h f hf]

theorem cardBody_of_error (h : l.diagram = .error e) : cardBody l = errorBody e.message := by
  rw [cardBody, Line.picture_of_error h]
  rfl

theorem report_of_error (reports : Reports) (sheet : String) (h : l.diagram = .error e) :
    report reports sheet l = (place sheet l ++ ":") :: reports.error e := by
  rw [report, findings_of_error h, List.flatMap_singleton]
  rfl

/-- A line with a diagram has a picture, which begins with its root. -/
theorem exists_picture (h : l.diagram = .ok d) :
    ∃ picture, l.picture = .ok picture ∧ "<svg".toList <+: picture.toList := by
  obtain ⟨picture, hpicture⟩ := Option.isSome_iff_exists.1 (Line.finished h).isSome_markup
  have hrender : d.render {} = some picture := (Line.markup_of_diagram h).symm.trans hpicture
  exact ⟨picture, Line.picture_of_diagram h hpicture, root_isPrefixOf_render hrender⟩

end

theorem reportsFailure_eq (l : Line) : reportsFailure l = !l.diagram.toOption.isSome := by
  cases h : l.diagram with
  | error e => exact reportsFailure_of_error h
  | ok d => exact reportsFailure_of_ok h

/-- The card of a line is an error card exactly if its report is that of a failure. -/
theorem showsError_eq (l : Line) : showsError l = reportsFailure l := by
  cases h : l.diagram with
  | error e =>
    rw [reportsFailure_of_error h, showsError, cardBody_of_error h]
    exact List.isPrefixOf_iff_prefix.2 (isPrefix_errorBody e.message)
  | ok d =>
    obtain ⟨picture, hpicture, behind, hroot⟩ := exists_picture h
    rw [reportsFailure_of_ok h, showsError, cardBody_of_picture hpicture, ← hroot]
    simp [List.isPrefixOf]

/-- The reports of failures are told from all others by their first line. -/
theorem reportsFailure_iff (reports : Reports) (sheet : String) (l : Line) :
    reportsFailure l = true ↔
      (report reports sheet l).head? = some (place sheet l ++ ":") := by
  cases h : l.diagram with
  | error e => simp only [reportsFailure_of_error h, report_of_error reports sheet h, List.head?_cons]
  | ok d =>
    simp only [reportsFailure_of_ok h, Bool.false_eq_true, false_iff]
    intro hfirst
    rw [report] at hfirst
    cases hfound : findings l with
    | nil =>
      rw [hfound] at hfirst
      cases hfirst
    | cons f rest =>
      obtain ⟨text, hhead⟩ := Finding.head?_report reports (place sheet l)
        (isFailure_of_ok h f (hfound ▸ List.mem_cons_self))
      rw [hfound, List.flatMap_cons, List.head?_append, hhead] at hfirst
      have hlength := congrArg String.length (Option.some.inj hfirst)
      simp at hlength

/-! ## Whole sheets -/

/-- The lines that cannot be read, by the reports of `check`. -/
def failedLines (source : String) : List Line := (lines source).filter reportsFailure

/-- The lines that can be read, by the reports of `check`. -/
def readLines (source : String) : List Line := (lines source).filter fun l => !reportsFailure l

/-- The file that `render` writes for a line. -/
def picturePath (directory : String) (l : Line) : String :=
  pathIn directory (toString l.number ++ ".svg")

theorem length_lines (source : String) :
    (lines source).length = (failedLines source).length + (readLines source).length :=
  List.length_eq_length_filter_add reportsFailure

/-- The lines of a sheet stand under their numbers in the file, where all lines count. -/
theorem mem_lines_iff {source : String} {l : Line} :
    l ∈ lines source ↔ ∃ s, 1 ≤ l.number ∧ (Text.lines source.toList)[l.number - 1]? = some s ∧
      Text.trim s = l.text.toList ∧ isDrawn l.text.toList = true := by
  obtain ⟨number, text⟩ := l
  simp only [lines, List.mem_map, List.mem_filter, List.mem_zipIdx_iff_le_and_getElem?_sub,
    List.getElem?_map, Option.map_eq_some_iff, Prod.exists, Line.mk.injEq]
  constructor
  · rintro ⟨_, _, ⟨⟨hpos, s, hs, rfl⟩, hdrawn⟩, rfl, rfl⟩
    exact ⟨s, hpos, hs, String.toList_ofList.symm, by rwa [String.toList_ofList]⟩
  · rintro ⟨s, hpos, hs, htrim, hdrawn⟩
    exact ⟨text.toList, number, ⟨⟨hpos, s, hs, htrim⟩, hdrawn⟩, rfl, String.ofList_toList⟩

/-- Lines with other numbers have other files. -/
theorem picturePath_injective {directory : String} {l l' : Line}
    (h : picturePath directory l = picturePath directory l') : l.number = l'.number := by
  have hfile : toString l.number ++ ".svg" = toString l'.number ++ ".svg" := by
    unfold picturePath pathIn at h
    split_ifs at h
    · exact (String.append_right_inj _).1 h
    · exact (String.append_right_inj _).1 h
  have hdigits := congrArg String.toList ((String.append_left_inj _).1 hfile)
  rw [Decimal.toList_toString, Decimal.toList_toString] at hdigits
  rw [← Decimal.value_digits l.number, hdigits, Decimal.value_digits]

theorem nodup_picturePaths (directory source : String) :
    ((readLines source).map (picturePath directory)).Nodup := by
  refine List.pairwise_map.2 (((lines_rising source).filter _).imp fun hlt h => ?_)
  exact hlt.ne (picturePath_injective h)

/-- `render` writes the card of every line that can be read. -/
theorem files_render (sheet directory source : String) :
    (render sheet directory source).files =
      (readLines source).map fun l => (picturePath directory l, cardBody l) := by
  rw [readLines, ← List.filterMap_eq_map, List.filterMap_filter]
  refine List.filterMap_congr fun l _ => ?_
  cases h : l.diagram with
  | error e =>
    simp [pictureFile, Line.picture_of_error h, reportsFailure_of_error h, Except.map,
      Except.toOption]
  | ok d =>
    obtain ⟨picture, hpicture, -⟩ := exists_picture h
    simp [pictureFile, hpicture, reportsFailure_of_ok h, cardBody_of_picture hpicture, Except.map,
      Except.toOption, picturePath]

/-- What `render` lists about a line that has no picture. -/
def listed? (sheet directory : String) (l : Line) : Option String :=
  match pictureFile directory l with
  | .ok _ => none
  | .error e => some (place sheet l ++ ": " ++ e.message)

/-- A failure in the list of `render`, with the error that `check` reports and `gallery` shows. -/
def Lists (reports : Reports) (sheet : String) (l : Line) (text : String) : Prop :=
  ∃ e, l.diagram = .error e ∧ text = place sheet l ++ ": " ++ e.message ∧
    report reports sheet l = (place sheet l ++ ":") :: reports.error e ∧
    cardBody l = errorBody e.message

/-- `render` lists the lines that cannot be read, one after the other. -/
theorem forall₂_lists (reports : Reports) (sheet directory : String) (drawn : List Line) :
    List.Forall₂ (Lists reports sheet) (drawn.filter reportsFailure)
      (drawn.filterMap (listed? sheet directory)) := by
  induction drawn with
  | nil => exact .nil
  | cons l rest ih =>
    cases h : l.diagram with
    | error e =>
      have hlisted : listed? sheet directory l = some (place sheet l ++ ": " ++ e.message) := by
        rw [listed?, pictureFile, Line.picture_of_error h]
        rfl
      rw [List.filter_cons_of_pos (reportsFailure_of_error h), List.filterMap_cons_some hlisted]
      exact .cons ⟨e, h, rfl, report_of_error reports sheet h, cardBody_of_error h⟩ ih
    | ok d =>
      obtain ⟨picture, hpicture, -⟩ := exists_picture h
      have hlisted : listed? sheet directory l = none := by
        rw [listed?, pictureFile, hpicture]
        rfl
      rw [List.filter_cons_of_neg (by simp [reportsFailure_of_ok h]),
        List.filterMap_cons_none hlisted]
      exact ih

theorem length_listed (sheet directory source : String) :
    ((lines source).filterMap (listed? sheet directory)).length = (failedLines source).length :=
  (forall₂_lists ⟨fun _ => [], fun _ => []⟩ sheet directory (lines source)).length_eq.symm

/-- `render` ends with the number of pictures, after the failures. -/
theorem errors_render (sheet directory source : String) :
    (render sheet directory source).errors =
      (lines source).filterMap (listed? sheet directory) ++ [
        "rendered " ++ toString (readLines source).length ++ " of " ++
          toString (lines source).length ++ " diagrams into " ++ directory] := by
  have hread : (lines source).length - ((lines source).filterMap (listed? sheet directory)).length =
      (readLines source).length := by
    rw [length_listed, length_lines, Nat.add_sub_cancel_left]
  rw [← hread]
  rfl

theorem success_render (sheet directory source : String) :
    (render sheet directory source).success = (failedLines source).isEmpty := by
  have hlisted : ((lines source).filterMap (listed? sheet directory)).isEmpty =
      (failedLines source).isEmpty := by
    rw [Bool.eq_iff_iff, List.isEmpty_iff_length_eq_zero, length_listed,
      List.isEmpty_iff_length_eq_zero]
  unfold render
  dsimp only
  exact hlisted

/-- `gallery` counts the lines that cannot be read. -/
theorem filter_no_diagram (source : String) :
    ((lines source).filter fun l => l.diagram.toOption.isNone) = failedLines source := by
  refine List.filter_congr fun l _ => ?_
  rw [reportsFailure_eq, Option.not_isSome]

theorem success_gallery (file source : String) :
    (gallery file source).success = (failedLines source).isEmpty := by
  rw [gallery, filter_no_diagram]
  cases failedLines source <;> rfl

/-- `check` prints the reports of all lines. -/
theorem output_check (reports : Reports) (sheet source : String) :
    (check reports sheet source).output = (lines source).flatMap (report reports sheet) ++
      if (check reports sheet source).success then
        [toString (lines source).length ++ " notations ok"]
      else [] := by
  unfold check
  dsimp only
  split
  next => rfl
  next => rw [List.append_nil]; rfl

/-- `check` succeeds only if there is nothing to report. -/
theorem failedLines_of_success {reports : Reports} {sheet source : String}
    (h : (check reports sheet source).success = true) :
    failedLines source = [] := by
  refine List.filter_eq_nil_iff.2 fun l hl => ?_
  have hfound := List.isEmpty_iff.1 (List.all_eq_true.1 h l hl)
  rw [reportsFailure, hfound]
  decide

/-- What the commands do with a sheet, told by the lines whose failure `check` reports. -/
structure CommandsAgree (reports : Reports) (sheet directory file source : String) : Prop where
  /-- `check` prints the reports of the lines in order, and a summary if all is well. -/
  printed : (check reports sheet source).output = (lines source).flatMap (report reports sheet) ++
    if (check reports sheet source).success then [toString (lines source).length ++ " notations ok"]
    else []
  /-- The report of a failure is one by its first line, which names the place and nothing else. -/
  failures : ∀ l ∈ lines source, reportsFailure l = true ↔
    (report reports sheet l).head? = some (place sheet l ++ ":")
  /-- `render` lists the failures in order, with their messages, in front of a summary. -/
  listed : ∃ texts, List.Forall₂ (Lists reports sheet) (failedLines source) texts ∧
    (render sheet directory source).errors = texts ++ [
      "rendered " ++ toString (readLines source).length ++ " of " ++
        toString (lines source).length ++ " diagrams into " ++ directory]
  /-- `gallery` shows the cards of all lines and counts the failures. -/
  shown : (gallery file source).files = [(file, page (lines source))] ∧
    (gallery file source).errors = [
      "wrote " ++ toString (lines source).length ++ " diagrams to " ++ file ++ " (" ++
        toString (failedLines source).length ++ " failed)"]
  /-- The failures are what `gallery` has error cards for. -/
  cards : ∀ l ∈ lines source, reportsFailure l = showsError l
  /-- `render` writes the other lines, each as it is on its card. -/
  written : (render sheet directory source).files =
    (readLines source).map fun l => (picturePath directory l, cardBody l)
  /-- Each has a file of its own, with its number in the file. -/
  distinct : ((readLines source).map (picturePath directory)).Nodup
  numbered : ∀ l, l ∈ lines source ↔
    ∃ s, 1 ≤ l.number ∧ (Text.lines source.toList)[l.number - 1]? = some s ∧
      Text.trim s = l.text.toList ∧ isDrawn l.text.toList = true
  /-- `render` and `gallery` succeed if there is no failure, as when `check` succeeds. -/
  rendered : (render sheet directory source).success = (failedLines source).isEmpty
  showed : (gallery file source).success = (failedLines source).isEmpty
  checked : (check reports sheet source).success = true →
    (render sheet directory source).success = true ∧ (gallery file source).success = true

/-- **The commands agree.**  However errors are laid out in reports, on every sheet the lines whose
failure `check` reports are those that `render` lists and those that `gallery` shows as errors, all
three for one error; `render` writes one file for each other line, named by its number in the
sheet, with the picture that is on its card; and where `check` succeeds the other two do. -/
theorem commands_agree (reports : Reports) (sheet directory file source : String) :
    CommandsAgree reports sheet directory file source := by
  exact {
    printed := output_check reports sheet source
    failures := fun l _ => reportsFailure_iff reports sheet l
    listed := ⟨_, forall₂_lists reports sheet directory _, errors_render sheet directory source⟩
    shown := ⟨rfl, by rw [gallery, filter_no_diagram]⟩
    cards := fun l _ => (showsError_eq l).symm
    written := files_render sheet directory source
    distinct := nodup_picturePaths directory source
    numbered := fun l => mem_lines_iff
    rendered := success_render sheet directory source
    showed := success_gallery file source
    checked := fun h => by
      rw [success_render, success_gallery, failedLines_of_success h]
      exact ⟨rfl, rfl⟩ }

end FreeBody.Sheet
