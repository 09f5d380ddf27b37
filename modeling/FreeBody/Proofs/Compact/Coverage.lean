import FreeBody.Proofs.Compact.Call
import FreeBody.Proofs.Compact.Reading

/-!
# What becomes of every part of a text

Reading a compact text leaves no part of it unaccounted for (`Accounted`) when it is a preset call
and nothing else, or when it is made of up to three sections whose tokens stand for elements of the
diagram or are named by a warning.

What is read is accounted for, with one exception: what stands behind the last closing parenthesis
of a call, and behind the third section, goes without a warning (`read_accounted_iff`).
-/

namespace FreeBody.Compact

open Text (Blank)

/-! ## Sections -/

/-- A text is blanks and tokens in turn; `items` and `warnings` are what the tokens come to. -/
inductive Accounts {α : Type} (Fate : List Char → List α → List Warning → Prop) :
    List Char → List α → List Warning → Prop
  | blank {u : List Char} : Blank u → Accounts Fate u [] []
  | token {u text rest : List Char} {items later : List α} {warnings others : List Warning} :
      Blank u → Fate text items warnings → Accounts Fate rest later others →
      Accounts Fate (u ++ (text ++ rest)) (items ++ later) (warnings ++ others)

/-- A token of the first section is a point of the diagram or is reported. -/
inductive PointFate : List Char → List Point → List Warning → Prop
  | shown {t : PointText} {text : List Char} {p : Point} :
      t.IsWritten text → t.point? = some p → PointFate text [p] []
  | reported {text : List Char} : PointFate text [] [.skippedPoint (String.ofList text)]

/-- A token of the second section is a force of the diagram or is reported, or both if its kind
is unknown. -/
inductive ForceFate : List Char → List Force → List Warning → Prop
  | shown {t : ForceText} {text : List Char} {f : Force} {warnings : List Warning} :
      t.IsWritten text → t.force? = some (f, warnings) → ForceFate text [f] warnings
  | reported {text : List Char} : ForceFate text [] [.skippedForce (String.ofList text)]

/-- The keys of options. -/
def optionKeys : List String := ["axes", "grid", "angles"]

/-- A token of the third section is an option that counts or is reported. -/
inductive OptionFate : List Char → List OptionText → List Warning → Prop
  | counts {o : OptionText} {text : List Char} : o.IsWritten text →
      String.ofList o.key ∈ optionKeys → OptionFate text [o] []
  | unknown {o : OptionText} {text : List Char} : o.IsWritten text →
      String.ofList o.key ∉ optionKeys → OptionFate text [] [.unknownOption (String.ofList o.key)]
  | reported {text : List Char} : OptionFate text [] [.skippedOption (String.ofList text)]

/-- What options make of the flag with a key; the last one counts. -/
def flag (key : String) (os : List OptionText) (default : Option Bool) : Option Bool :=
  os.foldl (fun on o => if String.ofList o.key = key then some (o.value = "true".toList) else on)
    default

/-- Whether the flags of a diagram are those that the options ask for. -/
structure ShowsFlags (d : Diagram) (os : List OptionText) : Prop where
  axes : d.showAxes = flag "axes" os (some true)
  grid : d.showGrid = flag "grid" os (some false)
  angles : d.showAngles = flag "angles" os none

/-! ## Texts -/

/-- Whether every part of a text is in the diagram or named by a warning.  Of a call, all is the
call; sections have bars between them, and those behind the third are blank. -/
inductive Accounted (r : Registry) (id : String) : List Char → Parsed → Prop
  | call {call : Call} {text : List Char} {d : Diagram} : call.IsWritten text [] →
      runCall r id call = .ok d → Accounted r id ("PRESET:".toList ++ text) ⟨d, []⟩
  | sections {texts : List (List Char)} {d : Diagram} {os : List OptionText}
      {pointWarnings forceWarnings optionWarnings : List Warning} :
      ¬"PRESET:".toList <+: ['|'].intercalate texts →
      (∀ text ∈ texts, '|' ∉ text) →
      Accounts PointFate (texts.getD 0 []) d.points pointWarnings →
      Accounts ForceFate (texts.getD 1 []) d.forces forceWarnings →
      Accounts OptionFate (texts.getD 2 []) os optionWarnings → ShowsFlags d os →
      (∀ text ∈ texts.drop 3, Blank text) →
      Accounted r id (['|'].intercalate texts)
        ⟨d, pointWarnings ++ forceWarnings ++ optionWarnings⟩

/-- Whether nothing stands behind the last closing parenthesis of a call, or behind the third
section. -/
def NothingBehind (text : List Char) : Prop :=
  if "PRESET:".toList <+: text then '(' ∈ text → text.getLast? = some ')'
  else ∀ part ∈ (Text.pieces '|' text).drop 3, Blank part

instance (text : List Char) : Decidable (NothingBehind text) :=
  inferInstanceAs (Decidable (if "PRESET:".toList <+: text then
    '(' ∈ text → text.getLast? = some ')'
    else ∀ part ∈ (Text.pieces '|' text).drop 3, ∀ c ∈ part, Text.isBlank c = true))

/-! ## Accounts of sections -/

section

variable {α : Type} {Fate : List Char → List α → List Warning → Prop} {s u : List Char}
  {items : List α} {warnings : List Warning}

theorem Accounts.blank_append (h : Accounts Fate s items warnings) (hu : Blank u) :
    Accounts Fate (u ++ s) items warnings := by
  cases h with
  | blank hs => exact .blank (hu.append hs)
  | token hv hfate hrest =>
    rw [← List.append_assoc]
    exact .token (hu.append hv) hfate hrest

theorem Accounts.append_blank (h : Accounts Fate s items warnings) (hu : Blank u) :
    Accounts Fate (s ++ u) items warnings := by
  induction h with
  | blank hs => exact .blank (hs.append hu)
  | token hv hfate _ ih =>
    rw [List.append_assoc, List.append_assoc]
    exact .token hv hfate ih

/-- Blanks around a section do not matter. -/
theorem Accounts.of_trim (h : Accounts Fate (Text.trim s) items warnings) :
    Accounts Fate s items warnings := by
  obtain ⟨u, v, hu, hv, hs⟩ := Text.exists_trim s
  rw [hs]
  exact (h.append_blank hv).blank_append hu

/-- What holds of every token gives the account of the section. -/
theorem Spells.accounts {β : Type} {IsWritten : β → List Char → Prop} {tokens : List (Token β)}
    {collect : Token β → List α × List Warning} (h : Spells IsWritten s tokens)
    (hfate : ∀ token : Token β, (∀ e, token.element = some e → IsWritten e token.text) →
      Fate token.text (collect token).1 (collect token).2) :
    Accounts Fate s (tokens.flatMap fun t => (collect t).1)
      (tokens.flatMap fun t => (collect t).2) := by
  induction h with
  | blank hu => exact .blank hu
  | @element u text rest e tokens hu hwritten _ ih =>
    have helement : ∀ e', some e = some e' → IsWritten e' text := by
      rintro e' ⟨⟩
      exact hwritten
    exact .token hu (hfate ⟨text, some e⟩ helement) ih
  | @word u text rest tokens hu _ ih =>
    have hnone : ∀ e', (none : Option β) = some e' → IsWritten e' text := by
      rintro e' ⟨⟩
    exact .token hu (hfate ⟨text, none⟩ hnone) ih

end

theorem accounts_readPoints (s : List Char) :
    Accounts PointFate s (readPoints s).1 (readPoints s).2 := by
  rw [readPoints_eq]
  refine (Scanner.spells_tokens point?_sound s).accounts fun token hwritten => ?_
  unfold collectPoint
  cases hbind : token.element.bind PointText.point? with
  | none => exact .reported
  | some p =>
    obtain ⟨t, helement, hp⟩ := Option.bind_eq_some_iff.1 hbind
    exact .shown (hwritten t helement) hp

theorem accounts_readForces (s : List Char) :
    Accounts ForceFate s (readForces s).1 (readForces s).2 := by
  rw [readForces_eq]
  refine (Scanner.spells_tokens force?_sound s).accounts fun token hwritten => ?_
  unfold collectForce
  cases hbind : token.element.bind ForceText.force? with
  | none => exact .reported
  | some f =>
    obtain ⟨t, helement, hf⟩ := Option.bind_eq_some_iff.1 hbind
    exact .shown (hwritten t helement) hf

/-- What one token adds to a section of options. -/
def collectOption (token : Token OptionText) : List OptionText × List Warning :=
  match token.element with
  | some o =>
    if String.ofList o.key ∈ optionKeys then ([o], [])
    else ([], [.unknownOption (String.ofList o.key)])
  | none => ([], [.skippedOption (String.ofList token.text)])

/-- Sets options one after the other. -/
def setOptions (b : Builder) (os : List OptionText) : Builder :=
  os.foldl (fun b o => (setOption b o).1) b

theorem setOption_of_known {o : OptionText} (h : String.ofList o.key ∈ optionKeys) (b : Builder) :
    (setOption b o).2 = [] := by
  unfold setOption
  simp only
  split
  next => rfl
  next => rfl
  next => rfl
  next h₁ h₂ h₃ =>
    simp only [optionKeys, List.mem_cons, List.not_mem_nil, or_false] at h
    tauto

theorem setOption_of_unknown {o : OptionText} (h : String.ofList o.key ∉ optionKeys)
    (b : Builder) : setOption b o = (b, [.unknownOption (String.ofList o.key)]) := by
  unfold setOption
  simp only
  split
  next hkey => exact absurd (hkey ▸ by decide) h
  next hkey => exact absurd (hkey ▸ by decide) h
  next hkey => exact absurd (hkey ▸ by decide) h
  next => rfl

theorem readOptions_eq (b : Builder) (s : List Char) : readOptions b s =
    (setOptions b ((options.tokens s).flatMap fun token => (collectOption token).1),
      (options.tokens s).flatMap fun token => (collectOption token).2) := by
  unfold setOptions
  rw [List.foldl_flatMap]
  refine foldl_emit _ _ ?_ (options.tokens s) (b, [])
  rintro ⟨b, ws⟩ token
  unfold collectOption
  -- an option with an unknown key is warned of and sets nothing, so it can be left out
  rcases token with ⟨text, _ | o⟩
  · rfl
  · by_cases hkey : String.ofList o.key ∈ optionKeys
    · simp [hkey, setOption_of_known]
    · simp [hkey, setOption_of_unknown]

theorem accounts_readOptions (b : Builder) (s : List Char) :
    ∃ os, (readOptions b s).1 = setOptions b os ∧
      Accounts OptionFate s os (readOptions b s).2 := by
  rw [readOptions_eq]
  refine ⟨_, rfl, (Scanner.spells_tokens option?_sound s).accounts fun token hwritten => ?_⟩
  unfold collectOption
  rcases token with ⟨text, _ | o⟩
  · exact .reported
  · by_cases hkey : String.ofList o.key ∈ optionKeys
    · simp only [if_pos hkey]
      exact .counts (hwritten o rfl) hkey
    · simp only [if_neg hkey]
      exact .unknown (hwritten o rfl) hkey

theorem flags_setOption (b : Builder) (o : OptionText) :
    (setOption b o).1.diagram.showAxes = flag "axes" [o] b.diagram.showAxes ∧
      (setOption b o).1.diagram.showGrid = flag "grid" [o] b.diagram.showGrid ∧
        (setOption b o).1.diagram.showAngles = flag "angles" [o] b.diagram.showAngles := by
  unfold setOption flag
  simp only [List.foldl_cons, List.foldl_nil]
  split
  next hkey => simp [hkey, Builder.showAxes]
  next hkey => simp [hkey, Builder.showGrid]
  next hkey => simp [hkey, Builder.showAngles]
  next h₁ h₂ h₃ => exact ⟨(if_neg h₁).symm, (if_neg h₂).symm, (if_neg h₃).symm⟩

/-- Options set the flags with their keys. -/
theorem flags_setOptions (b : Builder) (os : List OptionText) :
    (setOptions b os).diagram.showAxes = flag "axes" os b.diagram.showAxes ∧
      (setOptions b os).diagram.showGrid = flag "grid" os b.diagram.showGrid ∧
        (setOptions b os).diagram.showAngles = flag "angles" os b.diagram.showAngles := by
  induction os generalizing b with
  | nil => exact ⟨rfl, rfl, rfl⟩
  | cons o os ih =>
    obtain ⟨haxes, hgrid, hangles⟩ := flags_setOption b o
    have h := ih (setOption b o).1
    rw [haxes, hgrid, hangles] at h
    exact h

/-! ## Accounts of texts -/

/-- The sections are the pieces between bars, without the blanks at their ends. -/
theorem sections_eq_trim (s : List Char) :
    (sections s).1 = Text.trim ((Text.pieces '|' s).getD 0 []) ∧
      (sections s).2.1 = Text.trim ((Text.pieces '|' s).getD 1 []) ∧
        (sections s).2.2 = Text.trim ((Text.pieces '|' s).getD 2 []) := by
  have hcut (i : Nat) : ((Text.pieces '|' s).map Text.trim).getD i [] =
      Text.trim ((Text.pieces '|' s).getD i []) := by
    rw [List.getD_eq_getElem?_getD, List.getD_eq_getElem?_getD, List.getElem?_map]
    cases (Text.pieces '|' s)[i]? <;> rfl
  exact ⟨hcut 0, hcut 1, hcut 2⟩

section

variable {r : Registry} {id : String} {s : List Char} {p : Parsed}

theorem accounted_of_readSections (htag : ¬"PRESET:".toList <+: s)
    (h : readSections s id = .ok p)
    (hbehind : ∀ text ∈ (Text.pieces '|' s).drop 3, Blank text) : Accounted r id s p := by
  obtain ⟨-, rfl⟩ := readSections_eq_ok_iff.1 h
  obtain ⟨os, hos, hoptions⟩ := accounts_readOptions (filled id s) (sections s).2.2
  obtain ⟨axes, grid, angles, hb⟩ :=
    flagsSet_readOptions (b := filled id s) ⟨true, false, none, rfl⟩ (sections s).2.2
  have hends := gridEnds_readOptions (b := filled id s) rfl rfl (sections s).2.2
  have hpoints : ((readOptions (filled id s) (sections s).2.2).1.finish hends).points =
      (readPoints (sections s).1).1 := congrArg (fun b => b.diagram.points) hb
  have hforces : ((readOptions (filled id s) (sections s).2.2).1.finish hends).forces =
      (readForces (sections s).2.1).1 := congrArg (fun b => b.diagram.forces) hb
  have hshows : ShowsFlags ((readOptions (filled id s) (sections s).2.2).1.finish hends) os := by
    obtain ⟨haxes, hgrid, hangles⟩ := flags_setOptions (filled id s) os
    rw [← hos] at haxes hgrid hangles
    exact ⟨haxes, hgrid, hangles⟩
  obtain ⟨hfirst, hsecond, hthird⟩ := sections_eq_trim s
  have htext := Text.intercalate_pieces '|' s
  suffices h : Accounted r id (['|'].intercalate (Text.pieces '|' s))
      ⟨(readOptions (filled id s) (sections s).2.2).1.finish hends,
        (readPoints (sections s).1).2 ++ (readForces (sections s).2.1).2 ++
          (readOptions (filled id s) (sections s).2.2).2⟩ by
    rwa [htext] at h
  refine .sections (by rwa [htext]) (fun _ => Text.not_mem_of_mem_pieces) ?_ ?_ ?_ hshows hbehind
  · apply Accounts.of_trim
    rw [hpoints, ← hfirst]
    exact accounts_readPoints _
  · apply Accounts.of_trim
    rw [hforces, ← hsecond]
    exact accounts_readForces _
  · apply Accounts.of_trim
    rw [← hthird]
    exact hoptions

/-! ## What stands behind -/

theorem Call.IsWritten.nothingBehind_iff {call : Call} {text behind : List Char}
    (h : call.IsWritten text behind) : NothingBehind ("PRESET:".toList ++ text) ↔ behind = [] := by
  unfold NothingBehind
  rw [if_pos (List.prefix_append _ _)]
  cases h with
  | @bare name blanks hname hb =>
    refine iff_of_true (fun hmem => ?_) rfl
    rcases List.mem_append.1 hmem with hmem | hmem
    · exact absurd hmem (by decide)
    · rcases List.mem_append.1 hmem with hmem | hmem
      · exact absurd (hname.isPresetChar _ hmem) (by decide)
      · exact absurd (hb _ hmem) (by decide)
  | @applied name blanks args behind hname hb hbehind =>
    have hparen : '(' ∈ "PRESET:".toList ++
        (name ++ (blanks ++ '(' :: (args ++ ')' :: behind))) := by simp
    -- only the end of the text matters from here on, not how the tag is spelt
    generalize "PRESET:".toList = tag at hparen ⊢
    rcases List.eq_nil_or_concat behind with rfl | ⟨front, c, rfl⟩
    · refine iff_of_true (fun _ => ?_) rfl
      simp [List.getLast?_append, List.getLast?_cons]
    · have hc : c ≠ ')' := by
        rintro rfl
        exact hbehind (by simp)
      refine iff_of_false (fun hlast => hc ?_) (by simp)
      simpa [List.getLast?_append, List.getLast?_cons] using hlast hparen

theorem nothingBehind_of_accounted (h : Accounted r id s p) : NothingBehind s := by
  cases h with
  | call hwritten _ => exact hwritten.nothingBehind_iff.2 rfl
  | @sections texts _ _ _ _ _ htag hbar _ _ _ _ hbehind =>
    unfold NothingBehind
    rw [if_neg htag]
    cases texts with
    | nil => simp [Text.pieces]
    | cons text texts => rwa [Text.pieces_intercalate (List.cons_ne_nil _ _) hbar]

end

/-- **A text is read with nothing left out in silence, unless there is something behind.** -/
theorem read_accounted_iff (r : Registry) {text id : String} {p : Parsed}
    (h : read r text id = .ok p) :
    Accounted r id (Text.trim text.toList) p ↔ NothingBehind (Text.trim text.toList) := by
  refine ⟨nothingBehind_of_accounted, fun hbehind => ?_⟩
  rcases read_cases h with ⟨rest, call, d, htext, hcall, hrun, rfl⟩ | ⟨htag, hsections⟩
  · obtain ⟨behind, hwritten⟩ := readCall_eq_ok_iff.1 hcall
    rw [htext] at hbehind ⊢
    obtain rfl := hwritten.nothingBehind_iff.1 hbehind
    exact .call hwritten hrun
  · unfold NothingBehind at hbehind
    rw [if_neg htag] at hbehind
    exact accounted_of_readSections htag hsections hbehind

/-- A word among the points is named by a warning. -/
theorem read_accounted_word :
    ∃ p, read .builtin "P(0,0) junk | | grid=true" "d" = .ok p ∧
      Accounted .builtin "d" (Text.trim "P(0,0) junk | | grid=true".toList) p := by
  have hcheck : (read .builtin "P(0,0) junk | | grid=true" "d").toOption.isSome = true := by
    decide +kernel
  rcases h : read .builtin "P(0,0) junk | | grid=true" "d" with e | p
  · rw [h] at hcheck
    cases hcheck
  · exact ⟨p, rfl, (read_accounted_iff .builtin h).2 (by decide)⟩

/-- What stands behind a third section, or behind a call, goes without a warning. -/
theorem words_behind_unreported :
    let silent (text : String) : Prop := ∃ p, read .builtin text "d" = .ok p ∧ p.warnings = [] ∧
      ¬Accounted .builtin "d" (Text.trim text.toList) p
    silent "P(0,0) | | | junk" ∧ silent "PRESET:hanging() junk" := by
  have hsilent (text : String)
      (hcheck : (read .builtin text "d").toOption.map (·.warnings.length) = some 0)
      (hbehind : ¬NothingBehind (Text.trim text.toList)) :
      ∃ p, read .builtin text "d" = .ok p ∧ p.warnings = [] ∧
        ¬Accounted .builtin "d" (Text.trim text.toList) p := by
    rcases h : read .builtin text "d" with e | p
    · rw [h] at hcheck
      cases hcheck
    · rw [h] at hcheck
      exact ⟨p, rfl, List.length_eq_zero_iff.1 (Option.some.inj hcheck),
        fun hp => hbehind (nothingBehind_of_accounted hp)⟩
  exact ⟨hsilent _ (by decide +kernel) (by decide), hsilent _ (by decide +kernel) (by decide)⟩

end FreeBody.Compact
