import FreeBody.Proofs.Compact.Coverage
import FreeBody.Proofs.Compact.Grammar
import FreeBody.Proofs.Compact.Storing

/-!
# Sections are scanned to their end

The grammar of a section is a repetition of blanks and an element or, where none can be read, a
word, with blanks and the end of the text behind it.  It accepts every text, and what its rules
match are the tokens of the text (`Elements.gives_section`), which leave nothing but blanks between
them (`Covers`).

Everything inside the match of an element is there and of the right kind, so every match is read,
and what is left out with a warning are the words that are no elements (`section_scanned`).
-/

namespace FreeBody.Compact

open Text (Spaces Stops isSpace skipSpaces)
open Grammar (Gives silent rule seq choice star)

/-! ## Tokens -/

/-- A section is blanks and tokens in turn.  A token is not empty and begins with no blank; one
that is no element has no blank in it, and ends at a blank or at the end. -/
inductive Covers {β : Type} : List Char → List (Token β) → Prop
  | blanks {u : List Char} : Spaces u → Covers u []
  | element {u text rest : List Char} {e : β} {tokens : List (Token β)} : Spaces u → text ≠ [] →
      Stops isSpace text → Covers rest tokens →
      Covers (u ++ (text ++ rest)) (⟨text, some e⟩ :: tokens)
  | junk {u text rest : List Char} {tokens : List (Token β)} : Spaces u → text ≠ [] →
      (∀ c ∈ text, isSpace c = false) → Stops (!isSpace ·) rest → Covers rest tokens →
      Covers (u ++ (text ++ rest)) (⟨text, none⟩ :: tokens)

/-- The elements of a kind: their reader, and their grammar, which does what the reader does. -/
structure Elements (β : Type) where
  scanner : Scanner β
  name : Rule
  grammar : Grammar
  inner : β → List Match
  gives : ∀ s, grammar.Gives s (kept inner (scanner.read? s))

/-- Points. -/
def pointElements : Elements PointText :=
  ⟨points, .point, pointGrammar, PointText.inner, gives_point⟩

/-- Forces. -/
def forceElements : Elements ForceText :=
  ⟨forces, .force, forceGrammar, ForceText.inner, gives_force⟩

/-- Options. -/
def optionElements : Elements OptionText :=
  ⟨options, .option, optionGrammar, OptionText.inner, gives_option⟩

namespace Elements

variable {β : Type} (elements : Elements β)

/-- The grammar of one step: blanks, and an element or a word. -/
def step : Grammar :=
  seq (silent .blanks)
    (choice (rule elements.name elements.grammar) (rule .junk (silent .junk)))

/-- The grammar of a section. -/
def all : Grammar := seq (star elements.step) (seq (silent .blanks) (rule .eoi (silent .eoi)))

/-- The tokens of a section. -/
def tokens (s : List Char) : List (Token β) := elements.scanner.tokens s

/-- The match of a token. -/
def tokenMatch (token : Token β) : Match :=
  match token.element with
  | some e => ⟨elements.name, token.text, elements.inner e⟩
  | none => ⟨.junk, token.text, []⟩

/-! ## One step -/

section

variable {elements} {s t rest : List Char} {e : β}

/-- What is read is a part of the text. -/
theorem exists_read (h : elements.scanner.read? t = some (e, rest)) :
    ∃ text, text ≠ [] ∧ t = text ++ rest ∧
      elements.grammar.Gives (text ++ rest) (some (elements.inner e, rest)) := by
  have hgives := elements.gives t
  rw [h] at hgives
  obtain ⟨text, rfl⟩ := hgives.run.exists_append
  refine ⟨text, ?_, rfl, hgives⟩
  rintro rfl
  exact absurd (elements.scanner.shortens h) (Nat.lt_irrefl _)

theorem grammar_fails (h : elements.scanner.read? t = none) : elements.grammar.Gives t none := by
  have hgives := elements.gives t
  rwa [h] at hgives

theorem gives_step_of_read {text : List Char} (hs : skipSpaces s = text ++ rest)
    (h : elements.grammar.Gives (text ++ rest) (some (elements.inner e, rest))) :
    elements.step.Gives s (some ([⟨elements.name, text, elements.inner e⟩], rest)) := by
  have hblanks := gives_blanks s
  rw [hs] at hblanks
  exact .seq hblanks (.first (.rule h))

theorem isSpace_of_skipSpaces {c : Char} (hs : skipSpaces s = c :: t) : isSpace c = false := by
  have := Text.stops_dropWhile isSpace s
  rw [← skipSpaces, hs] at this
  exact Text.stops_cons_iff.1 this

/-- Where no element can be read, the step takes the word up to the next blank. -/
theorem gives_step_of_unread {c : Char} (hs : skipSpaces s = c :: t)
    (h : elements.scanner.read? (c :: t) = none) :
    elements.step.Gives s
      (some ([⟨.junk, c :: t.takeWhile (!isSpace ·), []⟩], t.dropWhile (!isSpace ·))) := by
  have hc : isSpace c = false := isSpace_of_skipSpaces hs
  have hjunk := Peg.run_junk (c :: t)
  have hword : some? (!isSpace ·) (c :: t) =
      some (c :: t.takeWhile (!isSpace ·), t.dropWhile (!isSpace ·)) := by
    simp [some?, hc]
  rw [hword] at hjunk
  have hcut : c :: t = (c :: t.takeWhile (!isSpace ·)) ++ t.dropWhile (!isSpace ·) := by
    rw [List.cons_append, List.takeWhile_append_dropWhile]
  have hblanks := gives_blanks s
  rw [hs] at hblanks
  refine .seq hblanks (.second (.rule_fails (grammar_fails h)) ?_)
  rw [hcut] at hjunk ⊢
  exact .rule (.silent hjunk)

/-- At the end of the text there is no further token. -/
theorem step_fails (hs : skipSpaces s = []) : elements.step.Gives s none := by
  have hblanks := gives_blanks s
  rw [hs] at hblanks
  have hread : elements.scanner.read? [] = none := by
    refine Option.eq_none_iff_forall_ne_some.2 fun ⟨e, rest⟩ h => ?_
    exact absurd (elements.scanner.shortens h) (Nat.not_lt_zero _)
  have hjunk := Peg.run_junk []
  exact .seq_stops hblanks
    (.second (.rule_fails (grammar_fails hread)) (.rule_fails (.silent_fails hjunk)))

end

/-! ## The run -/

/-- The repetition finds the tokens, and leaves blanks. -/
theorem exists_gives_steps (s : List Char) :
    ∃ rest, Spaces rest ∧
      (star elements.step).Gives s (some ((elements.tokens s).map elements.tokenMatch, rest)) := by
  unfold tokens
  fun_induction Scanner.tokens elements.scanner s with
  | case1 s hs => exact ⟨s, List.dropWhile_eq_nil_iff.1 hs, .done (step_fails hs)⟩
  | case2 s c more hs e after hread ih =>
    obtain ⟨rest, hrest, hgives⟩ := ih
    obtain ⟨text, -, ht, helement⟩ := exists_read hread
    refine ⟨rest, hrest, ?_⟩
    rw [ht, List.length_append, Nat.add_sub_cancel, List.take_left]
    exact .more (gives_step_of_read (hs.trans ht) helement) hgives
  | case3 s c more hs hread ih =>
    obtain ⟨rest, hrest, hgives⟩ := ih
    exact ⟨rest, hrest, .more (gives_step_of_unread hs hread) hgives⟩

/-- What the grammar makes of any text: its tokens, and the end. -/
theorem gives_section (s : List Char) :
    elements.all.Gives s
      (some ((elements.tokens s).map elements.tokenMatch ++ [leaf .eoi []], [])) := by
  obtain ⟨rest, hrest, hgives⟩ := elements.exists_gives_steps s
  have hblanks := gives_blanks rest
  have hnil : skipSpaces rest = [] := List.dropWhile_eq_nil_iff.2 hrest
  rw [hnil] at hblanks
  have hend : (rule .eoi (silent .eoi)).Gives ([] ++ []) (some ([leaf .eoi []], [])) :=
    .rule (.silent .eoi)
  exact .seq hgives (.seq hblanks hend)

/-- The tokens leave nothing of the text but blanks. -/
theorem covers_tokens (s : List Char) : Covers s (elements.tokens s) := by
  unfold tokens
  fun_induction Scanner.tokens elements.scanner s with
  | case1 s hs =>
    rw [← List.append_nil s]
    exact .blanks fun c hc => List.dropWhile_eq_nil_iff.1 hs c (by simpa using hc)
  | case2 s c more hs e rest hread ih =>
    obtain ⟨u, hu, hcut⟩ := Text.exists_skipSpaces s
    obtain ⟨text, hne, ht, -⟩ := exists_read hread
    have hstart : Stops isSpace text := by
      intro d hd
      refine Text.stops_dropWhile isSpace s d ?_
      rw [← skipSpaces, hs, ht, List.head?_append_of_ne_nil text hne]
      exact hd
    rw [hcut, hs, ht, List.length_append, Nat.add_sub_cancel, List.take_left]
    exact .element hu hne hstart ih
  | case3 s c more hs _ ih =>
    obtain ⟨u, hu, hcut⟩ := Text.exists_skipSpaces s
    have hword : s = u ++ ((c :: more.takeWhile (!isSpace ·)) ++ more.dropWhile (!isSpace ·)) := by
      rw [List.cons_append, List.takeWhile_append_dropWhile, ← hs, ← hcut]
    have hc : isSpace c = false := isSpace_of_skipSpaces hs
    have hall : ∀ d ∈ c :: more.takeWhile (!isSpace ·), isSpace d = false := by
      rw [List.forall_mem_cons]
      exact ⟨hc, fun d hd => by simpa using List.mem_takeWhile_imp hd⟩
    rw [hword]
    exact .junk hu (List.cons_ne_nil _ _) hall (Text.stops_dropWhile _ more) ih

/-- An element among the tokens was read where its text stands. -/
theorem exists_read_of_mem {s : List Char} {token : Token β} (h : token ∈ elements.tokens s)
    {e : β} (he : token.element = some e) :
    ∃ rest, elements.scanner.read? (token.text ++ rest) = some (e, rest) := by
  unfold tokens at h
  fun_induction Scanner.tokens elements.scanner s with
  | case1 => cases h
  | case2 s c more hs e' rest hread ih =>
    rcases List.mem_cons.1 h with rfl | h
    · obtain rfl := Option.some.inj he
      obtain ⟨text, -, ht, -⟩ := exists_read hread
      refine ⟨rest, ?_⟩
      rw [ht, List.length_append, Nat.add_sub_cancel, List.take_left, ← ht]
      exact hread
    · exact ih h
  | case3 s c more hs _ ih =>
    rcases List.mem_cons.1 h with rfl | h
    · cases he
    · exact ih h

/-- What a section comes to: the grammar accepts it, in one way only, and its matches are the
tokens, which cover the text. -/
structure Scans (s : List Char) : Prop where
  accepts : ∀ r, elements.all.peg.Run s r ↔ r = some []
  matches_tokens : ∀ r, elements.all.Gives s r ↔
    r = some ((elements.tokens s).map elements.tokenMatch ++ [leaf .eoi []], [])
  covers : Covers s (elements.tokens s)

theorem scans (s : List Char) : elements.Scans s where
  accepts r := by
    have hrun := (elements.gives_section s).run
    exact ⟨fun h => h.unique hrun, fun h => h ▸ hrun⟩
  matches_tokens r := by
    have hgives := elements.gives_section s
    exact ⟨fun h => h.unique hgives, fun h => h ▸ hgives⟩
  covers := elements.covers_tokens s

end Elements

/-! ## Reading the matches -/

/-- The number of a match, if its rule is that of numbers. -/
def Match.number? (m : Option Match) : Option Float :=
  (m.filter (·.rule = .number)).bind fun m => Decimal.read? m.text

/-- The point with these matches inside. -/
def pointOf? (inner : List Match) : Option Point := do
  let id ← inner[0]?
  let x ← Match.number? inner[1]?
  let y ← Match.number? inner[2]?
  let label := (inner[3]?.map fun m => Text.trim m.text).filter (!·.isEmpty)
  pure ⟨String.ofList id.text, x, y, label.map String.ofList, .free⟩

/-- The force with these matches inside, and a warning if its kind is unknown. -/
def forceOf? (inner : List Match) : Option (Force × List Warning) := do
  let id ← inner[0]?
  let point ← inner[1]?
  let magnitude ← Match.number? inner[2]?
  let angle ← Match.number? inner[3]?
  let label ← inner[4]?
  let force (kind : Option ForceKind) : Force :=
    .plain (String.ofList id.text) (String.ofList point.text) magnitude angle
      (String.ofList (Text.trim label.text)) kind
  match inner[5]? with
  | none => pure (force none, [])
  | some kind =>
    match Keyword.read (String.ofList kind.text) with
    | .ok k => pure (force (some k), [])
    | .error _ =>
      pure (force none, [.unknownForceKind (String.ofList id.text) (String.ofList kind.text)])

/-- The option with these matches inside. -/
def optionOf? (inner : List Match) : Option OptionText := do
  let key ← inner[0]?
  let value ← inner[1]?
  pure ⟨key.text, value.text⟩

theorem pointOf?_inner (t : PointText) : pointOf? t.inner = t.point? := by
  obtain ⟨id, x, y, _ | label⟩ := t <;> rfl

theorem forceOf?_inner (t : ForceText) : forceOf? t.inner = t.force? := by
  obtain ⟨id, point, magnitude, angle, label, _ | kind⟩ := t <;> rfl

theorem optionOf?_inner (t : OptionText) : optionOf? t.inner = some t := rfl

/-- The elements among the tokens of a section, in turn. -/
def Elements.found {β : Type} (elements : Elements β) (s : List Char) : List β :=
  (elements.tokens s).filterMap Token.element

/-- What reading a section comes to, given its results and its warnings: every element is written
as its rule says, with its numbers, and the matches inside it are read, in the order of the tokens;
what is skipped are the words that are no elements. -/
structure Elements.ReadsAll {β γ : Type} (elements : Elements β)
    (IsWritten : β → List Char → Prop) (numbers : β → List (List Char))
    (of? : List Match → Option γ) (skip : String → Warning) (s : List Char) (results : List γ)
    (warnings : List Warning) : Prop where
  written : ∀ token ∈ elements.tokens s, ∀ e, token.element = some e →
    IsWritten e token.text ∧ ∀ n ∈ numbers e, IsNumeral n
  read : List.Forall₂ (fun e x => of? (elements.inner e) = some x) (elements.found s) results
  skipped : ∀ text, skip text ∈ warnings ↔
    ∃ token ∈ elements.tokens s, token.element = none ∧ String.ofList token.text = text

section

variable {β γ : Type} {tokens : List (Token β)} {collect : Token β → List γ × List Warning}
  {skip : String → Warning}

/-- Tokens that give one result for each element give them in turn. -/
theorem forall₂_found {P : β → γ → Prop}
    (helement : ∀ token ∈ tokens, ∀ e, token.element = some e →
      ∃ x, (collect token).1 = [x] ∧ P e x)
    (hword : ∀ token ∈ tokens, token.element = none → (collect token).1 = []) :
    List.Forall₂ P (tokens.filterMap Token.element)
      (tokens.flatMap fun token => (collect token).1) := by
  induction tokens with
  | nil => exact .nil
  | cons token tokens ih =>
    have hlater := ih (fun t ht => helement t (List.mem_cons_of_mem token ht))
      (fun t ht => hword t (List.mem_cons_of_mem token ht))
    rw [List.flatMap_cons]
    cases he : token.element with
    | none =>
      rw [hword token List.mem_cons_self he, List.filterMap_cons_none he]
      exact hlater
    | some e =>
      obtain ⟨x, hx, hP⟩ := helement token List.mem_cons_self e he
      rw [hx, List.filterMap_cons_some he]
      exact .cons hP hlater

/-- Words are skipped, and nothing else is. -/
theorem skip_mem_iff (hinj : Function.Injective skip)
    (helement : ∀ token ∈ tokens, ∀ e, token.element = some e →
      ∀ text, skip text ∉ (collect token).2)
    (hword : ∀ token, token.element = none →
      (collect token).2 = [skip (String.ofList token.text)]) (text : String) :
    skip text ∈ tokens.flatMap (fun token => (collect token).2) ↔
      ∃ token ∈ tokens, token.element = none ∧ String.ofList token.text = text := by
  rw [List.mem_flatMap]
  constructor
  · rintro ⟨token, htoken, hmem⟩
    cases he : token.element with
    | none =>
      rw [hword token he, List.mem_singleton] at hmem
      exact ⟨token, htoken, he, (hinj hmem).symm⟩
    | some e => exact absurd hmem (helement token htoken e he text)
  · rintro ⟨token, htoken, he, rfl⟩
    refine ⟨token, htoken, ?_⟩
    rw [hword token he]
    exact List.mem_singleton_self _

end

/-- The only warning that a force gives is about its kind. -/
theorem skippedForce_not_mem {t : ForceText} {f : Force} {warnings : List Warning}
    (h : t.force? = some (f, warnings)) (text : String) : .skippedForce text ∉ warnings := by
  obtain ⟨magnitude, -, h⟩ := Option.bind_eq_some_iff.1 h
  obtain ⟨angle, -, h⟩ := Option.bind_eq_some_iff.1 h
  dsimp only at h
  split at h
  · obtain ⟨-, rfl⟩ := Prod.mk.inj (Option.some.inj h)
    exact List.not_mem_nil
  · split at h
    · obtain ⟨-, rfl⟩ := Prod.mk.inj (Option.some.inj h)
      exact List.not_mem_nil
    · obtain ⟨-, rfl⟩ := Prod.mk.inj (Option.some.inj h)
      simp

section

variable (s : List Char)

theorem written_of_mem {β : Type} (elements : Elements β) {IsWritten : β → List Char → Prop}
    (numbers : β → List (List Char))
    (hsound : ∀ {s rest : List Char} {e : β}, elements.scanner.read? s = some (e, rest) →
      ∃ text, IsWritten e text ∧ s = text ++ rest)
    (hnumbers : ∀ {s rest : List Char} {e : β}, elements.scanner.read? s = some (e, rest) →
      ∀ n ∈ numbers e, IsNumeral n) :
    ∀ token ∈ elements.tokens s, ∀ e, token.element = some e →
      IsWritten e token.text ∧ ∀ n ∈ numbers e, IsNumeral n := by
  intro token htoken e he
  obtain ⟨rest, hread⟩ := elements.exists_read_of_mem htoken he
  obtain ⟨text, hwritten, htext⟩ := hsound hread
  rw [List.append_cancel_right htext]
  exact ⟨hwritten, hnumbers hread⟩

theorem readsAll_points :
    pointElements.ReadsAll PointText.IsWritten PointText.numbers pointOf? .skippedPoint s
      (readPoints s).1 (readPoints s).2 := by
  have hwritten := written_of_mem s pointElements PointText.numbers point?_sound isNumeral_of_point?
  have hread : ∀ token ∈ pointElements.tokens s, ∀ t, token.element = some t →
      ∃ p, collectPoint token = ([p], []) ∧ pointOf? t.inner = some p := by
    intro token htoken t ht
    obtain ⟨p, hp, -⟩ := PointText.exists_point? (hwritten token htoken t ht).2
    exact ⟨p, by rw [collectPoint, ht, Option.bind_some, hp], (pointOf?_inner t).trans hp⟩
  have hword (token : Token PointText) (h : token.element = none) :
      collectPoint token = ([], [.skippedPoint (String.ofList token.text)]) := by
    rw [collectPoint, h]
    rfl
  rw [readPoints_eq]
  refine ⟨hwritten, forall₂_found (fun token htoken t ht => ?_) (fun token _ h => ?_),
    skip_mem_iff (fun _ _ => Warning.skippedPoint.inj) (fun token htoken t ht text => ?_)
      (fun token h => ?_)⟩
  · obtain ⟨p, hp, hof⟩ := hread token htoken t ht
    exact ⟨p, by rw [hp], hof⟩
  · rw [hword token h]
  · obtain ⟨p, hp, -⟩ := hread token htoken t ht
    rw [hp]
    exact List.not_mem_nil
  · rw [hword token h]

theorem readsAll_forces :
    forceElements.ReadsAll ForceText.IsWritten ForceText.numbers
      (fun inner => (forceOf? inner).map Prod.fst) .skippedForce s (readForces s).1
      (readForces s).2 := by
  have hwritten := written_of_mem s forceElements ForceText.numbers force?_sound isNumeral_of_force?
  have hread : ∀ token ∈ forceElements.tokens s, ∀ t, token.element = some t →
      ∃ f warnings, collectForce token = ([f], warnings) ∧ t.force? = some (f, warnings) := by
    intro token htoken t ht
    obtain ⟨f, warnings, hf, -⟩ := ForceText.exists_force? (hwritten token htoken t ht).2
    exact ⟨f, warnings, by rw [collectForce, ht, Option.bind_some, hf], hf⟩
  have hword (token : Token ForceText) (h : token.element = none) :
      collectForce token = ([], [.skippedForce (String.ofList token.text)]) := by
    rw [collectForce, h]
    rfl
  rw [readForces_eq]
  refine ⟨hwritten, forall₂_found (fun token htoken t ht => ?_) (fun token _ h => ?_),
    skip_mem_iff (fun _ _ => Warning.skippedForce.inj) (fun token htoken t ht text => ?_)
      (fun token h => ?_)⟩
  · obtain ⟨f, warnings, hf, hof⟩ := hread token htoken t ht
    refine ⟨f, by rw [hf], ?_⟩
    show (forceOf? t.inner).map Prod.fst = some f
    rw [forceOf?_inner, hof, Option.map_some]
  · rw [hword token h]
  · obtain ⟨f, warnings, hf, hof⟩ := hread token htoken t ht
    rw [hf]
    exact skippedForce_not_mem hof text
  · rw [hword token h]

theorem readsAll_options (b : Builder) :
    optionElements.ReadsAll OptionText.IsWritten (fun _ => []) optionOf? .skippedOption s
      (optionElements.found s) (readOptions b s).2 := by
  have hwritten := written_of_mem s optionElements (fun _ => []) option?_sound
    fun _ => List.forall_mem_nil _
  rw [readOptions_eq]
  refine ⟨hwritten, List.forall₂_same.2 fun t _ => optionOf?_inner t,
    skip_mem_iff (fun _ _ => Warning.skippedOption.inj) (fun token _ o ho text => ?_)
      (fun token h => ?_)⟩
  · rw [collectOption, ho]
    by_cases hkey : String.ofList o.key ∈ optionKeys <;> simp [hkey]
  · rw [collectOption, h]

/-- **The scanners accept every text and cover it.**  Whatever a section holds, its grammar accepts
it, and the matches are its tokens, which leave nothing but blanks.  No element is skipped: a point
and a force have their name and two numbers, and are read; what is skipped are the words. -/
theorem section_scanned (b : Builder) :
    (pointElements.Scans s ∧ pointElements.ReadsAll PointText.IsWritten PointText.numbers pointOf?
      .skippedPoint s (readPoints s).1 (readPoints s).2) ∧
    (forceElements.Scans s ∧ forceElements.ReadsAll ForceText.IsWritten ForceText.numbers
      (fun inner => (forceOf? inner).map Prod.fst) .skippedForce s (readForces s).1
      (readForces s).2) ∧
    optionElements.Scans s ∧ optionElements.ReadsAll OptionText.IsWritten (fun _ => []) optionOf?
      .skippedOption s (optionElements.found s) (readOptions b s).2 :=
  ⟨⟨pointElements.scans s, readsAll_points s⟩, ⟨forceElements.scans s, readsAll_forces s⟩,
    optionElements.scans s, readsAll_options s b⟩

end

end FreeBody.Compact
