import FreeBody.Proofs.Compact.Call
import FreeBody.Proofs.Text.Lines

/-!
# Recognising a preset call

The grammar of calls finds the end of the arguments by looking ahead: at every character it tries
whether a closing parenthesis without another one behind it begins there.  `Peg.Run` says what
such a grammar does, and `Peg.call` is that of calls.  On every text the reader does what the
grammar does: the tests in front stop exactly at the last parenthesis (`Peg.run_arguments`), and
where they find none the other alternative is left (`readCall_iff_derives`).

So it depends on the text behind the name alone whether a text with the tag of a call is one, and
which preset is asked for with which arguments (`read_tagged`).
-/

namespace FreeBody.Compact

open Text (Spaces Stops isSpace skipSpaces)

/-! ## Grammars -/

/-- A grammar that tries alternatives in order and can look ahead. -/
inductive Peg
  | char (p : Char → Bool)
  | seq (a b : Peg)
  | choice (a b : Peg)
  | star (a : Peg)
  | no (a : Peg)
  | eoi

namespace Peg

/-- What a grammar leaves of a text from whose front it takes what it matches, if it does.  The
second alternative is tried only if the first one fails, and no repetition is given back. -/
inductive Run : Peg → List Char → Option (List Char) → Prop
  | char {p : Char → Bool} {c : Char} {s : List Char} : p c = true → Run (char p) (c :: s) (some s)
  | char_fails {p : Char → Bool} {s : List Char} : Stops p s → Run (char p) s none
  | seq {a b : Peg} {s t : List Char} {r : Option (List Char)} :
      Run a s (some t) → Run b t r → Run (seq a b) s r
  | seq_fails {a b : Peg} {s : List Char} : Run a s none → Run (seq a b) s none
  | first {a b : Peg} {s t : List Char} : Run a s (some t) → Run (choice a b) s (some t)
  | second {a b : Peg} {s : List Char} {r : Option (List Char)} :
      Run a s none → Run b s r → Run (choice a b) s r
  | more {a : Peg} {s t : List Char} {r : Option (List Char)} :
      Run a s (some t) → Run (star a) t r → Run (star a) s r
  | done {a : Peg} {s : List Char} : Run a s none → Run (star a) s (some s)
  | no {a : Peg} {s : List Char} : Run a s none → Run (no a) s (some s)
  | no_fails {a : Peg} {s t : List Char} : Run a s (some t) → Run (no a) s none
  | eoi : Run eoi [] (some [])
  | eoi_fails {c : Char} {s : List Char} : Run eoi (c :: s) none

/-- Whether a grammar takes `taken` from the front and leaves `rest`. -/
def Takes (a : Peg) (taken rest : List Char) : Prop := a.Run (taken ++ rest) (some rest)

section

variable {a : Peg} {p : Char → Bool} {s t : List Char} {r r' : Option (List Char)}

/-- A grammar does one thing. -/
theorem Run.unique (h : a.Run s r) (h' : a.Run s r') : r = r' := by
  induction h generalizing r' with
  | char hc =>
    cases h' with
    | char => rfl
    | char_fails hstop => exact absurd (Text.stops_cons_iff.1 hstop) (by simp [hc])
  | char_fails hstop =>
    cases h' with
    | char hc => exact absurd (Text.stops_cons_iff.1 hstop) (by simp [hc])
    | char_fails => rfl
  | seq _ _ iha ihb =>
    cases h' with
    | seq ha hb =>
      obtain rfl := Option.some.inj (iha ha)
      exact ihb hb
    | seq_fails ha => cases iha ha
  | seq_fails _ iha =>
    cases h' with
    | seq ha hb => cases iha ha
    | seq_fails => rfl
  | first _ iha =>
    cases h' with
    | first ha => exact iha ha
    | second ha hb => cases iha ha
  | second _ _ iha ihb =>
    cases h' with
    | first ha => cases iha ha
    | second ha hb => exact ihb hb
  | more _ _ iha ihs =>
    cases h' with
    | more ha hs =>
      obtain rfl := Option.some.inj (iha ha)
      exact ihs hs
    | done ha => cases iha ha
  | done _ iha =>
    cases h' with
    | more ha hs => cases iha ha
    | done => rfl
  | no _ iha =>
    cases h' with
    | no => rfl
    | no_fails ha => cases iha ha
  | no_fails _ iha =>
    cases h' with
    | no ha => cases iha ha
    | no_fails => rfl
  | eoi =>
    cases h'
    rfl
  | eoi_fails =>
    cases h'
    rfl

/-- What is left is the end of the text. -/
theorem Run.exists_append (h : a.Run s (some t)) : ∃ taken, s = taken ++ t := by
  generalize hr : some t = r at h
  induction h generalizing t with
  | @char p c s hc =>
    obtain rfl := Option.some.inj hr
    exact ⟨[c], rfl⟩
  | seq _ _ iha ihb | more _ _ iha ihb =>
    obtain ⟨taken, rfl⟩ := iha rfl
    obtain ⟨taken', rfl⟩ := ihb hr
    exact ⟨taken ++ taken', (List.append_assoc ..).symm⟩
  | first _ iha => exact iha hr
  | second _ _ _ ihb => exact ihb hr
  | done | no | eoi =>
    obtain rfl := Option.some.inj hr
    exact ⟨[], rfl⟩
  | char_fails | seq_fails | no_fails | eoi_fails => cases hr

/-- Whether a grammar takes one character if it has the property `p`, and fails otherwise. -/
structure TakesOne (a : Peg) (p : Char → Bool) : Prop where
  takes : ∀ {c : Char} (s : List Char), p c = true → a.Run (c :: s) (some s)
  fails : ∀ {s : List Char}, Stops p s → a.Run s none

theorem takesOne_char (p : Char → Bool) : (char p).TakesOne p := ⟨fun _ => .char, .char_fails⟩

/-- Characters of a kind are taken as far as they go. -/
theorem TakesOne.run_star (h : a.TakesOne p) (s : List Char) :
    (star a).Run s (some (s.dropWhile p)) := by
  induction s with
  | nil => exact .done (h.fails (Text.stops_nil p))
  | cons c s ih =>
    cases hc : p c with
    | true =>
      rw [List.dropWhile_cons_of_pos hc]
      exact .more (h.takes s hc) ih
    | false =>
      rw [List.dropWhile_cons_of_neg (by simp [hc])]
      exact .done (h.fails (Text.stops_cons_iff.2 hc))

theorem run_star_char (p : Char → Bool) (s : List Char) :
    (star (.char p)).Run s (some (s.dropWhile p)) := (takesOne_char p).run_star s

/-- Any character but one. -/
theorem TakesOne.but (h : a.TakesOne p) :
    (seq (no a) (.char fun _ => true)).TakesOne (!p ·) where
  takes {c} s hc := .seq (.no (h.fails (Text.stops_cons_iff.2 (by simpa using hc)))) (.char rfl)
  fails {s} hs := by
    cases s with
    | nil => exact .seq (.no (h.fails (Text.stops_nil p))) (.char_fails (Text.stops_nil _))
    | cons c s =>
      exact .seq_fails (.no_fails (h.takes s (by simpa using Text.stops_cons_iff.1 hs)))

end

/-! ## The grammar of calls -/

/-- Any character. -/
def any : Peg := .char fun _ => true

/-- The character `c`. -/
def only (c : Char) : Peg := .char (· == c)

/-- Blanks. -/
def blanks : Peg := .star (.char isSpace)

/-- The name of a preset. -/
def name : Peg := .seq (.char isPresetChar) (.star (.char isPresetChar))

/-- A closing parenthesis and what stands behind it, with no other one. -/
def lastParen : Peg := .seq (only ')') (.seq (.star (.seq (.no (only ')')) any)) .eoi)

/-- Everything up to the last closing parenthesis. -/
def arguments : Peg := .star (.seq (.no lastParen) any)

/-- Arguments in parentheses, and anything behind them. -/
def applied : Peg :=
  .seq blanks (.seq (only '(') (.seq arguments (.seq (only ')') (.star any))))

/-- A call behind its tag. -/
def call : Peg := .seq name (.seq (.choice applied blanks) .eoi)

section

variable {s t args behind : List Char}

theorem run_any (c : Char) (s : List Char) : any.Run (c :: s) (some s) := .char rfl

theorem run_only (c : Char) (s : List Char) : (only c).Run (c :: s) (some s) := .char (by simp)

theorem run_only_fails {c : Char} (h : ∀ rest, s ≠ c :: rest) : (only c).Run s none := by
  refine .char_fails fun d hd => ?_
  rw [beq_eq_false_iff_ne]
  rintro rfl
  cases s with
  | nil => cases hd
  | cons e s =>
    obtain rfl := Option.some.inj hd
    exact h s rfl

theorem eq_of_run_only {c : Char} (h : (only c).Run s (some t)) : s = c :: t := by
  cases h with
  | char hc => rw [beq_iff_eq.1 hc]

theorem run_star_any (s : List Char) : (star any).Run s (some []) := by
  have hall : s.dropWhile (fun _ => true) = [] := List.dropWhile_eq_nil_iff.2 fun _ _ => rfl
  have hrun := run_star_char (fun _ => true) s
  rwa [hall] at hrun

theorem takesOne_only (c : Char) : (only c).TakesOne (· == c) := takesOne_char _

/-- The tests that a parenthesis is the last one go on to the next one. -/
theorem run_behind (s : List Char) :
    (star (.seq (.no (only ')')) any)).Run s (some (s.dropWhile (· != ')'))) :=
  (takesOne_only ')').but.run_star s

theorem run_lastParen (h : ')' ∉ behind) : lastParen.Run (')' :: behind) (some []) := by
  have hall : behind.dropWhile (· != ')') = [] := by
    refine List.dropWhile_eq_nil_iff.2 fun c hc => bne_iff_ne.2 ?_
    rintro rfl
    exact h hc
  have hrun := run_behind behind
  rw [hall] at hrun
  exact .seq (run_only ')' behind) (.seq hrun .eoi)

/-- A parenthesis with another one behind it is not the last one. -/
theorem run_lastParen_fails (h : ')' ∈ behind) : lastParen.Run (')' :: behind) none := by
  have hne : behind.dropWhile (· != ')') ≠ [] := fun hnil =>
    absurd (List.dropWhile_eq_nil_iff.1 hnil _ h) (by decide)
  obtain ⟨c, rest, hrest⟩ := List.exists_cons_of_ne_nil hne
  have hrun := run_behind behind
  rw [hrest] at hrun
  exact .seq (run_only ')' behind) (.seq hrun .eoi_fails)

theorem run_lastParen_fails_of_ne {c : Char} (h : c ≠ ')') (s : List Char) :
    lastParen.Run (c :: s) none := .seq_fails (run_only_fails (by simp [h]))

/-- A step of the arguments, if the last parenthesis does not begin there. -/
theorem run_arguments_cons {c : Char} {r : Option (List Char)} (h : c = ')' → ')' ∈ s)
    (hs : arguments.Run s r) : arguments.Run (c :: s) r := by
  refine .more (.seq (.no ?_) (run_any c s)) hs
  by_cases hc : c = ')'
  · subst hc
    exact run_lastParen_fails (h rfl)
  · exact run_lastParen_fails_of_ne hc s

/-- **The arguments end at the last closing parenthesis**, however many there are. -/
theorem run_arguments (h : ')' ∉ behind) (args : List Char) :
    arguments.Run (args ++ ')' :: behind) (some (')' :: behind)) := by
  induction args with
  | nil => exact .done (.seq_fails (.no_fails (run_lastParen h)))
  | cons c args ih =>
    exact run_arguments_cons (fun _ => List.mem_append_right args List.mem_cons_self) ih

/-- Without a closing parenthesis the arguments are all of the text. -/
theorem run_arguments_all (h : ')' ∉ s) : arguments.Run s (some []) := by
  induction s with
  | nil =>
    refine .done (.seq (.no (.seq_fails (run_only_fails (by simp)))) ?_)
    exact .char_fails (Text.stops_nil _)
  | cons c s ih =>
    rw [List.mem_cons, not_or] at h
    exact run_arguments_cons (fun hc => absurd hc.symm h.1) (ih h.2)

theorem exists_lastParen (h : ')' ∈ s) :
    ∃ args behind, ')' ∉ behind ∧ s = args ++ ')' :: behind := by
  cases hs : beforeLastParen? s with
  | none => exact absurd h (beforeLastParen?_eq_none_iff.1 hs)
  | some args =>
    obtain ⟨behind, hbehind, rfl⟩ := beforeLastParen?_eq_some_iff.1 hs
    exact ⟨args, behind, hbehind, rfl⟩

theorem run_applied {u : List Char} (hu : Spaces u) (hbehind : ')' ∉ behind) (args : List Char) :
    applied.Run (u ++ '(' :: (args ++ ')' :: behind)) (some []) := by
  have hblanks := run_star_char isSpace (u ++ '(' :: (args ++ ')' :: behind))
  rw [Text.dropWhile_append_of_stops hu (Text.stops_cons_iff.2 rfl)] at hblanks
  exact .seq hblanks (.seq (run_only '(' _) (.seq (run_arguments hbehind args)
    (.seq (run_only ')' behind) (run_star_any behind))))

/-- The first alternative fails, wherever it does so, if there are not two parentheses. -/
theorem run_applied_fails (h : ∀ body, skipSpaces s = '(' :: body → ')' ∉ body) :
    applied.Run s none := by
  refine .seq (run_star_char isSpace s) ?_
  by_cases hopen : ∃ body, s.dropWhile isSpace = '(' :: body
  · obtain ⟨body, hbody⟩ := hopen
    rw [hbody]
    refine .seq (run_only '(' body) (.seq (run_arguments_all (h body hbody)) (.seq_fails ?_))
    exact run_only_fails (by simp)
  · exact .seq_fails (run_only_fails fun body hbody => hopen ⟨body, hbody⟩)

theorem takes_star_char_iff {p : Char → Bool} {rest : List Char} :
    (star (.char p)).Takes t rest ↔ (∀ c ∈ t, p c = true) ∧ Stops p rest := by
  constructor
  · intro h
    have hrest : rest = (t ++ rest).dropWhile p := Option.some.inj (h.unique (run_star_char p _))
    have hcut := List.takeWhile_append_dropWhile (p := p) (l := t ++ rest)
    rw [← hrest, List.append_left_inj] at hcut
    refine ⟨fun c hc => ?_, hrest ▸ Text.stops_dropWhile p _⟩
    rw [← hcut] at hc
    exact List.mem_takeWhile_imp hc
  · rintro ⟨ht, hrest⟩
    have hrun := run_star_char p (t ++ rest)
    rwa [Text.dropWhile_append_of_stops ht hrest] at hrun

theorem takes_name_iff {rest : List Char} :
    name.Takes t rest ↔ IsPresetName t ∧ Stops isPresetChar rest := by
  constructor
  · intro h
    unfold Takes at h
    generalize hs : t ++ rest = s at h
    cases h with
    | seq hfirst hothers =>
    cases hfirst with
    | @char _ c s hc =>
    obtain ⟨others, rfl⟩ := hothers.exists_append
    have htail := takes_star_char_iff.1 hothers
    have ht : t = c :: others := by
      rwa [← List.cons_append, List.append_left_inj] at hs
    exact ⟨⟨by simp [ht], by simpa [ht, hc] using htail.1⟩, htail.2⟩
  · rintro ⟨hname, hrest⟩
    obtain ⟨c, others, rfl⟩ := List.exists_cons_of_ne_nil hname.ne_nil
    have hall := List.forall_mem_cons.1 hname.isPresetChar
    exact .seq (.char hall.1) (takes_star_char_iff.2 ⟨hall.2, hrest⟩)

theorem takes_arguments_iff : arguments.Takes args (')' :: behind) ↔ ')' ∉ behind := by
  refine ⟨fun h => ?_, fun h => run_arguments h args⟩
  obtain ⟨args', behind', hbehind, hs⟩ := exists_lastParen
    (List.mem_append_right args (List.mem_cons_self (a := ')') (l := behind)))
  unfold Takes at h
  rw [hs] at h
  have := Option.some.inj (h.unique (run_arguments hbehind args'))
  rwa [(List.cons.inj this).2]

end

end Peg

/-! ## Reading by the grammar -/

/-- A call as the grammar finds it: its name and its arguments are what their rules take.  There
are none where the alternative with parentheses fails. -/
inductive Call.Derives : Call → List Char → Prop
  | applied {name blanks args behind : List Char} :
      Peg.name.Takes name (blanks ++ '(' :: (args ++ ')' :: behind)) →
      Peg.blanks.Takes blanks ('(' :: (args ++ ')' :: behind)) →
      Peg.arguments.Takes args (')' :: behind) →
      Derives ⟨name, some args⟩ (name ++ (blanks ++ '(' :: (args ++ ')' :: behind)))
  | bare {name blanks : List Char} :
      Peg.name.Takes name blanks → Peg.applied.Run blanks none → Peg.blanks.Takes blanks [] →
      Derives ⟨name, none⟩ (name ++ blanks)

section

variable {whole s : List Char} {call : Call}

theorem derives_iff : call.Derives s ↔ ∃ behind, call.IsWritten s behind := by
  constructor
  · intro h
    cases h with
    | applied hname hblanks hargs =>
      exact ⟨_, .applied (Peg.takes_name_iff.1 hname).1 (Peg.takes_star_char_iff.1 hblanks).1
        (Peg.takes_arguments_iff.1 hargs)⟩
    | bare hname _ hblanks =>
      exact ⟨[], .bare (Peg.takes_name_iff.1 hname).1 (Peg.takes_star_char_iff.1 hblanks).1⟩
  · rintro ⟨behind, h⟩
    cases h with
    | applied hname hb hbehind =>
      have hparen (body : List Char) : Stops isPresetChar ('(' :: body) :=
        Text.stops_cons_iff.2 (by decide)
      exact .applied (Peg.takes_name_iff.2 ⟨hname, stops_isPresetChar hb (hparen _)⟩)
        (Peg.takes_star_char_iff.2 ⟨hb, Text.stops_cons_iff.2 (by decide)⟩)
        (Peg.takes_arguments_iff.2 hbehind)
    | @bare name blanks hname hb =>
      have hstop := stops_isPresetChar hb (Text.stops_nil _)
      have hnone : skipSpaces blanks = [] := List.dropWhile_eq_nil_iff.2 hb
      rw [List.append_nil] at hstop
      refine .bare (Peg.takes_name_iff.2 ⟨hname, hstop⟩) (Peg.run_applied_fails ?_)
        (Peg.takes_star_char_iff.2 ⟨hb, Text.stops_nil _⟩)
      rw [hnone]
      nofun

/-- The grammar accepts a text exactly if it finds a call there. -/
theorem run_call_iff : Peg.call.Run s (some []) ↔ ∃ call : Call, call.Derives s := by
  constructor
  · intro h
    cases h with
    | seq hname hrest =>
    obtain ⟨name, rfl⟩ := hname.exists_append
    cases hrest with
    | seq hchoice hend =>
    cases hend
    cases hchoice with
    | first happlied =>
      cases happlied with
      | seq hblanks hparens =>
      obtain ⟨blanks, rfl⟩ := hblanks.exists_append
      cases hparens with
      | seq hopen hinside =>
      obtain rfl := Peg.eq_of_run_only hopen
      cases hinside with
      | seq hargs hclose =>
      obtain ⟨args, rfl⟩ := hargs.exists_append
      cases hclose with
      | seq hclose _ =>
      obtain rfl := Peg.eq_of_run_only hclose
      exact ⟨_, .applied hname hblanks hargs⟩
    | second hfails hblanks =>
      obtain ⟨blanks, hb⟩ := hblanks.exists_append
      rw [List.append_nil] at hb
      subst hb
      refine ⟨_, .bare hname hfails ?_⟩
      rwa [Peg.Takes, List.append_nil]
  · rintro ⟨call, h⟩
    cases h with
    | applied hname hblanks hargs =>
      refine .seq hname (.seq (.first ?_) .eoi)
      exact Peg.run_applied (Peg.takes_star_char_iff.1 hblanks).1
        (Peg.takes_arguments_iff.1 hargs) _
    | bare hname hfails hblanks =>
      rw [Peg.Takes, List.append_nil] at hblanks
      exact .seq hname (.seq (.second hfails hblanks) .eoi)

/-- **The reader does what the grammar does.**  It reads the calls that the grammar finds, and
refuses the texts that the grammar does not accept. -/
theorem readCall_iff_derives :
    (readCall whole s = .ok call ↔ call.Derives s) ∧
      ((∃ e, readCall whole s = .error e) ↔ ¬ Peg.call.Run s (some [])) := by
  have hderives (call : Call) : readCall whole s = .ok call ↔ call.Derives s :=
    readCall_eq_ok_iff.trans derives_iff.symm
  refine ⟨hderives call, ?_⟩
  rw [run_call_iff, ← exists_congr hderives]
  cases readCall whole s <;> simp

end

/-! ## Texts with the tag of a call -/

/-- Whether a text asks the registry for the preset `name`, in lower case: what it makes of `args`
is what the text comes to. -/
structure AsksFor (r : Registry) (text id : String) (name : List Char) (args : List Argument) :
    Prop where
  run : read r text id =
    (runPreset r (Text.lowercase (String.ofList name)) id args).map (⟨·, []⟩)
  made : ∀ d, r.generate? (Text.lowercase (String.ofList name)) id args = some (.ok d) →
    read r text id = .ok ⟨d, []⟩

section

variable {r : Registry} {text id : String} {rest : List Char}

/-- Nothing but the form of a call is malformed about it. -/
theorem runCall_ne_malformed {call : Call} {offset : Nat} {expected : Expectation} :
    runCall r id call ≠ .error (.malformedCall offset expected) := by
  rw [runCall, runPreset]
  generalize r.generate? _ _ _ = made
  generalize Preset.fallback? _ _ _ = figure
  rcases made with _ | ⟨e | d⟩ <;> rcases figure with _ | figure <;> simp

theorem malformed_of_readCall {whole s : List Char} {e : CompactError}
    (h : readCall whole s = .error e) : ∃ offset expected, e = .malformedCall offset expected := by
  unfold readCall at h
  dsimp only at h
  split at h
  next =>
    obtain rfl := Except.error.inj h
    exact ⟨_, _, rfl⟩
  next =>
    split at h
    next => cases h
    next =>
      split at h
      next => cases h
      next =>
        obtain rfl := Except.error.inj h
        exact ⟨_, _, rfl⟩

theorem malformed_iff (h : Text.trim text.toList = "PRESET:".toList ++ rest) :
    (∃ offset expected, read r text id = .error (.malformedCall offset expected)) ↔
      ¬ ∃ (call : Call) (behind : List Char), call.IsWritten rest behind := by
  rw [read_eq_of_tagged h]
  have hread (call : Call) : readCall (Text.trim text.toList) rest = .ok call ↔
    ∃ behind, call.IsWritten rest behind := readCall_eq_ok_iff
  cases hcall : readCall (Text.trim text.toList) rest with
  | error e =>
    obtain ⟨offset, expected, rfl⟩ := malformed_of_readCall hcall
    refine iff_of_true ⟨offset, expected, rfl⟩ fun ⟨call, hw⟩ => ?_
    have := (hread call).2 hw
    rw [hcall] at this
    cases this
  | ok call =>
    refine iff_of_false ?_ (not_not_intro ⟨call, (hread call).1 hcall⟩)
    rintro ⟨offset, expected, hmap⟩
    dsimp only at hmap
    cases hrun : runCall r id call with
    | ok d =>
      rw [hrun] at hmap
      cases hmap
    | error e =>
      rw [hrun] at hmap
      obtain rfl := Except.error.inj hmap
      exact runCall_ne_malformed hrun

theorem asksFor_of_isWritten {call : Call} {behind : List Char}
    (h : Text.trim text.toList = "PRESET:".toList ++ rest) (hcall : call.IsWritten rest behind) :
    AsksFor r text id call.name (call.arguments.elim [] Argument.readAll) := by
  have hrun : read r text id = (runCall r id call).map (⟨·, []⟩) := by
    rw [read_eq_of_tagged h, hcall.readCall]
  refine ⟨hrun, fun d hd => ?_⟩
  rw [hrun, runCall, runPreset, hd]
  rfl

/-- Whether a text is blanks and a text in parentheses, with anything behind it. -/
def IsApplied (after : List Char) : Prop :=
  ∃ blanks body, Spaces blanks ∧ after = blanks ++ '(' :: body ∧ ')' ∈ body

theorem isPresetName_takeWhile (h : rest.takeWhile isPresetChar ≠ []) :
    IsPresetName (rest.takeWhile isPresetChar) := ⟨h, fun _ hc => List.mem_takeWhile_imp hc⟩

theorem isWritten_bare (hname : rest.takeWhile isPresetChar ≠ [])
    (hafter : rest.dropWhile isPresetChar = []) :
    Call.IsWritten ⟨rest.takeWhile isPresetChar, none⟩ rest [] := by
  have hcut := List.takeWhile_append_dropWhile (p := isPresetChar) (l := rest)
  have hwritten := Call.IsWritten.bare (isPresetName_takeWhile hname) (List.forall_mem_nil _)
  rw [hafter] at hcut
  rwa [hcut] at hwritten

theorem isWritten_applied {blanks args behind : List Char}
    (hname : rest.takeWhile isPresetChar ≠ []) (hb : Spaces blanks)
    (hafter : rest.dropWhile isPresetChar = blanks ++ '(' :: (args ++ ')' :: behind))
    (hbehind : ')' ∉ behind) :
    Call.IsWritten ⟨rest.takeWhile isPresetChar, some args⟩ rest behind := by
  have hcut := List.takeWhile_append_dropWhile (p := isPresetChar) (l := rest)
  have hwritten : Call.IsWritten ⟨_, some args⟩ _ behind :=
    .applied (isPresetName_takeWhile hname) hb hbehind
  rw [hafter] at hcut
  rwa [hcut] at hwritten

/-- A trimmed text does not end in blanks behind a name, so a call without arguments ends with
its name. -/
theorem exists_isWritten_iff (h : Text.trim text.toList = "PRESET:".toList ++ rest) :
    (∃ (call : Call) (behind : List Char), call.IsWritten rest behind) ↔
      rest.takeWhile isPresetChar ≠ [] ∧
        (rest.dropWhile isPresetChar = [] ∨ IsApplied (rest.dropWhile isPresetChar)) := by
  constructor
  · rintro ⟨call, behind, hcall⟩
    cases hcall with
    | @bare name blanks hname hb =>
      have hstop := stops_isPresetChar hb (Text.stops_nil _)
      rw [List.append_nil] at hstop
      rw [Text.takeWhile_append_of_stops hname.isPresetChar hstop,
        Text.dropWhile_append_of_stops hname.isPresetChar hstop]
      refine ⟨hname.ne_nil, .inl ?_⟩
      -- the last of the blanks would be the last character of a trimmed text
      by_contra hne
      have hend := (Text.stops_trim text.toList).2
      rw [h, List.reverse_append, List.reverse_append, List.append_assoc] at hend
      obtain ⟨c, cs, hrev⟩ := List.exists_cons_of_ne_nil (List.reverse_ne_nil_iff.2 hne)
      rw [hrev] at hend
      have hblank : isSpace c = true := hb c (List.mem_reverse.1 (hrev ▸ List.mem_cons_self))
      have := Text.stops_cons_iff.1 hend
      rw [Text.isBlank_of_isSpace hblank] at this
      cases this
    | @applied name blanks args behind hname hb hbehind =>
      have hstop : Stops isPresetChar (blanks ++ '(' :: (args ++ ')' :: behind)) :=
        stops_isPresetChar hb (Text.stops_cons_iff.2 (by decide))
      rw [Text.takeWhile_append_of_stops hname.isPresetChar hstop,
        Text.dropWhile_append_of_stops hname.isPresetChar hstop]
      exact ⟨hname.ne_nil, .inr ⟨blanks, _, hb, rfl,
        List.mem_append_right args List.mem_cons_self⟩⟩
  · rintro ⟨hne, hnil | ⟨blanks, body, hb, hafter, hbody⟩⟩
    · exact ⟨_, _, isWritten_bare hne hnil⟩
    · obtain ⟨args, behind, hbehind, rfl⟩ := Peg.exists_lastParen hbody
      exact ⟨_, _, isWritten_applied hne hb hafter hbehind⟩

/-- **Calls are recognised exactly.**  The name of a call is the longest text of letters, digits,
`_` and `-` behind the tag.  The text is malformed exactly if there is no name, or if something
follows it that is not blanks and a text in parentheses.  Otherwise the registry is asked for the
name, without arguments if nothing follows, and else with all that stands in front of the last
closing parenthesis of the text. -/
theorem read_tagged (r : Registry) (id : String)
    (h : Text.trim text.toList = "PRESET:".toList ++ rest) :
    let name := rest.takeWhile isPresetChar
    let after := rest.dropWhile isPresetChar
    ((∃ offset expected, read r text id = .error (.malformedCall offset expected)) ↔
        name = [] ∨ ¬ (after = [] ∨ IsApplied after)) ∧
      (name ≠ [] → after = [] → AsksFor r text id name []) ∧
      ∀ blanks args behind, name ≠ [] → Spaces blanks →
        after = blanks ++ '(' :: (args ++ ')' :: behind) → ')' ∉ behind →
          AsksFor r text id name (Argument.readAll args) := by
  intro name after
  refine ⟨?_, fun hne hnil => ?_, fun blanks args behind hne hb hafter hbehind => ?_⟩
  · rw [malformed_iff h, exists_isWritten_iff h, not_and_or, not_not]
  · exact asksFor_of_isWritten h (isWritten_bare hne hnil)
  · exact asksFor_of_isWritten h (isWritten_applied hne hb hafter hbehind)

end

/-- Parentheses in the arguments may stand as they like, and so may what is behind the last
one. -/
theorem read_tagged_parens :
    read (Registry.empty.register "beam-2" fun id args =>
        .made { id := id ++ toString args.length, width := 600, height := 400 })
      " PRESET:Beam-2 \t(1)(,2),(3 ) ((x" "d" =
    .ok ⟨{ id := "d3", width := 600, height := 400 }, []⟩ := by
  have h : Text.trim " PRESET:Beam-2 \t(1)(,2),(3 ) ((x".toList =
    "PRESET:".toList ++ "Beam-2 \t(1)(,2),(3 ) ((x".toList := by decide
  have hblanks : Spaces [' ', '\t'] := by unfold Spaces; decide
  exact ((read_tagged _ "d" h).2.2 [' ', '\t'] "1)(,2),(3 ".toList " ((x".toList (by decide)
    hblanks (by decide) (by decide)).made _ rfl

end FreeBody.Compact
