import FreeBody.Compact.Reader
import FreeBody.Proofs.Text.Lowercase
import FreeBody.Proofs.Text.Pieces

/-!
# Preset calls

A call is a name and perhaps a text in parentheses, which runs to the last closing parenthesis;
`Call.IsWritten` says so, together with what stands behind it.  A call is read exactly when it is
written (`readCall_eq_ok_iff`).

A call is resolved by its name: the registry decides about the names that it knows, the fallback
figures are for the others (`ruling`).  The reader keeps to this rule except where a generator
fails and a figure has its name: there the figure takes the place of the error (`read_call_iff`).
-/

namespace FreeBody.Compact

open Text (Spaces Stops isSpace skipSpaces)

/-! ## Reading calls -/

section

variable {s text : List Char}

theorem beforeLastParen?_eq_none_iff : beforeLastParen? s = none ↔ ')' ∉ s := by
  induction s with
  | nil => simp [beforeLastParen?]
  | cons c rest ih =>
    rw [beforeLastParen?, List.mem_cons, not_or, ← ih]
    cases beforeLastParen? rest with
    | some t => simp
    | none => by_cases hc : c = ')' <;> simp [hc, eq_comm]

/-- The text before the last closing parenthesis. -/
theorem beforeLastParen?_eq_some_iff :
    beforeLastParen? s = some text ↔ ∃ behind, ')' ∉ behind ∧ s = text ++ ')' :: behind := by
  induction s generalizing text with
  | nil => simp [beforeLastParen?]
  | cons c rest ih =>
    rw [beforeLastParen?]
    cases hrest : beforeLastParen? rest with
    | some t =>
      -- the last parenthesis is in `rest`, so `c` cannot be it
      obtain ⟨behind, hbehind, rfl⟩ := ih.1 hrest
      constructor
      · rintro ⟨⟩
        exact ⟨behind, hbehind, rfl⟩
      · rintro ⟨behind', hbehind', hs⟩
        cases text with
        | nil =>
          obtain ⟨-, rfl⟩ := List.cons.inj hs
          exact absurd (List.mem_append_right t List.mem_cons_self) hbehind'
        | cons d text =>
          obtain ⟨rfl, htail⟩ := List.cons.inj hs
          have := ih.2 ⟨behind', hbehind', htail⟩
          rw [hrest] at this
          rw [Option.some.inj this]
    | none =>
      have hnone := beforeLastParen?_eq_none_iff.1 hrest
      constructor
      · intro h
        by_cases hc : c = ')'
        · obtain rfl : [] = text := by simpa [hc] using h
          exact ⟨rest, hnone, by rw [hc]; rfl⟩
        · simp [hc] at h
      · rintro ⟨behind, hbehind, hs⟩
        cases text with
        | nil =>
          obtain ⟨rfl, -⟩ := List.cons.inj hs
          rfl
        | cons d text =>
          obtain ⟨-, rfl⟩ := List.cons.inj hs
          exact absurd (List.mem_append_right text List.mem_cons_self) hnone

end

/-- Whether `name` can be the name in a preset call. -/
structure IsPresetName (name : List Char) : Prop where
  ne_nil : name ≠ []
  isPresetChar : ∀ c ∈ name, isPresetChar c = true

/-- How a call is written behind its tag, and what stands behind the call. -/
inductive Call.IsWritten : Call → List Char → List Char → Prop
  | bare {name blanks : List Char} : IsPresetName name → Spaces blanks →
      IsWritten ⟨name, none⟩ (name ++ blanks) []
  | applied {name blanks args behind : List Char} : IsPresetName name → Spaces blanks →
      ')' ∉ behind →
      IsWritten ⟨name, some args⟩ (name ++ (blanks ++ '(' :: (args ++ ')' :: behind))) behind

section

variable {whole s : List Char} {call : Call}

theorem isPresetChar_eq_false_of_isSpace {c : Char} (h : isSpace c = true) :
    isPresetChar c = false := by
  simp only [isSpace, Bool.or_eq_true, beq_iff_eq] at h
  rcases h with ((rfl | rfl) | rfl) | rfl <;> decide

theorem stops_isPresetChar {blanks rest : List Char} (hb : Spaces blanks)
    (hr : Stops isPresetChar rest) : Stops isPresetChar (blanks ++ rest) := by
  cases blanks with
  | nil => exact hr
  | cons c blanks =>
    exact Text.stops_cons_iff.2 (isPresetChar_eq_false_of_isSpace (hb c List.mem_cons_self))

theorem callIsWritten_of_readCall (h : readCall whole s = .ok call) :
    ∃ behind, call.IsWritten s behind := by
  obtain ⟨blanks, hb, hrest⟩ := Text.exists_skipSpaces (s.dropWhile isPresetChar)
  have hs : s = s.takeWhile isPresetChar ++ (blanks ++ skipSpaces (s.dropWhile isPresetChar)) := by
    rw [← hrest, List.takeWhile_append_dropWhile]
  have hall : ∀ c ∈ s.takeWhile isPresetChar, isPresetChar c = true :=
    List.all_eq_true.1 List.all_takeWhile
  unfold readCall at h
  dsimp only at h
  generalize s.takeWhile isPresetChar = name at h hs hall
  split at h
  next => cases h
  next hne =>
  have hname : IsPresetName name := ⟨by simpa using hne, hall⟩
  split at h
  next hnil =>
    cases h
    rw [hnil, List.append_nil] at hs
    exact ⟨[], hs ▸ .bare hname hb⟩
  next c body hbody =>
  split at h
  next args hargs =>
    cases h
    split at hargs
    next hc =>
      obtain ⟨behind, hbehind, rfl⟩ := beforeLastParen?_eq_some_iff.1 hargs
      rw [hbody, hc] at hs
      exact ⟨behind, hs ▸ .applied hname hb hbehind⟩
    next => cases hargs
  next => cases h

theorem Call.IsWritten.readCall {behind : List Char} (h : call.IsWritten s behind) :
    readCall whole s = .ok call := by
  unfold Compact.readCall
  cases h with
  | @bare name blanks hname hb =>
    have hstop : Stops isPresetChar blanks := by
      simpa using stops_isPresetChar hb (Text.stops_nil _)
    have hskip : skipSpaces blanks = [] := by
      have := Text.skipSpaces_append hb []
      rwa [List.append_nil] at this
    simp only [Text.takeWhile_append_of_stops hname.isPresetChar hstop,
      Text.dropWhile_append_of_stops hname.isPresetChar hstop, hskip, List.isEmpty_iff,
      if_neg hname.ne_nil]
  | @applied name blanks args behind hname hb hbehind =>
    have hstop : Stops isPresetChar (blanks ++ '(' :: (args ++ ')' :: behind)) :=
      stops_isPresetChar hb (Text.stops_cons_iff.2 (by decide))
    have hparen : Stops isSpace ('(' :: (args ++ ')' :: behind)) :=
      Text.stops_cons_iff.2 (by decide)
    have hargs : beforeLastParen? (args ++ ')' :: behind) = some args :=
      beforeLastParen?_eq_some_iff.2 ⟨behind, hbehind, rfl⟩
    simp only [Text.takeWhile_append_of_stops hname.isPresetChar hstop,
      Text.dropWhile_append_of_stops hname.isPresetChar hstop, Text.skipSpaces_append hb,
      Text.skipSpaces_of_stops hparen, List.isEmpty_iff, if_neg hname.ne_nil, if_true, hargs]

/-- **A call is read exactly when it is written.** -/
theorem readCall_eq_ok_iff :
    readCall whole s = .ok call ↔ ∃ behind, call.IsWritten s behind :=
  ⟨callIsWritten_of_readCall, fun ⟨_, h⟩ => h.readCall⟩

end

/-! ## Resolving calls -/

/-- What a call comes to by its name: a name that the registry knows is decided there, and the
fallback figures are for the other names. -/
def ruling (r : Registry) (name id : String) (args : List Argument) :
    Except CompactError Diagram :=
  match r.generate? name id args with
  | some (.ok d) => .ok d
  | some (.error e) => .error (.generator (Text.lowercase name) e)
  | none =>
    match Preset.fallback? (Text.lowercase name) id args with
    | some d => .ok d
    | none => .error (.unknownPreset (Text.lowercase name))

/-- The text of a call. -/
def callText (name args : String) : String := "PRESET:" ++ name ++ "(" ++ args ++ ")"

section

variable {r : Registry} {name id : String} {args : List Argument}

/-- The case of a name does not matter. -/
theorem get?_lowercase (name : String) : r.get? (Text.lowercase name) = r.get? name := by
  rw [Registry.get?, Registry.get?, Text.lowercase_lowercase]

theorem generate?_lowercase (name id : String) (args : List Argument) :
    r.generate? (Text.lowercase name) id args = r.generate? name id args := by
  rw [Registry.generate?, Registry.generate?, get?_lowercase]

/-- A preset is run by the rule, unless a figure hides that its generator fails. -/
theorem runPreset_eq_ruling_iff :
    runPreset r (Text.lowercase name) id args = ruling r name id args ↔
      ∀ e, r.generate? name id args = some (.error e) →
        Preset.fallback? (Text.lowercase name) id args = none := by
  rw [runPreset, ruling, generate?_lowercase]
  rcases r.generate? name id args with _ | ⟨e | d⟩ <;>
    rcases Preset.fallback? (Text.lowercase name) id args with _ | figure <;> simp

theorem runPreset_unknown_iff :
    (∃ n, runPreset r (Text.lowercase name) id args = .error (.unknownPreset n)) ↔
      r.get? name = none ∧ Preset.fallback? (Text.lowercase name) id args = none := by
  rw [runPreset, generate?_lowercase, Registry.generate?]
  cases r.get? name with
  | none => rcases Preset.fallback? (Text.lowercase name) id args with _ | figure <;> simp
  | some g =>
    rw [Option.map_some]
    rcases (g id args).result with e | d <;>
      rcases Preset.fallback? (Text.lowercase name) id args with _ | figure <;> simp

end

theorem toList_callText (name args : String) : (callText name args).toList =
    "PRESET:".toList ++ (name.toList ++ ([] ++ '(' :: (args.toList ++ ')' :: []))) := by
  unfold callText
  simp only [String.toList_append, List.append_assoc, List.nil_append]
  rfl

/-- A text with the tag of a call is read as a call. -/
theorem read_eq_of_tagged {r : Registry} {text id : String} {rest : List Char}
    (h : Text.trim text.toList = "PRESET:".toList ++ rest) :
    read r text id = match readCall (Text.trim text.toList) rest with
      | .ok call => (runCall r id call).map (⟨·, []⟩)
      | .error e => .error e := by
  have hne : (Text.trim text.toList).isEmpty = false := by
    rw [h]
    rfl
  rw [read]
  simp only [hne, Text.dropPrefix?_eq_some_iff.2 h]
  rfl

/-- The text of a call is read as that call. -/
theorem read_callText (r : Registry) {name : String} (hname : IsPresetName name.toList)
    (args id : String) :
    read r (callText name args) id =
      (runPreset r (Text.lowercase name) id (Argument.readAll args.toList)).map (⟨·, []⟩) := by
  have htrim : Text.trim (callText name args).toList = (callText name args).toList := by
    rw [toList_callText]
    apply Text.trim_eq_self_of_stops
    · exact Text.stops_cons_iff.2 (by decide)
    · simp only [List.reverse_append, List.reverse_cons, List.reverse_nil, List.nil_append,
        List.append_assoc, List.cons_append]
      exact Text.stops_cons_iff.2 (by decide)
  have hcall : Call.IsWritten ⟨name.toList, some args.toList⟩
      (name.toList ++ ([] ++ '(' :: (args.toList ++ ')' :: []))) [] :=
    .applied hname (List.forall_mem_nil _) List.not_mem_nil
  rw [read_eq_of_tagged (htrim.trans (toList_callText name args)), hcall.readCall]
  simp only [runCall, Option.elim_some, String.ofList_toList]

/-- **The registry decides about the names that it knows, unless a figure hides a failure.**  A
call comes to what the rule says exactly if no generator that fails shares its name with a
fallback figure; and a name is reported as unknown exactly if neither knows it. -/
theorem read_call_iff (r : Registry) {name : String} (hname : IsPresetName name.toList)
    (args id : String) :
    (read r (callText name args) id =
        (ruling r name id (Argument.readAll args.toList)).map (⟨·, []⟩) ↔
      ∀ e, r.generate? name id (Argument.readAll args.toList) = some (.error e) →
        Preset.fallback? (Text.lowercase name) id (Argument.readAll args.toList) = none) ∧
    ((∃ n, read r (callText name args) id = .error (.unknownPreset n)) ↔
      r.get? name = none ∧
        Preset.fallback? (Text.lowercase name) id (Argument.readAll args.toList) = none) := by
  rw [read_callText r hname, ← runPreset_eq_ruling_iff, ← runPreset_unknown_iff]
  generalize runPreset r (Text.lowercase name) id (Argument.readAll args.toList) = run
  generalize ruling r name id (Argument.readAll args.toList) = rule
  refine ⟨?_, ?_⟩
  · cases run <;> cases rule <;> simp [Except.map]
  · cases run <;> simp [Except.map]

/-- Where no figure has its name, a generator that fails is reported, in lower case. -/
theorem read_call_broken :
    read (Registry.empty.register "broken" fun _ _ => .refused (.failed "nope"))
        (callText "Broken" "1, 2") "d" = .error (.generator "broken" (.failed "nope")) :=
  (read_call_iff _ ⟨by decide, by decide⟩ "1, 2" "d").1.2 fun _ _ => rfl

/-- A beam refuses a length that is no number, and yet there is a picture of one. -/
theorem figure_hides_failure :
    ruling .builtin "beam" "d" (Argument.readAll "true".toList) =
        .error (.generator "beam" (.invalidArgument 0 .number)) ∧
      ∃ p, read .builtin (callText "beam" "true") "d" = .ok p := by
  refine ⟨rfl, ?_⟩
  rw [read_callText .builtin ⟨by decide, by decide⟩]
  exact ⟨_, rfl⟩

end FreeBody.Compact
