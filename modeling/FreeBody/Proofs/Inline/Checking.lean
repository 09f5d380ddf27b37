import FreeBody.Proofs.Inline.Refusal

/-!
# Checking a text and extracting from it

Checking tries every span under the number zero, extraction under the number of the next diagram.
With a steady registry this makes no difference: the messages of a check are about the spans that
extraction leaves, in order, and say why they are refused, under whatever number
(`problems_extract`).
-/

namespace FreeBody.Inline

/-- How it is reported that a span is refused. -/
def report (inner : List Char) (e : CompactError) : String :=
  "invalid diagram `" ++ String.ofList (Text.trim inner) ++ "`: " ++ e.message

/-- Whether a message tells why a span is refused, under whatever number it is tried. -/
def Explains (r : Inline) (message : String) (inner : List Char) : Prop :=
  ∀ n, ∃ e, r.Refuses inner n e ∧ message = report inner e

/-- What extraction does with a text that is cut into pieces: it replaces those that a reading of
them finds diagrams for. -/
structure Replaces (r : Inline) (text : String) (ps : List Piece)
    (found : List (Option (Option Diagram))) : Prop where
  cut : Cut text.toList ps
  reading : r.Reading ps found
  clean : (r.extract text).cleanText = (List.range ps.length).flatMap (cleanPiece ps found)
  diagrams : (r.extract text).diagrams = found.reduceOption

section

variable (r : Inline)

theorem replaces_pieces (text : String) :
    r.Replaces text (pieces text.toList)
      ((resolve r 0 (pieces text.toList)).map Resolved.diagram?) where
  cut := cut_pieces text.toList
  reading := reading_resolve r _
  clean := by
    show (resolve r 0 _).flatMap Resolved.clean = _
    rw [List.flatMap_def, List.flatMap_def, map_clean]
  diagrams := by
    show (resolve r 0 _).filterMap Resolved.diagram? =
      ((resolve r 0 _).map Resolved.diagram?).filterMap id
    rw [List.filterMap_map]
    rfl

/-! ## Spans -/

/-- Every span is either left or replaced by a diagram. -/
theorem length_left (index : Nat) (ps : List Piece) :
    (left r index ps).length + ((resolve r index ps).filterMap Resolved.diagram?).length =
      (spans ps).length := by
  fun_induction left r index ps with
  | case1 => rfl
  | case2 index text rest ih => exact ih
  | case3 index inner rest d h ih =>
    rw [resolve, h]
    exact congrArg (· + 1) ih
  | case4 index inner rest e h ih =>
    rw [resolve, h, List.length_cons, Nat.add_right_comm]
    exact congrArg (· + 1) ih

theorem hasSpans_iff (text : String) :
    hasSpans text = true ↔ 0 < (spans (pieces text.toList)).length := by
  unfold hasSpans spans
  induction pieces text.toList with
  | nil => simp
  | cons p rest ih =>
    cases p with
    | prose text => exact ih
    | span inner => simp [Piece.inner?]

/-- No span is left exactly if each one is replaced. -/
theorem leftSpans_eq_nil_iff {ps : List Piece} {found : List (Option (Option Diagram))}
    (h : found.length = ps.length) :
    leftSpans ps found = [] ↔
      ∀ (k : Nat) (inner : List Char), ps[k]? = some (Piece.span inner) →
        ∃ d, found[k]? = some (some d) := by
  rw [leftSpans, List.filterMap_eq_nil_iff]
  constructor
  · intro hnone k inner hk
    have hlt : k < found.length := by
      rw [h]
      exact (List.getElem?_eq_some_iff.1 hk).1
    have hfound := List.getElem?_eq_getElem hlt
    have hmem : (Piece.span inner, found[k]) ∈ ps.zip found :=
      List.mem_iff_getElem?.2 ⟨k, List.getElem?_zip_eq_some.2 ⟨hk, hfound⟩⟩
    cases hd : found[k] with
    | none =>
      rw [hd] at hmem
      cases hnone _ hmem
    | some d => exact ⟨d, hd ▸ hfound⟩
  · rintro hall ⟨p, o⟩ hmem
    obtain ⟨k, hk⟩ := List.mem_iff_getElem?.1 hmem
    obtain ⟨hp, ho⟩ := List.getElem?_zip_eq_some.1 hk
    cases p with
    | prose text => cases o <;> rfl
    | span inner =>
      obtain ⟨d, hd⟩ := hall k inner hp
      obtain rfl := Option.some.inj (ho.symm.trans hd)
      rfl

/-! ## Messages -/

theorem spanProblem?_span (inner : List Char) :
    r.spanProblem? (.span inner) =
      match r.readSpan inner 0 with
      | .ok _ => none
      | .error e => some (report inner e) := by
  rw [spanProblem?.eq_2]
  cases r.readSpan inner 0 <;> rfl

theorem report_congr (inner : List Char) {e e' : CompactError} (h : e'.message = e.message) :
    report inner e = report inner e' := by
  unfold report
  rw [h]

variable {r} (hr : r.registry.Steady) {inner : List Char} {index : Nat}

include hr

theorem spanProblem?_of_ok {d : Option Diagram} (h : r.readSpan inner index = .ok d) :
    r.spanProblem? (.span inner) = none := by
  have hread : refusal? (r.readSpan inner 0) = none := by
    rw [refusal?_readSpan hr inner 0 index, h, refusal?_ok]
  obtain ⟨d', hd'⟩ := refusal?_eq_none_iff.1 hread
  rw [spanProblem?_span, hd']

theorem explains_report {e : CompactError} (h : r.readSpan inner index = .error e) :
    r.Explains (report inner e) inner := by
  intro n
  obtain ⟨e', he', hmessage⟩ := refused_under hr h n
  exact ⟨e', readSpan_eq_error_iff.1 he', report_congr inner hmessage⟩

theorem spanProblem?_of_error {e : CompactError} (h : r.readSpan inner index = .error e) :
    ∃ message, r.spanProblem? (.span inner) = some message ∧ r.Explains message inner := by
  obtain ⟨e₀, he₀, -⟩ := refused_under hr h 0
  refine ⟨report inner e₀, ?_, explains_report hr he₀⟩
  rw [spanProblem?_span, he₀]

/-- There is a message for each span that is left, in order. -/
theorem forall₂_explains (index : Nat) (ps : List Piece) :
    List.Forall₂ r.Explains (ps.filterMap r.spanProblem?) (left r index ps) := by
  fun_induction left r index ps with
  | case1 => exact .nil
  | case2 index text rest ih => exact ih
  | case3 index inner rest d h ih =>
    rw [List.filterMap_cons, spanProblem?_of_ok hr h]
    exact ih
  | case4 index inner rest e h ih =>
    obtain ⟨message, hmessage, hexplains⟩ := spanProblem?_of_error hr h
    rw [List.filterMap_cons, hmessage]
    exact .cons hexplains ih

end

/-- A text is checked span by span: there is a message for each span that extraction leaves, in
order, telling why it is refused under whatever number; together with the diagrams these are as
many as the spans of the text.  There are spans if the quick test says so, and there is nothing
wrong with a text exactly if each of its spans is replaced by a diagram. -/
theorem problems_extract (r : Inline) (hr : r.registry.Steady) (text : String) :
    ∃ ps found, r.Replaces text ps found ∧
      List.Forall₂ r.Explains (r.problems text) (leftSpans ps found) ∧
      (r.problems text).length + (r.extract text).diagrams.length = (spans ps).length ∧
      (hasSpans text = true ↔ 0 < (spans ps).length) ∧
      (r.problems text = [] ↔
        ∀ (k : Nat) (inner : List Char), ps[k]? = some (Piece.span inner) →
          ∃ d, found[k]? = some (some d)) := by
  have hleft := leftSpans_resolve r 0 (pieces text.toList)
  have hmessages : List.Forall₂ r.Explains (r.problems text)
      (leftSpans (pieces text.toList) ((resolve r 0 (pieces text.toList)).map Resolved.diagram?)) :=
    hleft ▸ forall₂_explains hr 0 _
  have hlength := hmessages.length_eq
  refine ⟨_, _, replaces_pieces r text, hmessages, ?_, hasSpans_iff text, ?_⟩
  · rw [hlength, hleft]
    exact length_left r 0 _
  · rw [← leftSpans_eq_nil_iff (by rw [List.length_map, length_resolve]),
      ← List.length_eq_zero_iff, hlength, List.length_eq_zero_iff]

/-- Of two spans one names no preset and stays: there is one message, and one diagram. -/
theorem problems_extract_nope :
    let r : Inline := { registry := .builtin }
    let text := "##P(0,0)## ##PRESET:nope##"
    let messages := ["invalid diagram `PRESET:nope`: unknown preset: nope"]
    r.registry.Steady ∧ r.problems text = messages ∧ hasSpans text = true ∧
      ∃ ps found, r.Replaces text ps found ∧ List.Forall₂ r.Explains messages (leftSpans ps found) ∧
        1 + (r.extract text).diagrams.length = (spans ps).length ∧ 0 < (spans ps).length := by
  intro r text messages
  obtain ⟨ps, found, hreplaces, hmessages, hcount, hquick, -⟩ :=
    problems_extract r Registry.builtin_steady text
  have hproblems : r.problems text = messages := by decide +kernel
  have hspans : hasSpans text = true := by decide +kernel
  rw [hproblems] at hmessages hcount
  exact ⟨Registry.builtin_steady, hproblems, hspans, ps, found, hreplaces, hmessages, hcount,
    hquick.1 hspans⟩

end FreeBody.Inline
