import FreeBody.Diagram.Basic
import FreeBody.Proofs.Inline.Expansion
import Mathlib.Data.List.Chain
import Mathlib.Data.List.Forall2

/-!
# Expansion splits a text without loss

A text is scanned from left to right: where a token begins it is taken whole, and every other
character is taken for itself (`Scan`).  The segments of an expanded text are runs of what was
scanned, in order and with nothing left out: a diagram stands for one token that names it, and text
for characters and for tokens that name no diagram (`Segment.Covers`).  Such runs are as long as
they can be, since no two texts stand side by side (`expand_lossless`).
-/

namespace FreeBody.Inline

/-! ## Scanning -/

/-- Whether `ds` is a number as tokens have it: one or more digits. -/
structure IsNumber (ds : List Char) : Prop where
  ne_nil : ds ≠ []
  digits : ∀ c ∈ ds, Decimal.isDigit c = true

/-- Text that begins with a token. -/
def BeginsToken (s : List Char) : Prop := ∃ ds after, IsNumber ds ∧ s = tokenText ds ++ after

/-- What a scan takes at a time. -/
inductive Chunk
  | char (c : Char)
  | token (ds : List Char)

/-- A chunk as it is written. -/
def Chunk.text : Chunk → List Char
  | char c => [c]
  | token ds => tokenText ds

/-- Reading a text from left to right, with tokens wherever they begin. -/
inductive Scan : List Char → List Chunk → Prop
  | nil : Scan [] []
  | token {ds after : List Char} {cs : List Chunk} : IsNumber ds → Scan after cs →
      Scan (tokenText ds ++ after) (.token ds :: cs)
  | char {c : Char} {rest : List Char} {cs : List Chunk} : ¬ BeginsToken (c :: rest) →
      Scan rest cs → Scan (c :: rest) (.char c :: cs)

section

variable {s ds after : List Char} {cs cs' : List Chunk}

theorem token?_eq_some_iff_isNumber :
    token? s = some (ds, after) ↔ IsNumber ds ∧ s = tokenText ds ++ after := by
  rw [token?_eq_some_iff]
  exact ⟨fun ⟨hs, hne, hd⟩ => ⟨⟨hne, hd⟩, hs⟩, fun ⟨h, hs⟩ => ⟨hs, h.ne_nil, h.digits⟩⟩

theorem token?_eq_none_iff : token? s = none ↔ ¬ BeginsToken s := by
  rw [Option.eq_none_iff_forall_not_mem, Prod.forall]
  constructor
  · rintro h ⟨ds, after, hs⟩
    exact h ds after (token?_eq_some_iff_isNumber.2 hs)
  · rintro h ds after hs
    exact h ⟨ds, after, token?_eq_some_iff_isNumber.1 hs⟩

/-- A scan takes in the whole text. -/
theorem Scan.flatMap_text (h : Scan s cs) : cs.flatMap Chunk.text = s := by
  induction h with
  | nil => rfl
  | token _ _ ih => rw [List.flatMap_cons, ih, Chunk.text]
  | char _ _ ih => rw [List.flatMap_cons, ih, Chunk.text, List.singleton_append]

theorem exists_scan (s : List Char) : ∃ cs, Scan s cs := by
  -- the induction is on the length, since a token takes off more than one character
  induction hn : s.length using Nat.strongRecOn generalizing s with
  | ind n ih =>
    cases ht : token? s with
    | some p =>
      obtain ⟨ds, after⟩ := p
      obtain ⟨cs, hcs⟩ := ih after.length (hn ▸ token?_length ht) after rfl
      obtain ⟨hds, rfl⟩ := token?_eq_some_iff_isNumber.1 ht
      exact ⟨_, .token hds hcs⟩
    | none =>
      cases s with
      | nil => exact ⟨[], .nil⟩
      | cons c rest =>
        obtain ⟨cs, hcs⟩ := ih rest.length (hn ▸ Nat.lt_succ_self _) rest rfl
        exact ⟨_, .char (token?_eq_none_iff.1 ht) hcs⟩

/-- A text is scanned in one way only. -/
theorem Scan.unique (h : Scan s cs) (h' : Scan s cs') : cs = cs' := by
  induction h generalizing cs' with
  | nil =>
    generalize hs : ([] : List Char) = t at h'
    cases h' with
    | nil => rfl
    | token => cases hs
    | char => cases hs
  | @token ds after cs hds _ ih =>
    generalize hs : tokenText ds ++ after = t at h'
    cases h' with
    | nil => cases hs
    | @token ds' after' cs' hds' hcs' =>
      have htoken := token?_eq_some_iff_isNumber.2 ⟨hds, hs.symm⟩
      rw [token?_eq_some_iff_isNumber.2 ⟨hds', rfl⟩] at htoken
      obtain ⟨rfl, rfl⟩ := Prod.mk.inj (Option.some.inj htoken)
      rw [ih hcs']
    | char hnot => exact absurd ⟨ds, after, hds, hs.symm⟩ hnot
  | @char c rest cs hnot _ ih =>
    generalize hs : c :: rest = t at h'
    cases h' with
    | nil => cases hs
    | token hds => exact absurd ⟨_, _, hds, hs⟩ hnot
    | char _ hcs' =>
      obtain ⟨rfl, rfl⟩ := List.cons.inj hs
      rw [ih hcs']

end

/-! ## Segments as runs of chunks -/

section

variable {α : Type}

/-- Whether a segment is text. -/
def Segment.isText : Segment α → Bool
  | text _ => true
  | diagram _ => false

/-- Whether segments may stand side by side: not two texts. -/
def Segment.Apart (a b : Segment α) : Prop := ¬ (a.isText ∧ b.isText)

/-- Whether every token among chunks has a number from `count` on. -/
def Unnamed (count : Nat) (run : List Chunk) : Prop :=
  ∀ ds, .token ds ∈ run → count ≤ Decimal.value ds

/-- What a segment stands for: text for a run of chunks as they are written, in which no token names
a diagram, and a diagram for a token that names it. -/
inductive Segment.Covers (diagrams : List α) : Segment α → List Chunk → Prop
  | text {run : List Chunk} : Unnamed diagrams.length run →
      Covers diagrams (.text (run.flatMap Chunk.text)) run
  | diagram {ds : List Char} {d : α} : IsNumber ds →
      diagrams[Decimal.value ds]? = some d → Covers diagrams (.diagram d) [.token ds]

/-- Whether segments stand for runs that make up the chunks. -/
def Covered (diagrams : List α) (cs : List Chunk) (segments : List (Segment α)) : Prop :=
  ∃ runs, List.Forall₂ (Segment.Covers diagrams) segments runs ∧ runs.flatten = cs

/-- Segments without an empty text and without two texts side by side. -/
structure Tidy (segments : List (Segment α)) : Prop where
  filled : ∀ t, .text t ∈ segments → t ≠ []
  apart : segments.IsChain Segment.Apart

variable {diagrams : List α} {s t ds : List Char} {d : α} {cs run : List Chunk}
  {segments : List (Segment α)}

theorem unnamed_append {more : List Chunk} :
    Unnamed diagrams.length (run ++ more) ↔
      Unnamed diagrams.length run ∧ Unnamed diagrams.length more := by
  simp only [Unnamed, List.mem_append, or_imp, forall_and]

theorem Covered.diagram (h : Covered diagrams cs segments) (hds : IsNumber ds)
    (hd : diagrams[Decimal.value ds]? = some d) :
    Covered diagrams (.token ds :: cs) (.diagram d :: segments) := by
  obtain ⟨runs, hcovers, rfl⟩ := h
  exact ⟨[.token ds] :: runs, .cons (.diagram hds hd) hcovers, rfl⟩

/-- Text in front takes in the run of the text behind it, if there is any. -/
theorem Covered.addText (h : Covered diagrams cs segments) (hrun : Unnamed diagrams.length run) :
    Covered diagrams (run ++ cs) (addText (run.flatMap Chunk.text) segments) := by
  obtain ⟨runs, hcovers, rfl⟩ := h
  unfold Inline.addText
  split
  next more rest =>
    obtain ⟨first, runs, hfirst, hrest, rfl⟩ := List.forall₂_cons_left_iff.1 hcovers
    cases hfirst with
    | text hmore =>
      rw [← List.flatMap_append]
      refine ⟨(run ++ first) :: runs, .cons (.text (unnamed_append.2 ⟨hrun, hmore⟩)) hrest, ?_⟩
      rw [List.flatten_cons, List.flatten_cons, List.append_assoc]
  next => exact ⟨run :: runs, .cons (.text hrun) hcovers, rfl⟩

theorem tidy_nil : Tidy ([] : List (Segment α)) := ⟨fun _ h => absurd h List.not_mem_nil, .nil⟩

theorem Tidy.diagram (h : Tidy segments) (d : α) : Tidy (.diagram d :: segments) where
  filled t ht := h.filled t ((List.mem_cons.1 ht).resolve_left nofun)
  apart := h.apart.cons fun _ _ hboth => nomatch hboth.1

theorem Tidy.addText (h : Tidy segments) (ht : t ≠ []) : Tidy (addText t segments) := by
  unfold Inline.addText
  split
  next more rest =>
    obtain ⟨hhead, hrest⟩ := List.isChain_cons.1 h.apart
    refine ⟨fun u hu => ?_, hrest.cons hhead⟩
    rcases List.mem_cons.1 hu with heq | hu
    · rw [Segment.text.injEq] at heq
      rw [heq]
      exact List.append_ne_nil_of_left_ne_nil ht more
    · exact h.filled u (List.mem_cons_of_mem _ hu)
  next hnot =>
    refine ⟨fun u hu => ?_, h.apart.cons fun segment hsegment hboth => ?_⟩
    · rcases List.mem_cons.1 hu with heq | hu
      · rw [Segment.text.injEq] at heq
        rwa [heq]
      · exact h.filled u hu
    · cases segment with
      | text more =>
        obtain ⟨rest, rfl⟩ := List.head?_eq_some_iff.1 hsegment
        exact hnot more rest rfl
      | diagram d => cases hboth.2

/-- Along a scan, expansion splits the chunks without loss. -/
theorem Scan.expand (h : Scan s cs) (diagrams : List α) :
    Covered diagrams cs (expand diagrams s) ∧ Tidy (expand diagrams s) := by
  induction h with
  | nil =>
    rw [expand_nil]
    exact ⟨⟨[], .nil, rfl⟩, tidy_nil⟩
  | @token ds after cs hds _ ih =>
    have ht : token? (tokenText ds ++ after) = some (ds, after) :=
      token?_eq_some_iff_isNumber.2 ⟨hds, rfl⟩
    cases hd : named? diagrams ds with
    | some d =>
      rw [expand_of_named ht hd]
      exact ⟨ih.1.diagram hds hd, ih.2.diagram d⟩
    | none =>
      rw [expand_of_unnamed ht hd]
      have hrun : Unnamed diagrams.length [.token ds] := by
        intro ds' hds'
        obtain ⟨rfl⟩ := List.mem_singleton.1 hds'
        exact named?_eq_none_iff.1 hd
      have hcovered := ih.1.addText hrun
      rw [List.flatMap_singleton] at hcovered
      exact ⟨hcovered, ih.2.addText (by rw [tokenText_eq_cons]; exact List.cons_ne_nil _ _)⟩
  | @char c rest cs hnot _ ih =>
    rw [expand_of_char (token?_eq_none_iff.2 hnot)]
    have hrun : Unnamed diagrams.length [.char c] := fun ds hds =>
      nomatch List.mem_singleton.1 hds
    have hcovered := ih.1.addText hrun
    rw [List.flatMap_singleton] at hcovered
    exact ⟨hcovered, ih.2.addText (List.cons_ne_nil c [])⟩

/-! ## Text without diagrams -/

theorem Segment.Covers.eq_text {segment : Segment α} (h : segment.Covers diagrams run)
    (hrun : Unnamed diagrams.length run) : segment = .text (run.flatMap Chunk.text) := by
  cases h with
  | text => rfl
  | @diagram ds d _ hd =>
    rw [List.getElem?_eq_none (hrun ds List.mem_cons_self)] at hd
    cases hd

/-- Chunks without a token that names a diagram are one text. -/
theorem Covered.eq_text (h : Covered diagrams cs segments) (htidy : Tidy segments)
    (hcs : Unnamed diagrams.length cs) (hne : cs.flatMap Chunk.text ≠ []) :
    segments = [.text (cs.flatMap Chunk.text)] := by
  obtain ⟨runs, hcovers, rfl⟩ := h
  cases hcovers with
  | nil => exact absurd rfl hne
  | cons hfirst hrest =>
    rw [List.flatten_cons, unnamed_append] at hcs
    obtain rfl := hfirst.eq_text hcs.1
    cases hrest with
    | nil => rw [List.flatten_singleton]
    | cons hsecond _ =>
      rw [List.flatten_cons, unnamed_append] at hcs
      obtain rfl := hsecond.eq_text hcs.2.1
      exact absurd ⟨rfl, rfl⟩ (List.isChain_cons_cons.1 htidy.apart).1

end

/-- **Expansion is a lossless split.**  The text has one scan, and the segments stand for runs of it
that make it up: a text segment is its run as it is written, in which no token names a diagram, and
a diagram segment is a token with the number of the diagram.  No text is empty, no two texts stand
side by side, and nothing comes of the empty text; a text without a token that names a diagram comes
back as it is. -/
theorem expand_lossless {α : Type} (diagrams : List α) (s : List Char) :
    ∃ chunks, (∀ cs, Scan s cs ↔ cs = chunks) ∧
      (∃ runs, List.Forall₂ (Segment.Covers diagrams) (expand diagrams s) runs ∧
        runs.flatten = chunks ∧ (runs.map fun run => run.flatMap Chunk.text).flatten = s) ∧
      (∀ t, .text t ∈ expand diagrams s → t ≠ []) ∧
      (expand diagrams s).IsChain Segment.Apart ∧
      (s = [] → expand diagrams s = []) ∧
      (s ≠ [] → Unnamed diagrams.length chunks → expand diagrams s = [.text s]) := by
  obtain ⟨chunks, hscan⟩ := exists_scan s
  have htext := hscan.flatMap_text
  have hexpand := hscan.expand diagrams
  obtain ⟨runs, hcovers, hruns⟩ := hexpand.1
  refine ⟨chunks, fun cs => ⟨fun h => h.unique hscan, ?_⟩, ⟨runs, hcovers, hruns, ?_⟩,
    hexpand.2.filled, hexpand.2.apart, ?_, fun hne hunnamed => ?_⟩
  · rintro rfl
    exact hscan
  · rw [← htext, ← hruns, List.flatMap_def, List.map_flatten, List.flatten_flatten, List.map_map]
    rfl
  · rintro rfl
    exact expand_nil
  · have := hexpand.1.eq_text hexpand.2 hunnamed (by rwa [htext])
    rwa [htext] at this

/-- The token is taken whole, and as there is no second diagram it is text. -/
theorem expand_lossless_unnamed :
    expand [({ id := "d", width := 600, height := 400 } : Diagram)] "__FBD_1__".toList =
      [.text "__FBD_1__".toList] := by
  obtain ⟨chunks, hscan, -, -, -, -, htext⟩ :=
    expand_lossless [({ id := "d", width := 600, height := 400 } : Diagram)] "__FBD_1__".toList
  have hone : IsNumber ['1'] := ⟨List.cons_ne_nil _ _, by decide⟩
  have htoken : Scan (tokenText ['1'] ++ []) [.token ['1']] := .token hone .nil
  obtain rfl := (hscan _).1 htoken
  refine htext (by decide) fun ds hds => ?_
  obtain ⟨rfl⟩ := List.mem_singleton.1 hds
  exact Nat.le_refl 1

end FreeBody.Inline
