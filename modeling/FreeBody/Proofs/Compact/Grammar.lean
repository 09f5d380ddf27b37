import FreeBody.Proofs.Compact.Recognition
import FreeBody.Proofs.Compact.Spelling

/-!
# The grammar of elements

The elements of a section have a grammar of their own, whose rules keep what they match: a match
is a text with the matches inside it (`Match`), in the order in which they stand.  `Grammar.Gives`
says what such a grammar makes of a text, and nothing else can come of it (`Gives.unique`).

On every text the readers of elements do what their grammar does: they read what it matches, and
fail where it fails (`gives_point`, `gives_force`, `gives_option`).
-/

namespace FreeBody.Compact

open Text (Stops isSpace skipSpaces)

/-! ## Parts of the grammar -/

namespace Peg

/-- At least once. -/
def plus (a : Peg) : Peg := .seq a (.star a)

/-- Once, or not at all. -/
def optional (a : Peg) : Peg := .choice a (.no a)

/-- A name. -/
def ident : Peg := plus (.char isIdentChar)

/-- Digits. -/
def digits : Peg := plus (.char Decimal.isDigit)

/-- The minus of a number, if there is one. -/
def sign : Peg := optional (only '-')

/-- The places of a number with their point, if there are any. -/
def decimals : Peg := optional (.seq (only '.') digits)

/-- A number. -/
def number : Peg := .seq sign (.seq digits decimals)

/-- A label. -/
def label : Peg := plus (.seq (.no (.choice (only ',') (only ')'))) any)

/-- What is no element: everything up to the next blank. -/
def junk : Peg := plus (.seq (.no (.char isSpace)) any)

section

variable {a b : Peg} {p q : Char → Bool} {s : List Char}

theorem takesOne_choice (ha : a.TakesOne p) (hb : b.TakesOne q) :
    (choice a b).TakesOne fun c => p c || q c where
  takes {c} s hc := by
    cases hp : p c with
    | true => exact .first (ha.takes s hp)
    | false =>
      have hq : q c = true := by simpa [hp] using hc
      exact .second (ha.fails (Text.stops_cons_iff.2 hp)) (hb.takes s hq)
  fails {s} hs := by
    have hboth : Stops p s ∧ Stops q s := by
      constructor <;> intro c hc <;> have := hs c hc <;> simp_all
    exact .second (ha.fails hboth.1) (hb.fails hboth.2)

/-- At least one character is what `some?` reads. -/
theorem TakesOne.run_plus (h : a.TakesOne p) (s : List Char) :
    (plus a).Run s ((some? p s).map Prod.snd) := by
  cases s with
  | nil => exact .seq_fails (h.fails (Text.stops_nil p))
  | cons c s =>
    cases hc : p c with
    | true =>
      have hsome : some? p (c :: s) = some (c :: s.takeWhile p, s.dropWhile p) := by
        simp [some?, hc]
      rw [hsome]
      exact .seq (h.takes s hc) (h.run_star s)
    | false =>
      have hnone : some? p (c :: s) = none := by simp [some?, hc]
      rw [hnone]
      exact .seq_fails (h.fails (Text.stops_cons_iff.2 hc))

theorem run_ident (s : List Char) : ident.Run s ((ident? s).map Prod.snd) :=
  (takesOne_char isIdentChar).run_plus s

theorem run_digits (s : List Char) :
    digits.Run s ((some? Decimal.isDigit s).map Prod.snd) :=
  (takesOne_char Decimal.isDigit).run_plus s

theorem run_label (s : List Char) : label.Run s ((label? s).map Prod.snd) := by
  have hend : (choice (only ',') (only ')')).TakesOne fun c => c == ',' || c == ')' :=
    takesOne_choice (takesOne_only ',') (takesOne_only ')')
  have hlabel : label? s = some? (fun c => !(c == ',' || c == ')')) s := by
    have hp : (fun c => c != ',' && c != ')') = fun c : Char => !(c == ',' || c == ')') := by
      funext c
      rw [Bool.not_or]
      rfl
    rw [label?, hp]
  rw [hlabel]
  exact hend.but.run_plus s

theorem run_junk (s : List Char) : junk.Run s ((some? (!isSpace ·) s).map Prod.snd) :=
  (takesOne_char isSpace).but.run_plus s

theorem run_char? (c : Char) (s : List Char) : (only c).Run s (char? c s) := by
  cases h : char? c s with
  | some rest =>
    obtain rfl := char?_sound h
    exact run_only c rest
  | none =>
    refine run_only_fails fun rest hs => ?_
    rw [hs, char?, if_pos rfl] at h
    cases h

theorem run_sign (s : List Char) : sign.Run s (some (minus s).2) := by
  unfold minus
  split
  next rest => exact .first (run_only '-' rest)
  next hs =>
    have hfails : (only '-').Run s none := run_only_fails hs
    exact .second hfails (.no hfails)

theorem run_decimals (s : List Char) : decimals.Run s (some (places s).2) := by
  unfold places
  split
  next rest =>
    have hdigits := run_digits rest
    split
    next ds after hread =>
      rw [hread] at hdigits
      exact .first (.seq (run_only '.' rest) hdigits)
    next hread =>
      rw [hread] at hdigits
      have hfails : (seq (only '.') digits).Run ('.' :: rest) none :=
        .seq (run_only '.' rest) hdigits
      exact .second hfails (.no hfails)
  next hs =>
    have hfails : (seq (only '.') digits).Run s none := .seq_fails (run_only_fails hs)
    exact .second hfails (.no hfails)

theorem run_number (s : List Char) : number.Run s ((number? s).map Prod.snd) := by
  have hdigits := run_digits (minus s).2
  unfold number?
  rcases hread : some? Decimal.isDigit (minus s).2 with _ | ⟨whole, rest⟩
  · rw [hread] at hdigits
    exact .seq (run_sign s) (.seq_fails hdigits)
  · rw [hread] at hdigits
    exact .seq (run_sign s) (.seq hdigits (run_decimals rest))

theorem run_blanks (s : List Char) : blanks.Run s (some (skipSpaces s)) := run_star_char isSpace s

end

end Peg

/-! ## Grammars that keep what they match -/

/-- The rules of a section. -/
inductive Rule
  | point
  | force
  | option
  | junk
  | ident
  | number
  | label
  | kind
  | value
  | eoi
  deriving DecidableEq

/-- What a rule matched, and the matches inside it. -/
structure Match where
  rule : Rule
  text : List Char
  inner : List Match

/-- A match with nothing inside it. -/
def leaf (rule : Rule) (text : List Char) : Match := ⟨rule, text, []⟩

/-- A grammar whose rules keep what they match. -/
inductive Grammar
  | silent (a : Peg)
  | rule (name : Rule) (g : Grammar)
  | seq (g h : Grammar)
  | choice (g h : Grammar)
  | star (g : Grammar)

namespace Grammar

/-- The grammar without what it keeps. -/
def peg : Grammar → Peg
  | silent a => a
  | rule _ g => g.peg
  | seq g h => .seq g.peg h.peg
  | choice g h => .choice g.peg h.peg
  | star g => .star g.peg

/-- Once, or not at all. -/
def optional (g : Grammar) : Grammar := .choice g (.silent (.no g.peg))

/-- What a grammar makes of a text: the matches of its rules and what is left, unless it fails. -/
inductive Gives : Grammar → List Char → Option (List Match × List Char) → Prop
  | silent {a : Peg} {s rest : List Char} : a.Run s (some rest) →
      Gives (silent a) s (some ([], rest))
  | silent_fails {a : Peg} {s : List Char} : a.Run s none → Gives (silent a) s none
  | rule {name : Rule} {g : Grammar} {taken rest : List Char} {inner : List Match} :
      Gives g (taken ++ rest) (some (inner, rest)) →
      Gives (rule name g) (taken ++ rest) (some ([⟨name, taken, inner⟩], rest))
  | rule_fails {name : Rule} {g : Grammar} {s : List Char} : Gives g s none →
      Gives (rule name g) s none
  | seq {g h : Grammar} {s t rest : List Char} {ms ns : List Match} : Gives g s (some (ms, t)) →
      Gives h t (some (ns, rest)) → Gives (seq g h) s (some (ms ++ ns, rest))
  | seq_stops {g h : Grammar} {s t : List Char} {ms : List Match} : Gives g s (some (ms, t)) →
      Gives h t none → Gives (seq g h) s none
  | seq_fails {g h : Grammar} {s : List Char} : Gives g s none → Gives (seq g h) s none
  | first {g h : Grammar} {s rest : List Char} {ms : List Match} : Gives g s (some (ms, rest)) →
      Gives (choice g h) s (some (ms, rest))
  | second {g h : Grammar} {s : List Char} {r : Option (List Match × List Char)} :
      Gives g s none → Gives h s r → Gives (choice g h) s r
  | more {g : Grammar} {s t rest : List Char} {ms ns : List Match} : Gives g s (some (ms, t)) →
      Gives (star g) t (some (ns, rest)) → Gives (star g) s (some (ms ++ ns, rest))
  | done {g : Grammar} {s : List Char} : Gives g s none → Gives (star g) s (some ([], s))

section

variable {g : Grammar} {s : List Char} {r r' : Option (List Match × List Char)}

/-- What a grammar keeps does not change what it takes. -/
theorem Gives.run (h : g.Gives s r) : g.peg.Run s (r.map Prod.snd) := by
  induction h with
  | silent hrun | silent_fails hrun => exact hrun
  | rule _ ih | rule_fails _ ih => exact ih
  | seq _ _ ihg ihh | seq_stops _ _ ihg ihh => exact .seq ihg ihh
  | seq_fails _ ih => exact .seq_fails ih
  | first _ ih => exact .first ih
  | second _ _ ihg ihh => exact .second ihg ihh
  | more _ _ ihg ihs => exact .more ihg ihs
  | done _ ih => exact .done ih

/-- A grammar gives one result. -/
theorem Gives.unique (h : g.Gives s r) (h' : g.Gives s r') : r = r' := by
  induction h generalizing r' with
  | silent hrun =>
    cases h' with
    | silent hrun' => rw [Option.some.inj (hrun.unique hrun')]
    | silent_fails hrun' => cases hrun.unique hrun'
  | silent_fails hrun =>
    cases h' with
    | silent hrun' => cases hrun.unique hrun'
    | silent_fails => rfl
  | @rule name g taken rest inner _ ih =>
    generalize hs : taken ++ rest = s at h'
    cases h' with
    | rule hg =>
      obtain ⟨rfl, rfl⟩ := Prod.mk.inj (Option.some.inj (ih (hs ▸ hg)))
      rw [List.append_cancel_right hs]
    | rule_fails hg => cases ih (hs ▸ hg)
  | rule_fails _ ih =>
    generalize hr : r' = r₀ at h'
    cases h' with
    | rule hg => cases ih hg
    | rule_fails => rfl
  | seq _ _ ihg ihh =>
    cases h' with
    | seq hg hh =>
      obtain ⟨rfl, rfl⟩ := Prod.mk.inj (Option.some.inj (ihg hg))
      obtain ⟨rfl, rfl⟩ := Prod.mk.inj (Option.some.inj (ihh hh))
      rfl
    | seq_stops hg hh =>
      obtain ⟨rfl, rfl⟩ := Prod.mk.inj (Option.some.inj (ihg hg))
      cases ihh hh
    | seq_fails hg => cases ihg hg
  | seq_stops _ _ ihg ihh =>
    cases h' with
    | seq hg hh =>
      obtain ⟨rfl, rfl⟩ := Prod.mk.inj (Option.some.inj (ihg hg))
      cases ihh hh
    | seq_stops => rfl
    | seq_fails => rfl
  | seq_fails _ ihg =>
    cases h' with
    | seq hg hh => cases ihg hg
    | seq_stops => rfl
    | seq_fails => rfl
  | first _ ihg =>
    cases h' with
    | first hg => exact ihg hg
    | second hg _ => cases ihg hg
  | second _ _ ihg ihh =>
    cases h' with
    | first hg => cases ihg hg
    | second _ hh => exact ihh hh
  | more _ _ ihg ihs =>
    cases h' with
    | more hg hs =>
      obtain ⟨rfl, rfl⟩ := Prod.mk.inj (Option.some.inj (ihg hg))
      obtain ⟨rfl, rfl⟩ := Prod.mk.inj (Option.some.inj (ihs hs))
      rfl
    | done hg => cases ihg hg
  | done _ ihg =>
    cases h' with
    | more hg hs => cases ihg hg
    | done => rfl

/-- A part that is not there takes nothing. -/
theorem Gives.absent (h : g.Gives s none) : g.optional.Gives s (some ([], s)) :=
  .second h (.silent (.no h.run))

theorem Gives.present {ms : List Match} {rest : List Char} (h : g.Gives s (some (ms, rest))) :
    g.optional.Gives s (some (ms, rest)) := .first h

end

end Grammar

/-! ## Elements -/

open Grammar (Gives silent rule seq optional)

/-- A mark. -/
def mark (c : Char) : Grammar := silent (.only c)

/-- A number with blanks around it. -/
def coord : Grammar :=
  seq (silent .blanks) (seq (rule .number (silent .number)) (silent .blanks))

/-- A label behind a comma. -/
def labelTail : Grammar := seq (mark ',') (rule .label (silent .label))

/-- A kind behind a comma, with blanks around it. -/
def kindTail : Grammar :=
  seq (mark ',') (seq (silent .blanks) (seq (rule .kind (silent .ident)) (silent .blanks)))

/-- A point. -/
def pointGrammar : Grammar :=
  seq (rule .ident (silent .ident)) (seq (mark '(') (seq coord (seq (mark ',') (seq coord
    (seq (optional labelTail) (mark ')'))))))

/-- A force. -/
def forceGrammar : Grammar :=
  seq (rule .ident (silent .ident)) (seq (mark '@') (seq (rule .ident (silent .ident))
    (seq (mark '(') (seq coord (seq (mark ',') (seq coord (seq (mark ',')
      (seq (rule .label (silent .label)) (seq (optional kindTail) (mark ')'))))))))))

/-- An option. -/
def optionGrammar : Grammar :=
  seq (rule .ident (silent .ident)) (seq (mark '=') (rule .value (silent .ident)))

/-- The matches inside a point. -/
def PointText.inner (t : PointText) : List Match :=
  [leaf .ident t.id, leaf .number t.x, leaf .number t.y] ++ t.label.toList.map (leaf .label)

/-- The matches inside a force. -/
def ForceText.inner (t : ForceText) : List Match :=
  [leaf .ident t.id, leaf .ident t.point, leaf .number t.magnitude, leaf .number t.angle,
    leaf .label t.label] ++ t.kind.toList.map (leaf .kind)

/-- The matches inside an option. -/
def OptionText.inner (t : OptionText) : List Match := [leaf .ident t.key, leaf .value t.value]

/-- What a reader reads as what a grammar gives. -/
def kept {α : Type} (inner : α → List Match) (r : Option (α × List Char)) :
    Option (List Match × List Char) :=
  r.map fun (a, rest) => (inner a, rest)

section

variable {s : List Char}

theorem gives_leaf {a : Peg} {read? : List Char → Option (List Char × List Char)}
    (hrun : ∀ s, a.Run s ((read? s).map Prod.snd))
    (hsound : ∀ {s part rest : List Char}, read? s = some (part, rest) → s = part ++ rest)
    (name : Rule) (s : List Char) :
    (rule name (silent a)).Gives s (kept (fun text => [leaf name text]) (read? s)) := by
  have hs := hrun s
  rcases hread : read? s with _ | ⟨part, rest⟩
  · rw [hread] at hs
    exact .rule_fails (.silent_fails hs)
  · rw [hread] at hs
    obtain rfl := hsound hread
    exact .rule (.silent hs)

theorem gives_ident (name : Rule) (s : List Char) :
    (rule name (silent .ident)).Gives s (kept (fun text => [leaf name text]) (ident? s)) :=
  gives_leaf Peg.run_ident (fun h => (ident?_sound h).2) name s

theorem gives_label (s : List Char) :
    (rule .label (silent .label)).Gives s (kept (fun text => [leaf .label text]) (label? s)) :=
  gives_leaf Peg.run_label (fun h => (label?_sound h).2) .label s

theorem gives_blanks (s : List Char) : (silent .blanks).Gives s (some ([], skipSpaces s)) :=
  .silent (Peg.run_blanks s)

theorem gives_mark (c : Char) (s : List Char) :
    (mark c).Gives s ((char? c s).map fun rest => ([], rest)) := by
  have hrun := Peg.run_char? c s
  cases hread : char? c s with
  | none =>
    rw [hread] at hrun
    exact .silent_fails hrun
  | some rest =>
    rw [hread] at hrun
    exact .silent hrun

/-- A part between blanks. -/
theorem gives_spaced {a : Peg} {read? : List Char → Option (List Char × List Char)}
    {name : Rule} (h : ∀ s, (rule name (silent a)).Gives s
      (kept (fun text => [leaf name text]) (read? s))) (s : List Char) :
    (seq (silent .blanks) (seq (rule name (silent a)) (silent .blanks))).Gives s
      (kept (fun text => [leaf name text])
        ((read? (skipSpaces s)).bind fun (text, rest) => some (text, skipSpaces rest))) := by
  have hpart := h (skipSpaces s)
  rcases hread : read? (skipSpaces s) with _ | ⟨text, rest⟩
  · rw [hread] at hpart
    exact .seq_stops (gives_blanks s) (.seq_fails hpart)
  · rw [hread] at hpart
    exact .seq (gives_blanks s) (.seq hpart (gives_blanks rest))

theorem gives_coord (s : List Char) :
    coord.Gives s (kept (fun text => [leaf .number text]) (coordinate? s)) :=
  gives_spaced (gives_leaf Peg.run_number number?_sound .number) s

/-- An optional part behind a comma. -/
theorem gives_optional {part : Grammar} {part? : List Char → Option (List Char × List Char)}
    {name : Rule} (h : ∀ s, part.Gives s (kept (fun text => [leaf name text]) (part? s)))
    (s : List Char) :
    (optional (seq (mark ',') part)).Gives s
      (some ((optional? part? s).1.toList.map (leaf name), (optional? part? s).2)) := by
  have hmark := gives_mark ',' s
  unfold optional?
  cases hcomma : char? ',' s with
  | none =>
    rw [hcomma] at hmark
    exact .absent (.seq_fails hmark)
  | some rest =>
    rw [hcomma] at hmark
    have hpart := h rest
    rcases hread : part? rest with _ | ⟨text, after⟩
    · rw [hread] at hpart
      simp only [hread]
      exact .absent (.seq_stops hmark hpart)
    · rw [hread] at hpart
      simp only [hread]
      exact .present (.seq hmark hpart)

theorem gives_labelTail (s : List Char) : (optional labelTail).Gives s
    (some ((optional? label? s).1.toList.map (leaf .label), (optional? label? s).2)) :=
  gives_optional gives_label s

theorem gives_kindTail (s : List Char) : (optional kindTail).Gives s
    (some ((optional? kind? s).1.toList.map (leaf .kind), (optional? kind? s).2)) :=
  gives_optional (fun s => gives_spaced (gives_ident .kind) s) s

/-! ## Parts in sequence -/

/-- Whether a grammar gives `r` where the parts in front of it gave `before`. -/
def Follows (before : List Match) (g : Grammar) (s : List Char)
    (r : Option (List Match × List Char)) : Prop :=
  ∃ r', g.Gives s r' ∧ r = r'.map fun (ms, rest) => (before ++ ms, rest)

theorem gives_of_follows {g : Grammar} {r : Option (List Match × List Char)}
    (h : Follows [] g s r) : g.Gives s r := by
  obtain ⟨_ | r', hg, rfl⟩ := h
  · exact hg
  · exact hg

section

variable {α β : Type} {before : List Match} {g h : Grammar} {inner : β → List Match}

/-- The parts behind one that is read follow it; if it is not read, nothing is. -/
theorem follows_bind {x : Option (α × List Char)} {f : α × List Char → Option (β × List Char)}
    {ms : α → List Match} (hg : g.Gives s (kept ms x))
    (hh : ∀ a t, Follows (before ++ ms a) h t (kept inner (f (a, t)))) :
    Follows before (seq g h) s (kept inner (x.bind f)) := by
  rcases x with _ | ⟨a, t⟩
  · exact ⟨none, .seq_fails hg, rfl⟩
  obtain ⟨_ | ⟨ns, rest⟩, hgives, heq⟩ := hh a t
  · exact ⟨none, .seq_stops hg hgives, heq⟩
  · refine ⟨some (ms a ++ ns, rest), .seq hg hgives, heq.trans ?_⟩
    show some (before ++ ms a ++ ns, rest) = some (before ++ (ms a ++ ns), rest)
    rw [List.append_assoc]

theorem follows_mark {c : Char} {f : List Char → Option (β × List Char)}
    (hh : ∀ t, Follows before h t (kept inner (f t))) :
    Follows before (seq (mark c) h) s (kept inner ((char? c s).bind f)) := by
  have hmark := gives_mark c s
  cases hread : char? c s with
  | none =>
    rw [hread] at hmark
    exact ⟨none, .seq_fails hmark, rfl⟩
  | some t =>
    rw [hread] at hmark
    obtain ⟨_ | ⟨ns, rest⟩, hgives, heq⟩ := hh t
    · exact ⟨none, .seq_stops hmark hgives, heq⟩
    · exact ⟨some (ns, rest), .seq hmark hgives, heq⟩

/-- A part that is not needed does not end the reading. -/
theorem follows_total {ms : List Match} {t : List Char} {r : Option (List Match × List Char)}
    (hg : g.Gives s (some (ms, t))) (hh : Follows (before ++ ms) h t r) :
    Follows before (seq g h) s r := by
  obtain ⟨_ | ⟨ns, rest⟩, hgives, rfl⟩ := hh
  · exact ⟨none, .seq_stops hg hgives, rfl⟩
  · refine ⟨some (ms ++ ns, rest), .seq hg hgives, ?_⟩
    show some (before ++ ms ++ ns, rest) = some (before ++ (ms ++ ns), rest)
    rw [List.append_assoc]

/-- The last mark of an element. -/
theorem follows_close {c : Char} {b : β} (hb : inner b = before) :
    Follows before (mark c) s (kept inner ((char? c s).bind fun t => some (b, t))) := by
  refine ⟨_, gives_mark c s, ?_⟩
  cases char? c s with
  | none => rfl
  | some t =>
    show some (inner b, t) = some (before ++ [], t)
    rw [hb, List.append_nil]

/-- The last part of an element. -/
theorem follows_last {x : Option (α × List Char)} {ms : α → List Match} {b : α → β}
    (hg : g.Gives s (kept ms x)) (hb : ∀ a, inner (b a) = before ++ ms a) :
    Follows before g s (kept inner (x.bind fun (a, t) => some (b a, t))) := by
  refine ⟨_, hg, ?_⟩
  rcases x with _ | ⟨a, t⟩
  · rfl
  · show some (inner (b a), t) = some (before ++ ms a, t)
    rw [hb]

end

/-! ## Elements by their parts -/

/-- Points are read as their grammar says. -/
theorem gives_point (s : List Char) :
    pointGrammar.Gives s (kept PointText.inner (point? s)) := by
  refine gives_of_follows (follows_bind (gives_ident .ident s) fun id s₁ => ?_)
  refine follows_mark fun s₂ => follows_bind (gives_coord s₂) fun x s₃ => ?_
  refine follows_mark fun s₄ => follows_bind (gives_coord s₄) fun y s₅ => ?_
  exact follows_total (gives_labelTail s₅) (follows_close rfl)

/-- Forces are read as their grammar says. -/
theorem gives_force (s : List Char) :
    forceGrammar.Gives s (kept ForceText.inner (force? s)) := by
  refine gives_of_follows (follows_bind (gives_ident .ident s) fun id s₁ => ?_)
  refine follows_mark fun s₂ => follows_bind (gives_ident .ident s₂) fun point s₃ => ?_
  refine follows_mark fun s₄ => follows_bind (gives_coord s₄) fun magnitude s₅ => ?_
  refine follows_mark fun s₆ => follows_bind (gives_coord s₆) fun angle s₇ => ?_
  refine follows_mark fun s₈ => follows_bind (gives_label s₈) fun label s₉ => ?_
  exact follows_total (gives_kindTail s₉) (follows_close rfl)

/-- Options are read as their grammar says. -/
theorem gives_option (s : List Char) :
    optionGrammar.Gives s (kept OptionText.inner (option? s)) := by
  refine gives_of_follows (follows_bind (gives_ident .ident s) fun key s₁ => ?_)
  exact follows_mark fun s₂ => follows_last (gives_ident .value s₂) fun value => rfl

end

end FreeBody.Compact
