import FreeBody.Json.Draft
import FreeBody.Markup.Scope
import FreeBody.Proofs.Text.Pieces
import Mathlib.Data.List.TakeWhile
import Mathlib.Tactic.SplitIfs

/-!
# Scopes as selectors

The identifiers of style sheets begin with a letter, an underscore, a character beyond ASCII or an
escape, or with a hyphen in front of one of these or of a second hyphen; digits and hyphens may
follow.  An escape is a backslash with one to six hexadecimal digits, which a blank may end, or with
any other character but a line break.  `idSelector?` reads by these rules.

What it reads of the scope of an id is the id itself, unless the id holds a line break or begins
with a hyphen that no identifier begins with (`idSelector?_scopeName_iff`).
-/

namespace FreeBody.Markup

open Json (hexDigit?)

/-! ## Rules of identifiers -/

/-- Whether a character breaks a line of a style sheet. -/
def isLineBreak (c : Char) : Bool := c == '\n' || c == '\r' || c == '\x0c'

/-- Whether `c` may begin an identifier. -/
def isIdentStart (c : Char) : Bool := isAsciiLetter c || c == '_' || 128 ≤ c.toNat

/-- Whether `c` may stand within an identifier. -/
def isIdentPart (c : Char) : Bool := isIdentStart c || isAsciiDigit c || c == '-'

/-- Whether `c` is a hexadecimal digit. -/
def isHexDigit (c : Char) : Bool := (hexDigit? c).isSome

/-- The number that hexadecimal digits write. -/
def hexValue (digits : List Char) : Nat :=
  digits.foldl (fun n d => n * 16 + (hexDigit? d).getD 0) 0

/-- The character of a code.  Zero and codes of no character stand for the replacement
character. -/
def codeChar (n : Nat) : Char := if n ≠ 0 ∧ n.isValidChar then Char.ofNat n else '\uFFFD'

/-- What follows a code, without the blank that ends it. -/
def dropCodeEnd : List Char → List Char
  | '\r' :: '\n' :: rest => rest
  | c :: rest => if c == ' ' || c == '\t' || isLineBreak c then rest else c :: rest
  | [] => []

/-- The character that an escape at the front of a text stands for, and what follows the escape. -/
def escape? : List Char → Option (Char × List Char)
  | '\\' :: c :: rest =>
    if isLineBreak c then none
    else if isHexDigit c then
      let digits := ((c :: rest).takeWhile isHexDigit).take 6
      some (codeChar (hexValue digits), dropCodeEnd ((c :: rest).drop digits.length))
    else some (c, rest)
  | _ => none

theorem length_dropCodeEnd_le (s : List Char) : (dropCodeEnd s).length ≤ s.length := by
  unfold dropCodeEnd
  split
  · simp only [List.length_cons]
    omega
  · split_ifs
    · exact Nat.le_succ _
    · exact Nat.le_refl _
  · exact Nat.le_refl _

theorem escape?_length {s after : List Char} {c : Char} (h : escape? s = some (c, after)) :
    after.length < s.length := by
  unfold escape? at h
  split at h
  next d rest =>
    split_ifs at h with hbreak hhex
    · simp only [Option.some.injEq, Prod.mk.injEq] at h
      obtain ⟨-, rfl⟩ := h
      have := length_dropCodeEnd_le
        ((d :: rest).drop (((d :: rest).takeWhile isHexDigit).take 6).length)
      simp only [List.length_drop, List.length_cons] at this ⊢
      omega
    · obtain ⟨rfl, rfl⟩ := Prod.mk.inj (Option.some.inj h)
      simp only [List.length_cons]
      omega
  next => cases h

/-- Whether an identifier may begin with the character or escape at the front of a text. -/
def beginsIdent (s : List Char) : Bool := s.head?.any isIdentStart || (escape? s).isSome

/-- Whether there is an identifier at the front of a text. -/
def startsIdent : List Char → Bool
  | '-' :: rest => rest.head? == some '-' || beginsIdent rest
  | s => beginsIdent s

/-- The characters that the parts of an identifier at the front of a text stand for, as many parts
as there are, and what follows them. -/
def identParts : (s : List Char) → List Char × List Char
  | [] => ([], [])
  | c :: rest =>
    if isIdentPart c then (c :: (identParts rest).1, (identParts rest).2)
    else
      match _h : escape? (c :: rest) with
      | some (d, after) => (d :: (identParts after).1, (identParts after).2)
      | none => ([], c :: rest)
termination_by s => s.length
decreasing_by
  · simp
  · exact escape?_length _h

/-- The id that a selector at the front of a text selects, and what follows the selector. -/
def idSelector? : List Char → Option (List Char × List Char)
  | '#' :: s => if startsIdent s then some (identParts s) else none
  | _ => none

/-! ## Parts of a scope -/

section

variable {c : Char} {rest : List Char}

theorem isNameChar_eq (c : Char) : isNameChar c = isIdentPart c := by
  unfold isNameChar isIdentPart isIdentStart
  cases isAsciiDigit c <;> cases isAsciiLetter c <;> simp [Bool.or_comm, Bool.or_assoc]

theorem identParts_part (h : isIdentPart c = true) (rest : List Char) :
    identParts (c :: rest) = (c :: (identParts rest).1, (identParts rest).2) := by
  rw [identParts, if_pos h]

theorem escape?_of_ne (h : c ≠ '\\') (rest : List Char) : escape? (c :: rest) = none := by
  simp [escape?, h]

theorem identParts_escape {s after : List Char} (h : escape? s = some (c, after)) :
    identParts s = (c :: (identParts after).1, (identParts after).2) := by
  cases s with
  | nil => cases h
  | cons d rest =>
    have hd : d = '\\' := by
      refine Decidable.byContradiction fun hne => ?_
      rw [escape?_of_ne hne] at h
      cases h
    subst hd
    rw [identParts, if_neg (by decide)]
    split
    next heq =>
      rw [h] at heq
      cases heq
      rfl
    next heq =>
      rw [h] at heq
      cases heq

theorem identParts_stop (h : isIdentPart c = false) (hescape : escape? (c :: rest) = none) :
    identParts (c :: rest) = ([], c :: rest) := by
  rw [identParts, if_neg (by simp [h])]
  split
  next heq =>
    rw [hescape] at heq
    cases heq
  next => rfl

theorem isIdentPart_of_isHexDigit (h : isHexDigit c = true) : isIdentPart c = true := by
  have hc : c.toNat < 128 := by
    by_cases hc : c.toNat < 128
    · exact hc
    · have hlt : ∀ d : Char, d.toNat < 128 → ¬ c ≤ d := by
        intro d hd hle
        have : c.toNat ≤ d.toNat := hle
        omega
      simp [isHexDigit, hexDigit?, hlt '9' (by decide), hlt 'f' (by decide),
        hlt 'F' (by decide)] at h
  revert h
  exact Text.forall_ascii
    (P := fun c => isHexDigit c = true → isIdentPart c = true) (by decide +kernel) hc

theorem isLineBreak_of_isIdentPart (h : isIdentPart c = true) : isLineBreak c = false := by
  rw [Bool.eq_false_iff]
  intro hbreak
  simp only [isLineBreak, Bool.or_eq_true, beq_iff_eq] at hbreak
  rcases hbreak with (rfl | rfl) | rfl <;> revert h <;> decide

theorem escape?_char (h : isIdentPart c = false) (hbreak : isLineBreak c = false)
    (rest : List Char) : escape? ('\\' :: c :: rest) = some (c, rest) := by
  have hhex : isHexDigit c = false := by
    rw [Bool.eq_false_iff]
    intro hhex
    rw [isIdentPart_of_isHexDigit hhex] at h
    cases h
  simp [escape?, hbreak, hhex]

theorem escape?_break (h : isLineBreak c = true) (rest : List Char) :
    escape? ('\\' :: c :: rest) = none := by
  simp [escape?, h]

/-- The codes of the ten digits. -/
theorem digit_code (h : isAsciiDigit c = true) :
    Nat.toDigits 16 c.toNat = ['3', c] ∧ isHexDigit c = true ∧ isIdentStart c = false ∧
      codeChar (hexValue ['3', c]) = c := by
  have hc : c.toNat < 128 := by
    have hle : c ≤ '9' := (by simpa [isAsciiDigit] using h : '0' ≤ c ∧ c ≤ '9').2
    have hle' : c.toNat ≤ 57 := hle
    omega
  revert h
  exact Text.forall_ascii
    (P := fun c => isAsciiDigit c = true → Nat.toDigits 16 c.toNat = ['3', c] ∧
      isHexDigit c = true ∧ isIdentStart c = false ∧ codeChar (hexValue ['3', c]) = c)
    (by decide +kernel) hc

theorem escape?_digit (h : isAsciiDigit c = true) (rest : List Char) :
    escape? ('\\' :: Nat.toDigits 16 c.toNat ++ ' ' :: rest) = some (c, rest) := by
  obtain ⟨hcode, hhex, -, hvalue⟩ := digit_code h
  have hall : ∀ d ∈ ['3', c], isHexDigit d = true := by simpa using ⟨by decide, hhex⟩
  have hdigits : ('3' :: c :: ' ' :: rest).takeWhile isHexDigit = ['3', c] :=
    Text.takeWhile_append_of_stops hall (Text.stops_cons_iff.2 (by decide))
  have hread : escape? ('\\' :: '3' :: c :: ' ' :: rest) =
      some (codeChar (hexValue ((('3' :: c :: ' ' :: rest).takeWhile isHexDigit).take 6)),
        dropCodeEnd (('3' :: c :: ' ' :: rest).drop
          ((('3' :: c :: ' ' :: rest).takeWhile isHexDigit).take 6).length)) := rfl
  rw [hcode]
  show escape? ('\\' :: '3' :: c :: ' ' :: rest) = _
  rw [hread, hdigits]
  exact congrArg some (Prod.ext hvalue rfl)

end

/-! ## Scopes -/

/-- Whether no identifier goes on into `rest`. -/
def EndsIdent (rest : List Char) : Prop := identParts rest = ([], rest)

section

variable {id rest : List Char}

theorem EndsIdent.head?_ne (h : EndsIdent rest) {c : Char} (hc : isIdentPart c = true) :
    rest.head? ≠ some c := by
  intro hhead
  obtain ⟨after, rfl⟩ := List.head?_eq_some_iff.1 hhead
  rw [EndsIdent, identParts_part hc] at h
  cases congrArg Prod.fst h

theorem EndsIdent.escape?_eq_none (h : EndsIdent rest) : escape? rest = none := by
  cases hescape : escape? rest with
  | none => rfl
  | some read =>
    obtain ⟨c, after⟩ := read
    rw [EndsIdent, identParts_escape hescape] at h
    cases congrArg Prod.fst h

theorem not_beginsIdent (h : EndsIdent rest) : beginsIdent rest = false := by
  rw [beginsIdent, h.escape?_eq_none, Option.isSome_none, Bool.or_false]
  cases hhead : rest.head? with
  | none => rfl
  | some c =>
    rw [Option.any_some, Bool.eq_false_iff]
    intro hc
    exact h.head?_ne (by rw [isIdentPart, hc, Bool.true_or, Bool.true_or]) hhead

/-- The forms of characters are read back up to the first line break. -/
theorem identParts_flatMap (h : EndsIdent rest) (id : List Char) :
    identParts (id.flatMap nameChar ++ rest) =
      (id.takeWhile (!isLineBreak ·), (id.dropWhile (!isLineBreak ·)).flatMap nameChar ++ rest) := by
  induction id with
  | nil => exact h
  | cons c id ih =>
    rw [List.flatMap_cons, List.append_assoc, nameChar, isNameChar_eq]
    by_cases hpart : isIdentPart c = true
    · have hbreak : isLineBreak c = false := isLineBreak_of_isIdentPart hpart
      rw [if_pos hpart, List.singleton_append, identParts_part hpart, ih,
        List.takeWhile_cons_of_pos (by rw [hbreak]; rfl),
        List.dropWhile_cons_of_pos (by rw [hbreak]; rfl)]
    · rw [if_neg hpart, List.cons_append, List.singleton_append]
      rw [Bool.not_eq_true] at hpart
      by_cases hbreak : isLineBreak c = true
      · rw [identParts_stop (by decide) (escape?_break hbreak _),
          List.takeWhile_cons_of_neg (by rw [hbreak]; decide),
          List.dropWhile_cons_of_neg (by rw [hbreak]; decide), List.flatMap_cons, nameChar,
          isNameChar_eq, if_neg (by rw [hpart]; decide)]
        rfl
      · rw [Bool.not_eq_true] at hbreak
        rw [identParts_escape (escape?_char hpart hbreak _), ih,
          List.takeWhile_cons_of_pos (by rw [hbreak]; rfl),
          List.dropWhile_cons_of_pos (by rw [hbreak]; rfl)]

theorem identParts_scopeName (h : EndsIdent rest) (id : List Char) :
    identParts (scopeName id ++ rest) =
      (id.takeWhile (!isLineBreak ·), (id.dropWhile (!isLineBreak ·)).flatMap nameChar ++ rest) := by
  cases id with
  | nil => exact h
  | cons c id =>
    rw [scopeName]
    by_cases hc : isAsciiDigit c = true
    · have hbreak : isLineBreak c = false := isLineBreak_of_isIdentPart (by simp [isIdentPart, hc])
      have hread := escape?_digit hc (id.flatMap nameChar ++ rest)
      rw [if_pos hc, List.append_assoc, List.append_assoc, List.singleton_append,
        identParts_escape hread, identParts_flatMap h,
        List.takeWhile_cons_of_pos (by rw [hbreak]; rfl),
        List.dropWhile_cons_of_pos (by rw [hbreak]; rfl)]
    · rw [if_neg hc, ← List.flatMap_cons]
      exact identParts_flatMap h (c :: id)

/-- Whether an id begins as an identifier may: a hyphen in front is followed by something, and not
by a digit. -/
def hyphenLeads : List Char → Bool
  | '-' :: c :: _ => !isAsciiDigit c
  | ['-'] => false
  | _ => true

/-- Whether an id can be told from its scope. -/
structure IsSelectable (id : List Char) : Prop where
  unbroken : ∀ c ∈ id, isLineBreak c = false
  leads : hyphenLeads id = true

theorem beginsIdent_nameChar {c : Char} (hbreak : isLineBreak c = false)
    (hdigit : isAsciiDigit c = false) (hhyphen : c ≠ '-') (rest : List Char) :
    beginsIdent (nameChar c ++ rest) = true := by
  rw [nameChar, isNameChar_eq, beginsIdent]
  by_cases hpart : isIdentPart c = true
  · rw [if_pos hpart]
    have : isIdentStart c = true := by simpa [isIdentPart, hdigit, hhyphen] using hpart
    simp [this]
  · rw [if_neg hpart, List.cons_append, List.singleton_append,
      escape?_char (Bool.not_eq_true _ ▸ hpart) hbreak]
    simp

theorem startsIdent_of_ne {s : List Char} (h : s.head? ≠ some '-') :
    startsIdent s = beginsIdent s := by
  unfold startsIdent
  split
  · simp at h
  · rfl

theorem startsIdent_hyphen (s : List Char) :
    startsIdent ('-' :: s) = (s.head? == some '-' || beginsIdent s) := rfl

theorem hyphenLeads_of_ne {c : Char} (h : c ≠ '-') (s : List Char) :
    hyphenLeads (c :: s) = true := by
  unfold hyphenLeads
  split
  · simp_all
  · simp_all
  · rfl

theorem head?_nameChar_append (c : Char) (s : List Char) :
    (nameChar c ++ s).head? = some c ∨ (nameChar c ++ s).head? = some '\\' := by
  unfold nameChar
  split_ifs
  · exact Or.inl rfl
  · exact Or.inr rfl

theorem beginsIdent_digit {c : Char} (h : isAsciiDigit c = true) (s : List Char) :
    nameChar c ++ s = c :: s ∧ c ≠ '-' ∧ beginsIdent (c :: s) = false := by
  obtain ⟨-, hhex, hstart, -⟩ := digit_code h
  have hpart := isIdentPart_of_isHexDigit hhex
  have hne : ∀ d, isAsciiDigit d = false → c ≠ d := by
    rintro d hd rfl
    rw [hd] at h
    cases h
  refine ⟨by rw [nameChar, isNameChar_eq, if_pos hpart]; rfl, hne '-' (by decide), ?_⟩
  rw [beginsIdent, escape?_of_ne (hne '\\' (by decide)), List.head?_cons, Option.any_some, hstart]
  rfl

/-- The scope of an id begins an identifier if the id does not begin with a hyphen that leads to
none. -/
theorem startsIdent_scopeName (h : EndsIdent rest) (hne : id ≠ [])
    (hunbroken : ∀ c ∈ id, isLineBreak c = false) :
    startsIdent (scopeName id ++ rest) = hyphenLeads id := by
  obtain ⟨c, tail, rfl⟩ := List.exists_cons_of_ne_nil hne
  by_cases hdigit : isAsciiDigit c = true
  · have hread := escape?_digit hdigit (tail.flatMap nameChar ++ rest)
    rw [hyphenLeads_of_ne (beginsIdent_digit hdigit []).2.1, scopeName, if_pos hdigit,
      List.append_assoc, List.append_assoc, List.singleton_append,
      startsIdent_of_ne (by simp), beginsIdent, hread]
    simp
  · rw [scopeName, if_neg hdigit, List.append_assoc]
    rw [Bool.not_eq_true] at hdigit
    by_cases hhyphen : c = '-'
    · subst hhyphen
      show startsIdent ('-' :: (tail.flatMap nameChar ++ rest)) = _
      rw [startsIdent_hyphen]
      cases tail with
      | nil =>
        -- nothing of the id follows, and the rest goes on with nothing
        have hhead : rest.head? ≠ some '-' := h.head?_ne (by decide)
        simpa [hyphenLeads, hhead] using not_beginsIdent h
      | cons d tail =>
        rw [List.flatMap_cons, List.append_assoc]
        by_cases hd : isAsciiDigit d = true
        · obtain ⟨happend, hne, hbegins⟩ :=
            beginsIdent_digit hd (tail.flatMap nameChar ++ rest)
          rw [happend, hbegins]
          simp [hyphenLeads, hd, hne]
        · rw [Bool.not_eq_true] at hd
          have hleads : hyphenLeads ('-' :: d :: tail) = true := by simp [hyphenLeads, hd]
          rw [hleads, Bool.or_eq_true]
          by_cases hsecond : d = '-'
          · subst hsecond
            exact Or.inl rfl
          · exact Or.inr (beginsIdent_nameChar (hunbroken d (by simp)) hd hsecond _)
    · rw [hyphenLeads_of_ne hhyphen, startsIdent_of_ne]
      · exact beginsIdent_nameChar (hunbroken c (by simp)) hdigit hhyphen _
      · rcases head?_nameChar_append c (tail.flatMap nameChar ++ rest) with hhead | hhead
        · rw [hhead]
          simpa using hhyphen
        · rw [hhead]
          decide

end

/-! ## Different ids -/

section

variable {c d : Char} {x y : List Char}

theorem isNameChar_backslash : isNameChar '\\' = false := by decide

/-- No form of a character is the beginning of another one's. -/
theorem nameChar_append_inj (h : nameChar c ++ x = nameChar d ++ y) : c = d ∧ x = y := by
  unfold nameChar at h
  split_ifs at h with hc hd hd
  · exact List.cons.inj h
  · obtain ⟨rfl, -⟩ := List.cons.inj h
    rw [isNameChar_backslash] at hc
    cases hc
  · obtain ⟨rfl, -⟩ := List.cons.inj h
    rw [isNameChar_backslash] at hd
    cases hd
  · exact List.cons.inj (List.cons.inj h).2

theorem digit_append_ne (hc : isAsciiDigit c = true) :
    '\\' :: Nat.toDigits 16 c.toNat ++ x ≠ nameChar d ++ y := by
  rw [(digit_code hc).1, nameChar]
  intro h
  split_ifs at h with hd
  · obtain ⟨rfl, -⟩ := List.cons.inj h
    rw [isNameChar_backslash] at hd
    cases hd
  · obtain ⟨rfl, -⟩ := List.cons.inj (List.cons.inj h).2
    exact hd (by decide)

theorem flatMap_nameChar_injective : Function.Injective (List.flatMap nameChar) := by
  intro s t h
  have hne (c : Char) (s : List Char) : (c :: s).flatMap nameChar ≠ [] := by
    rw [List.flatMap_cons, nameChar]
    split_ifs <;> simp
  induction s generalizing t with
  | nil =>
    cases t with
    | nil => rfl
    | cons d t => exact absurd h.symm (hne d t)
  | cons c s ih =>
    cases t with
    | nil => exact absurd h (hne c s)
    | cons d t =>
      rw [List.flatMap_cons, List.flatMap_cons] at h
      obtain ⟨rfl, hrest⟩ := nameChar_append_inj h
      rw [ih hrest]

theorem scopeName_injective : Function.Injective scopeName := by
  intro s t h
  have hne (c : Char) (s : List Char) : scopeName (c :: s) ≠ [] := by
    rw [scopeName, nameChar]
    split_ifs <;> simp
  rcases s with - | ⟨c, s⟩
  · rcases t with - | ⟨d, t⟩
    · rfl
    · exact absurd h.symm (hne d t)
  · rcases t with - | ⟨d, t⟩
    · exact absurd h (hne c s)
    · rw [scopeName, scopeName] at h
      split_ifs at h with hc hd hd
      · rw [(digit_code hc).1, (digit_code hd).1] at h
        simp only [List.cons_append, List.nil_append, List.cons.injEq, true_and] at h
        rw [h.1, flatMap_nameChar_injective h.2]
      · rw [List.append_assoc] at h
        exact absurd h (digit_append_ne hc)
      · rw [List.append_assoc] at h
        exact absurd h.symm (digit_append_ne hd)
      · obtain ⟨rfl, hrest⟩ := nameChar_append_inj h
        rw [flatMap_nameChar_injective hrest]

end

/-! ## Main result -/

/-- The scope of an id is an identifier that says the id exactly if the id holds no line break and
does not begin with a hyphen that a digit or nothing follows.  Different ids have different
scopes. -/
theorem idSelector?_scopeName_iff {id rest : List Char} (hne : id ≠ []) (h : EndsIdent rest) :
    (idSelector? ('#' :: scopeName id ++ rest) = some (id, rest) ↔ IsSelectable id) ∧
      ∀ other, scopeName other = scopeName id → other = id := by
  refine ⟨?_, fun other hother => scopeName_injective hother⟩
  have hparts := identParts_scopeName h id
  rw [List.cons_append, idSelector?, hparts]
  constructor
  · intro hread
    split_ifs at hread with hstarts
    obtain ⟨htake, -⟩ := Prod.mk.inj (Option.some.inj hread)
    have hunbroken : ∀ c ∈ id, isLineBreak c = false := by
      intro c hc
      rw [← htake] at hc
      simpa using List.mem_takeWhile_imp hc
    refine ⟨hunbroken, ?_⟩
    rw [← startsIdent_scopeName h hne hunbroken, hstarts]
  · rintro ⟨hunbroken, hleads⟩
    have hall : ∀ c ∈ id, (!isLineBreak c) = true := fun c hc => by rw [hunbroken c hc]; rfl
    rw [startsIdent_scopeName h hne hunbroken, if_pos hleads, List.takeWhile_eq_self_iff.2 hall,
      List.dropWhile_eq_nil_iff.2 hall]
    rfl

/-- An id of digits, points and hyphens in front of the rest of a selector. -/
theorem idSelector?_scopeName_version :
    ['1', '.', '-', 'a'] ≠ [] ∧ EndsIdent [' ', '.', 'x'] ∧
      idSelector? ('#' :: scopeName ['1', '.', '-', 'a'] ++ [' ', '.', 'x']) =
        some (['1', '.', '-', 'a'], [' ', '.', 'x']) := by
  have hends : EndsIdent [' ', '.', 'x'] := identParts_stop (by decide) (by decide)
  refine ⟨by decide, hends, ?_⟩
  exact (idSelector?_scopeName_iff (by decide) hends).1.2 ⟨by decide, by decide⟩

/-- A hyphen and a digit begin no identifier, and a line break cannot be escaped. -/
theorem scope_selects_nothing :
    idSelector? ('#' :: scopeName ['-', '1']) = none ∧
      idSelector? ('#' :: scopeName ['\n']) = none := by
  constructor <;> decide

end FreeBody.Markup
