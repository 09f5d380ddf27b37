import FreeBody.Compact.Error
import FreeBody.Composition.Layout
import FreeBody.Text.Bracket
import FreeBody.Text.Pieces

/-!
# Reading combinations

A combination is a tag in any letter case and slots between commas: `SERIES:a,b`,
`PARALLEL:a,b`, `GRID:2:a,b` or `COMPARE:label|a,b`.  A slot is blank or holds a segment; in a
comparison, two segments with a bar between them are a label and a preset.

A segment is quoted, or runs up to the next comma, bar, quote or unbalanced parenthesis.  Every
slot counts, so positions are as written.

The error of a malformed text is the furthest place where something was missing: a segment that
a slot could have held, or the end of the text.
-/

namespace FreeBody.Composition

open Text (skipSpaces toClosing)

/-! ## Segments -/

/-- The text of a preset or a label, in quotes or not. -/
inductive Segment
  | quoted (text : List Char)
  | bare (text : List Char)

/-- Whether `c` ends a bare segment. -/
def endsBare (c : Char) : Bool := c == ',' || c == '|' || c == ')' || c == '"'

/-- The longest bare text at the front of `s`, and what follows it. -/
def bareText (s : List Char) : List Char × List Char :=
  match s with
  | [] => ([], [])
  | c :: rest =>
    if c = '(' then
      match _h : toClosing '(' ')' 0 rest with
      | some (content, after) =>
        let (more, final) := bareText after
        ('(' :: content ++ ')' :: more, final)
      | none => ([], c :: rest)
    else if endsBare c then ([], c :: rest)
    else
      let (more, final) := bareText rest
      (c :: more, final)
termination_by s.length
decreasing_by
  · have := Text.toClosing_length _h
    simp only [List.length_cons]
    omega
  · simp

/-- A quoted text behind its opening quote. -/
def quotedText? (s : List Char) : Option (List Char × List Char) :=
  match s.dropWhile (· != '"') with
  | [] => none
  | _ :: rest => some (s.takeWhile (· != '"'), rest)

/-- The segment at the front of `s`. -/
def segment? : List Char → Option (Segment × List Char)
  | '"' :: rest => (quotedText? rest).map fun p => (.quoted p.1, p.2)
  | s =>
    let (text, rest) := bareText s
    if text.isEmpty then none else some (.bare text, rest)

/-! ## Slots -/

/-- What stands between two commas. -/
inductive Slot
  | blank
  | one (a : Segment)
  | two (label preset : Segment)

/-- A slot, what follows it, and where a segment was looked for in vain. -/
structure SlotRead where
  slot : Slot
  rest : List Char
  missing : Option (List Char)

/-- Reads a slot that may hold a segment. -/
def readSlot (s : List Char) : SlotRead :=
  match segment? (skipSpaces s) with
  | some (a, rest) => ⟨.one a, skipSpaces rest, none⟩
  | none => ⟨.blank, skipSpaces s, some (skipSpaces s)⟩

/-- Reads a slot that may hold a segment, or two with a bar between them. -/
def readPair (s : List Char) : SlotRead :=
  match readSlot s with
  | ⟨.one label, '|' :: rest, _⟩ =>
    match segment? (skipSpaces rest) with
    | some (preset, final) => ⟨.two label preset, skipSpaces final, none⟩
    | none => ⟨.one label, '|' :: rest, some (skipSpaces rest)⟩
  | read => read

/-- Reads slots between commas: the slots, what follows the last, and where it lacks a segment.
There are no more slots than characters and one. -/
def readSlots (read : List Char → SlotRead) :
    Nat → List Char → List Slot × List Char × Option (List Char)
  | 0, s => ([], s, none)
  | fuel + 1, s =>
    match read s with
    | ⟨slot, ',' :: rest, _⟩ =>
      let (slots, final, missing) := readSlots read fuel rest
      (slot :: slots, final, missing)
    | ⟨slot, rest, missing⟩ => ([slot], rest, missing)

/-! ## Entries -/

/-- The text of a segment; a quoted one counts as it is. -/
def Segment.text : Segment → List Char
  | quoted text => text
  | bare text => Text.trim text

/-- The entry that a segment asks for: `name` or `name(arguments)`. -/
def Segment.entry (a : Segment) : Entry :=
  let text := Text.trim a.text
  match text.dropWhile (· != '(') with
  | _ :: rest =>
    if rest.getLast? = some ')' then
      { preset := String.ofList (Text.trim (text.takeWhile (· != '('))),
        args := Argument.readAll rest.dropLast }
    else { preset := String.ofList text }
  | [] => { preset := String.ofList text }

/-- The entry of a slot; a blank one asks for a preset without a name. -/
def Slot.entry : Slot → Entry
  | blank => {}
  | one a => a.entry
  | two label preset => { preset.entry with label := some (String.ofList label.text) }

/-! ## Combinations -/

/-- What follows the tag `name`, in any letter case, and a colon. -/
def afterTag? (name s : List Char) : Option (List Char) :=
  let tag := name ++ [':']
  if (s.take tag.length).map Char.toLower = tag then some (s.drop tag.length) else none

/-- The number of columns; one beyond 64 bits counts as 1, as does none. -/
def columnCount (ds : List Char) : Nat :=
  let n := Decimal.value ds
  if n ≤ Decimal.maxWord then max n 1 else 1

/-- What a tag asks for: a layout and the slots behind it, or no layout, or columns that are
missing at a place. -/
inductive Heading
  | layout (layout : Layout) (read : List Char → SlotRead) (slots : List Char)
  | none
  | noColumns (place : List Char)

/-- Reads the tag at the front of `s`. -/
def readHeading (s : List Char) : Heading :=
  match afterTag? "series".toList s with
  | some rest => .layout .series readSlot rest
  | none =>
    match afterTag? "parallel".toList s with
    | some rest => .layout .parallel readSlot rest
    | none =>
      match afterTag? "compare".toList s with
      | some rest => .layout (.comparison none) readPair rest
      | none =>
        match afterTag? "grid".toList s with
        | some rest =>
          let body := skipSpaces rest
          let ds := body.takeWhile Decimal.isDigit
          if ds.isEmpty then .noColumns body
          else
            match skipSpaces (body.dropWhile Decimal.isDigit) with
            | ':' :: slots => .layout (.grid (columnCount ds)) readSlot slots
            | _ => .none
        | none => .none

/-- The error of a text whose slots end before `rest`, and lack a segment at `missing`. -/
def slotError (whole rest : List Char) (missing : Option (List Char)) : CompactError :=
  match missing with
  | some place =>
    if place.length < rest.length then .malformedCombination (byteOffset whole place) .segment
    else .malformedCombination (byteOffset whole rest) .segmentOrEnd
  | none => .malformedCombination (byteOffset whole rest) .endOfText

/-- Reads a combination. -/
def readCombination (whole : List Char) : Except CompactError Combination :=
  let s := skipSpaces whole
  match readHeading s with
  | .noColumns place => .error (.malformedCombination (byteOffset whole place) .columns)
  | .none =>
    let offset := byteOffset whole s
    .error (.malformedCombination offset (if offset = 0 then .combination else .layoutTag))
  | .layout layout read body =>
    match readSlots read (body.length + 1) body with
    | (slots, [], _) => .ok ⟨layout, slots.map Slot.entry⟩
    | (_, rest, missing) => .error (slotError whole rest missing)

/-- Whether a text begins, behind blanks, with a tag in capitals. -/
def isCombination (text : String) : Bool :=
  let s := Text.trimStart text.toList
  ["SERIES:", "PARALLEL:", "GRID:", "COMPARE:"].any fun tag => tag.toList.isPrefixOf s

end FreeBody.Composition
