import FreeBody.Json.Writer
import FreeBody.Proofs.Text.Pieces

/-!
# The texts of a value

The two texts of a value differ in nothing but the blanks between their parts.  `Spacing` says
which blanks those are, and `Spacing.text` writes a value with them, so that what holds for any
blanks holds for both texts:

    v.pretty.toList = Spacing.airy.text 0 v                                    (toList_pretty)
    v.compact.toList = Spacing.tight.text depth v                              (toList_compact)
-/

namespace FreeBody.Json

open Text (Spaces)

/-- The blanks in front of an entry or a closing bracket so many levels in, and those behind a
colon. -/
structure Spacing where
  line : Nat → List Char
  colon : List Char
  spaces_line : ∀ depth, Spaces (line depth)
  spaces_colon : Spaces colon

namespace Spacing

/-- No blanks. -/
def tight : Spacing where
  line _ := []
  colon := []
  spaces_line _ := List.forall_mem_nil _
  spaces_colon := List.forall_mem_nil _

theorem spaces_newLine (depth : Nat) : Spaces (newLine depth).toList := by
  intro c hc
  simp only [newLine, String.toList_append, String.toList_ofList, List.mem_append] at hc
  rcases hc with hc | hc
  · rw [List.mem_singleton.1 hc]
    rfl
  · rw [List.eq_of_mem_replicate hc]
    rfl

/-- Lines of their own, and one blank behind a colon. -/
def airy : Spacing where
  line depth := (newLine depth).toList
  colon := [' ']
  spaces_line := spaces_newLine
  spaces_colon := List.forall_mem_singleton.2 rfl

variable (sp : Spacing)

/-- The entries behind the first one. -/
def following (depth : Nat) (entries : List (List Char)) : List Char :=
  entries.flatMap fun e => ',' :: (sp.line (depth + 1) ++ e)

/-- Entries between brackets that stand `depth` levels in. -/
def enclose (opening closing : Char) (depth : Nat) : List (List Char) → List Char
  | [] => [opening, closing]
  | first :: others =>
    opening :: (sp.line (depth + 1) ++ (first ++ (sp.following depth others ++
      (sp.line depth ++ [closing]))))

/-- The text of a member. -/
def member (name : String) (value : List Char) : List Char :=
  (stringText name).toList ++ ':' :: (sp.colon ++ value)

mutual

/-- The text of a value that stands `depth` levels in. -/
def text (depth : Nat) : Json → List Char
  | array items => sp.enclose '[' ']' depth (texts (depth + 1) items)
  | object members => sp.enclose '{' '}' depth (memberTexts (depth + 1) members)
  | v => v.compact.toList

/-- The texts of the items of an array. -/
def texts (depth : Nat) : List Json → List (List Char)
  | [] => []
  | v :: rest => text depth v :: texts depth rest

/-- The texts of the members of an object. -/
def memberTexts (depth : Nat) : List (String × Json) → List (List Char)
  | [] => []
  | (name, v) :: rest => sp.member name (text depth v) :: memberTexts depth rest

end

/-! ## The two texts -/

theorem toList_layOut {opening closing : String} {o c : Char} (ho : opening.toList = [o])
    (hc : closing.toList = [c]) (depth : Nat) (entries : List String) :
    (layOut opening closing depth entries).toList =
      airy.enclose o c depth (entries.map String.toList) := by
  cases entries with
  | nil => simp [layOut, enclose, ho, hc]
  | cons first others =>
    unfold layOut
    rw [if_neg (by simp)]
    simp [Text.intercalate_cons, enclose, following, airy, ho, hc]

theorem toList_bracketed {opening closing : String} {o c : Char} (ho : opening.toList = [o])
    (hc : closing.toList = [c]) (depth : Nat) (entries : List String) :
    (opening ++ String.intercalate "," entries ++ closing).toList =
      tight.enclose o c depth (entries.map String.toList) := by
  cases entries with
  | nil => simp [enclose, ho, hc]
  | cons first others => simp [Text.intercalate_cons, enclose, following, tight, ho, hc]

theorem toList_member_airy (name : String) (value : String) :
    (stringText name ++ ": " ++ value).toList = airy.member name value.toList := by
  simp [member, airy]

theorem toList_member_tight (name : String) (value : String) :
    (stringText name ++ ":" ++ value).toList = tight.member name value.toList := by
  simp [member, tight]

mutual

theorem toList_prettyAt (depth : Nat) : ∀ v : Json,
    (prettyAt depth v).toList = airy.text depth v
  | .array items => by
    rw [prettyAt, text, toList_layOut (o := '[') (c := ']') (by simp) (by simp),
      toList_prettyItems]
  | .object members => by
    rw [prettyAt, text, toList_layOut (o := '{') (c := '}') (by simp) (by simp),
      toList_prettyMembers]
  | .null | .bool _ | .number _ | .string _ => by rw [prettyAt, text] <;> simp

theorem toList_prettyItems (depth : Nat) : ∀ items : List Json,
    (prettyItems depth items).map String.toList = airy.texts depth items
  | [] => rfl
  | v :: items => by
    rw [prettyItems, texts, List.map_cons, toList_prettyAt, toList_prettyItems]

theorem toList_prettyMembers (depth : Nat) : ∀ members : List (String × Json),
    (prettyMembers depth members).map String.toList = airy.memberTexts depth members
  | [] => rfl
  | (name, v) :: members => by
    rw [prettyMembers, memberTexts, List.map_cons, toList_member_airy, toList_prettyAt,
      toList_prettyMembers]

end

mutual

theorem toList_compact (depth : Nat) : ∀ v : Json, v.compact.toList = tight.text depth v
  | .array items => by
    rw [compact, text, toList_bracketed (o := '[') (c := ']') (by simp) (by simp) depth,
      toList_compactItems]
  | .object members => by
    rw [compact, text, toList_bracketed (o := '{') (c := '}') (by simp) (by simp) depth,
      toList_compactMembers]
  | .null | .bool _ | .number _ | .string _ => by rw [text] <;> simp

theorem toList_compactItems (depth : Nat) : ∀ items : List Json,
    (compactItems items).map String.toList = tight.texts depth items
  | [] => rfl
  | v :: items => by
    rw [compactItems, texts, List.map_cons, toList_compact depth, toList_compactItems]

theorem toList_compactMembers (depth : Nat) : ∀ members : List (String × Json),
    (compactMembers members).map String.toList = tight.memberTexts depth members
  | [] => rfl
  | (name, v) :: members => by
    rw [compactMembers, memberTexts, List.map_cons, toList_member_tight, toList_compact depth,
      toList_compactMembers]

end

end Spacing

theorem toList_pretty (v : Json) : v.pretty.toList = Spacing.airy.text 0 v :=
  Spacing.toList_prettyAt 0 v

end FreeBody.Json
