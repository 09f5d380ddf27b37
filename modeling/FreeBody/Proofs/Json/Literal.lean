import FreeBody.Json.Literal
import FreeBody.Proofs.Json.Scan
import Mathlib.Order.Defs.LinearOrder
import Mathlib.Data.String.Basic

/-!
# Values that read back

A text holds no more of a value than it can be read for: a number that prints as itself, members
that are sorted by name, and no more levels than a reader opens (`Restorable`).  Such a value is
what its text is read as:

    parse? v.compact.toList = some v                                     (parse?_compact)
-/

namespace FreeBody.Json

/-- Whether the text of a number is read as that number. -/
def Number.Restored (n : Number) : Prop := draft n.text.toList = (.number (.value n), some [])

mutual

/-- Whether a value within `depth` more levels has a text that is read as the value. -/
def Restorable (depth : Nat) : Json → Prop
  | number n => n.Restored
  | array items => 0 < depth ∧ RestorableItems (depth - 1) items
  | object members =>
    0 < depth ∧ members.Pairwise (·.1 < ·.1) ∧ RestorableMembers (depth - 1) members
  | _ => True

/-- Whether the items of an array are restorable. -/
def RestorableItems (depth : Nat) : List Json → Prop
  | [] => True
  | v :: rest => Restorable depth v ∧ RestorableItems depth rest

/-- Whether the values of the members of an object are restorable. -/
def RestorableMembers (depth : Nat) : List (String × Json) → Prop
  | [] => True
  | (_, v) :: rest => Restorable depth v ∧ RestorableMembers depth rest

end

mutual

theorem Restorable.readable {depth : Nat} : ∀ {v : Json}, v.Restorable depth → v.Readable
  | .number _, h => .inl ⟨_, h⟩
  | .array _, h => RestorableItems.readable h.2
  | .object _, h => RestorableMembers.readable h.2.2
  | .null, _ | .bool _, _ | .string _, _ => trivial

theorem RestorableItems.readable {depth : Nat} :
    ∀ {items : List Json}, RestorableItems depth items → ReadableItems items
  | [], _ => trivial
  | _ :: _, h => ⟨h.1.readable, h.2.readable⟩

theorem RestorableMembers.readable {depth : Nat} :
    ∀ {members : List (String × Json)}, RestorableMembers depth members → ReadableMembers members
  | [], _ => trivial
  | _ :: _, h => ⟨h.1.readable, h.2.readable⟩

end

/-- A name beyond all others is put behind them. -/
theorem put_of_forall_lt {name : String} {v : Json} {sorted : List (String × Json)}
    (h : ∀ m ∈ sorted, m.1 < name) : put name v sorted = sorted ++ [(name, v)] := by
  induction sorted with
  | nil => rfl
  | cons m sorted ih =>
    rw [List.forall_mem_cons] at h
    obtain ⟨n, w⟩ := m
    rw [put, if_neg (lt_asymm h.1), if_neg h.1.ne', ih h.2]
    rfl

mutual

/-- The draft of a restorable value has that value. -/
theorem toValue?_drafted : ∀ {v : Json} {depth : Nat}, v.Restorable depth →
    v.drafted.toValue? depth = some v
  | .null, _, _ | .bool _, _, _ | .string _, _, _ => rfl
  | .number n, _, h => by
    have h : draft n.text.toList = _ := h
    rw [drafted, h]
    rfl
  | .array items, depth, ⟨hdepth, hitems⟩ => by
    rw [drafted, Draft.toValue?, if_neg hdepth.ne', toItems?_drafted hitems]
    rfl
  | .object members, depth, ⟨hdepth, hsorted, hmembers⟩ => by
    rw [drafted, Draft.toValue?, if_neg hdepth.ne', toMembers?_drafted [] hsorted hmembers]
    rfl

theorem toItems?_drafted : ∀ {items : List Json} {depth : Nat}, RestorableItems depth items →
    toItems? depth (draftedItems items) = some items
  | [], _, _ => rfl
  | v :: items, depth, ⟨hv, hitems⟩ => by
    rw [draftedItems, toItems?, toValue?_drafted hv, toItems?_drafted hitems]
    rfl

theorem toMembers?_drafted : ∀ {members : List (String × Json)} {depth : Nat}
    (sorted : List (String × Json)), (sorted ++ members).Pairwise (·.1 < ·.1) →
    RestorableMembers depth members →
    toMembers? depth sorted (draftedMembers members) = some (sorted ++ members)
  | [], _, sorted, _, _ => by
    rw [List.append_nil]
    rfl
  | (name, v) :: members, depth, sorted, hsorted, ⟨hv, hmembers⟩ => by
    have hlt : ∀ m ∈ sorted, m.1 < name := fun m hm =>
      (List.pairwise_append.1 hsorted).2.2 m hm (name, v) List.mem_cons_self
    rw [List.append_cons] at hsorted
    rw [draftedMembers, toMembers?, toValue?_drafted hv]
    simp only [put_of_forall_lt hlt, toMembers?_drafted _ hsorted hmembers, List.append_assoc,
      List.singleton_append]

end

theorem draft_compact (v : Json) (h : v.Readable) :
    draft v.compact.toList = (v.drafted, some []) := by
  rw [Spacing.toList_compact 0]
  exact draft_text _ v h 0

/-- **A restorable value is read back.** -/
theorem parse?_compact {v : Json} (h : v.Restorable maxDepth) :
    parse? v.compact.toList = some v := by
  rw [parse?, draft_compact v h.readable]
  exact toValue?_drafted h

end FreeBody.Json
