import FreeBody.Proofs.Json.Number

/-!
# Codecs that restore what they write

A codec restores a value if what it writes for it has readable numbers and its draft is read as
the value (`Restores`).  Then the stored text is loaded as the value (`Restores.load_eq`).  Texts,
truth values, words and numbers that read back are restored, and lists of what is restored.
-/

namespace FreeBody.Json

/-- Whether `c` reads what it writes for `a`. -/
structure Codec.Restores {α : Type} (c : Codec α) (a : α) : Prop where
  readable : (c.write a).Readable
  read_drafted : c.read (c.write a).drafted = .ok a

/-- A readable value that is not drafted as `null` is there. -/
theorem toOption_drafted {α : Type} (read : Draft → Except Fault α) {v : Json}
    (hread : v.Readable) (hnull : v.drafted ≠ .null) :
    Draft.toOption read v.drafted = some <$> read v.drafted := by
  cases v with
  | null => exact absurd rfl hnull
  | number n =>
    rcases hread with ⟨k, hk⟩ | htext
    · rw [drafted, hk]
      rfl
    · rw [drafted, htext] at hnull
      exact absurd rfl hnull
  | _ => rfl

namespace Codec

variable {α : Type} {c : Codec α}

/-- A stored value is loaded as what its draft is read as. -/
theorem load_store_eq {a : α} (h : (c.write a).Readable) :
    c.load (c.store a) = c.read (c.write a).drafted := by
  unfold load store readAll
  rw [draft_pretty (c.write a) h]
  cases hread : c.read (c.write a).drafted with
  | ok b =>
    simp only [hread]
    rfl
  | error fault => simp only [hread]

/-- **Loading undoes storing.** -/
theorem Restores.load_eq {a : α} (h : c.Restores a) : c.load (c.store a) = .ok a :=
  (load_store_eq h.readable).trans h.read_drafted

theorem restores_text (s : String) : text.Restores s := ⟨trivial, rfl⟩

theorem restores_flag (b : Bool) : flag.Restores b := ⟨trivial, rfl⟩

theorem restores_real {x : Float} (h : ReadsBack x) : real.Restores x := by
  obtain ⟨k, hdraft, hk⟩ := draft_realText h
  refine ⟨.inl ⟨k, hdraft⟩, ?_⟩
  show Draft.toReal (draft (realText x).toList).1 = .ok x
  rw [hdraft, ← hk]
  rfl

theorem restores_word {toWord : α → String} {ofWord? : String → Option α} {a : α}
    (h : ofWord? (toWord a) = some a) : (word toWord ofWord?).Restores a := by
  refine ⟨trivial, ?_⟩
  show Draft.toWord ofWord? (.string (.value (toWord a))) = .ok a
  simp only [Draft.toWord, h]

theorem restores_list {as : List α} (h : ∀ a ∈ as, c.Restores a) : c.list.Restores as := by
  have hitems : ReadableItems (as.map c.write) ∧
      (draftedItems (as.map c.write)).mapM c.read = .ok as := by
    induction as with
    | nil => exact ⟨trivial, rfl⟩
    | cons a as ih =>
      rw [List.forall_mem_cons] at h
      obtain ⟨hreadable, hread⟩ := ih h.2
      refine ⟨⟨h.1.readable, hreadable⟩, ?_⟩
      rw [List.map_cons, draftedItems, List.mapM_cons, h.1.read_drafted, hread]
      rfl
  refine ⟨hitems.1, ?_⟩
  show Draft.toList c.read (.array (draftedItems (as.map c.write)) none) = .ok as
  rw [Draft.toList, hitems.2]
  rfl

end Codec

end FreeBody.Json
