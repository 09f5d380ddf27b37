import FreeBody.Proofs.Json.Real
import FreeBody.Proofs.Json.Record

/-!
# When a stored value is loaded

A double that is not finite is written as `null`, which no number is read from, so what is stored
is not always loaded.  A codec loads what it stores for `a` just if `P` (`Codec.LoadsIff`): always
for texts, truth values and words, for finite doubles, and for a list if it is so for its items.
For a record it is the conjunction of what its fields ask for (`Record.LoadsIff`), field by field
as for `Record.Restores`.
-/

namespace FreeBody.Json

/-! ## Doubles that are not finite -/

theorem realText_of_not_isFinite {x : Float} (h : ¬x.isFinite = true) : realText x = "null" := by
  rw [Decimal.isFinite_iff] at h
  unfold realText
  split
  next negative exponent hx => exact absurd ⟨negative, 0, exponent, hx⟩ h
  next negative mantissa exponent _ hx => exact absurd ⟨negative, mantissa, exponent, hx⟩ h
  next => rfl

theorem drafted_real_of_not_isFinite {x : Float} (h : ¬x.isFinite = true) :
    (Json.number (.real x)).drafted = .null := by
  rw [drafted, Number.text, realText_of_not_isFinite h]
  rfl

theorem readable_real (x : Float) : (Number.real x).Readable := by
  by_cases h : x.isFinite = true
  · exact .inl (draft_realText_of_isFinite h)
  · exact .inr (realText_of_not_isFinite h)

/-! ## Codecs -/

theorem not_exists_ok {α : Type} {fault : Fault} :
    ¬∃ a : α, (.error fault : Except Fault α) = .ok a := by
  rintro ⟨_, h⟩
  cases h

/-- Whether what is stored for `a` is scanned whole, and loaded just if `P`. -/
structure Codec.LoadsIff {α : Type} (c : Codec α) (a : α) (P : Prop) : Prop where
  readable : (c.write a).Readable
  read_iff : (∃ b, c.read (c.write a).drafted = .ok b) ↔ P

namespace Codec

variable {α : Type} {c : Codec α} {a : α} {P Q : Prop}

theorem LoadsIff.load_iff (h : c.LoadsIff a P) : (∃ b, c.load (c.store a) = .ok b) ↔ P := by
  rw [load_store_eq h.readable]
  exact h.read_iff

theorem LoadsIff.congr (h : c.LoadsIff a P) (hiff : P ↔ Q) : c.LoadsIff a Q :=
  ⟨h.readable, h.read_iff.trans hiff⟩

theorem Restores.loadsIff (h : c.Restores a) : c.LoadsIff a True :=
  ⟨h.readable, iff_true_intro ⟨a, h.read_drafted⟩⟩

theorem loadsIff_real (x : Float) : real.LoadsIff x (x.isFinite = true) := by
  refine ⟨readable_real x, ⟨fun ⟨y, hy⟩ => ?_, fun h => ?_⟩⟩
  · by_contra h
    have hread : Draft.toReal (Json.number (.real x)).drafted = .ok y := hy
    rw [drafted_real_of_not_isFinite h] at hread
    cases hread
  · obtain ⟨k, hk⟩ := draft_realText_of_isFinite h
    refine ⟨k.toFloat, ?_⟩
    show Draft.toReal (draft (realText x).toList).1 = _
    rw [hk]
    rfl

theorem loadsIff_list {as : List α} {Q : α → Prop} (h : ∀ a ∈ as, c.LoadsIff a (Q a)) :
    c.list.LoadsIff as (∀ a ∈ as, Q a) := by
  have hitems : ReadableItems (as.map c.write) ∧
      ((∃ bs, (draftedItems (as.map c.write)).mapM c.read = .ok bs) ↔ ∀ a ∈ as, Q a) := by
    induction as with
    | nil => exact ⟨trivial, iff_of_true ⟨[], rfl⟩ (List.forall_mem_nil _)⟩
    | cons a as ih =>
      rw [List.forall_mem_cons] at h
      obtain ⟨hreadable, hread⟩ := ih h.2
      refine ⟨⟨h.1.readable, hreadable⟩, ?_⟩
      rw [List.map_cons, draftedItems, List.mapM_cons, List.forall_mem_cons, ← h.1.read_iff,
        ← hread]
      cases c.read (c.write a).drafted with
      | error fault => exact iff_of_false not_exists_ok fun h => not_exists_ok h.1
      | ok b =>
        cases (draftedItems (as.map c.write)).mapM c.read with
        | error fault => exact iff_of_false not_exists_ok fun h => not_exists_ok h.2
        | ok bs => exact iff_of_true ⟨b :: bs, rfl⟩ ⟨⟨b, rfl⟩, ⟨bs, rfl⟩⟩
  refine ⟨hitems.1, Iff.trans ?_ hitems.2⟩
  show (∃ bs, Draft.toList c.read (.array (draftedItems (as.map c.write)) none) = .ok bs) ↔ _
  rw [Draft.toList]
  cases (draftedItems (as.map c.write)).mapM c.read with
  | error fault => exact iff_of_false not_exists_ok not_exists_ok
  | ok bs => exact iff_of_true ⟨bs, rfl⟩ ⟨bs, rfl⟩

/-- Whether what is written for an optional value is scanned whole, and read just if `P`. -/
structure OptionLoadsIff (c : Codec α) (a : α) (P : Prop) : Prop where
  readable : (c.write a).Readable
  read_iff : (∃ b, Draft.toOption c.read (c.write a).drafted = .ok b) ↔ P

theorem LoadsIff.option (h : c.LoadsIff a P) (hnull : (c.write a).drafted ≠ .null) :
    c.OptionLoadsIff a P := by
  refine ⟨h.readable, Iff.trans ?_ h.read_iff⟩
  rw [toOption_drafted c.read h.readable hnull]
  cases c.read (c.write a).drafted with
  | error fault => exact iff_of_false not_exists_ok not_exists_ok
  | ok b => exact iff_of_true ⟨some b, rfl⟩ ⟨b, rfl⟩

/-- An optional double that is not finite is loaded as none. -/
theorem optionLoadsIff_real (x : Float) : real.OptionLoadsIff x True := by
  refine ⟨readable_real x, iff_true_intro ?_⟩
  show ∃ b, Draft.toOption Draft.toReal (Json.number (.real x)).drafted = .ok b
  by_cases h : x.isFinite = true
  · obtain ⟨k, hk⟩ := draft_realText_of_isFinite h
    refine ⟨some k.toFloat, ?_⟩
    rw [drafted, Number.text, hk]
    rfl
  · rw [drafted_real_of_not_isFinite h]
    exact ⟨none, rfl⟩

end Codec

/-! ## Records -/

/-- Whether what is written for `r` can be scanned, and is taken in and read just if `P`. -/
structure Record.LoadsIff {ρ α : Type} (rec : Record ρ α) (r : ρ) (P : Prop) : Prop
    extends rec.Legible r where
  takes_iff : ∀ found : Found, found.Shows (rec.write r) →
    ((∀ f ∈ rec.fields, f.Takes (found.lookup f.name)) ↔ P)
  read : P → ∀ found : Found, found.Shows (rec.write r) → ∃ a, rec.read found = .ok a

namespace Record

variable {ρ α β : Type} {r : ρ} {P Q : Prop}

theorem LoadsIff.seq {f : Record ρ (α → β)} {x : Record ρ α} (hf : f.LoadsIff r P)
    (hx : x.LoadsIff r Q) : (f <*> x).LoadsIff r (P ∧ Q) := by
  refine ⟨hf.toLegible.seq hx.toLegible, fun found h => ?_, fun hPQ found h => ?_⟩
  all_goals obtain ⟨hwf, hwx⟩ := List.forall_mem_append.1 h
  · rw [← hf.takes_iff found hwf, ← hx.takes_iff found hwx]
    exact List.forall_mem_append
  · obtain ⟨g, hg⟩ := hf.read hPQ.1 found hwf
    obtain ⟨a, ha⟩ := hx.read hPQ.2 found hwx
    refine ⟨g a, ?_⟩
    show (do
      let g ← f.read found
      let x ← x.read found
      pure (g x)) = .ok (g a)
    rw [hg, ha]
    rfl

theorem loadsIff_pure (a : α) : (pure a : Record ρ α).LoadsIff r True :=
  ⟨legible_pure a, fun _ _ => iff_true_intro nofun, fun _ _ _ => ⟨a, rfl⟩⟩

theorem LoadsIff.map {x : Record ρ α} (hx : x.LoadsIff r P) (g : α → β) :
    (g <$> x).LoadsIff r (True ∧ P) := (loadsIff_pure g).seq hx

variable {name : String} {c : Codec α}

theorem loadsIff_required {get : ρ → α} (h : c.LoadsIff (get r) P) :
    (required name c get).LoadsIff r P := by
  refine ⟨legible_field (f := .of name false c.read) ?_, fun found hfound => ?_,
    fun hP found hfound => ?_⟩
  · exact fun v hv => Option.some.inj hv ▸ h.readable
  all_goals replace hfound := List.forall_mem_singleton.1 hfound
  · rw [← h.read_iff, ← Field.takes_of_iff name false]
    refine List.forall_mem_singleton.trans ?_
    show Field.Takes _ (found.lookup name) ↔ _
    rw [hfound]
    rfl
  · show ∃ a, found.value name c.read = .ok a
    rw [Found.value, hfound]
    exact h.read_iff.2 hP

/-- A field that may be left out: what is asked for is asked of the value that is written. -/
theorem loadsIff_omissible {write : ρ → Option Json} {read : Draft → Except Fault α} {default : α}
    (hthere : ∀ v, write r = some v → v.Readable ∧ ((∃ a, read v.drafted = .ok a) ↔ P))
    (hmissing : write r = none → P) :
    Record.LoadsIff ⟨fun r => [(name, write r)], [.of name true read],
      fun found => found.valueOr default name read⟩ r P := by
  refine ⟨legible_field (f := .of name true read) fun v hv => (hthere v hv).1,
    fun found hfound => List.forall_mem_singleton.trans ?_, fun hP found hfound => ?_⟩
  all_goals replace hfound := List.forall_mem_singleton.1 hfound
  · show Field.Takes _ (found.lookup name) ↔ P
    rw [hfound]
    cases hwrite : write r with
    | none => exact iff_of_true rfl (hmissing hwrite)
    | some v => exact (Field.takes_of_iff name true read _).trans (hthere v hwrite).2
  · show ∃ a, found.valueOr default name read = .ok a
    rw [Found.valueOr, hfound]
    cases hwrite : write r with
    | none => exact ⟨default, rfl⟩
    | some v => exact (hthere v hwrite).2.2 hP

theorem loadsIff_defaulted {get : ρ → α} {default : α} (h : c.LoadsIff (get r) P) :
    (defaulted name c default get).LoadsIff r P := by
  refine loadsIff_omissible (fun v hv => ?_) (fun hv => by cases hv)
  obtain rfl := Option.some.inj hv
  exact ⟨h.readable, h.read_iff⟩

theorem loadsIff_optional {get : ρ → Option α} {Q : α → Prop}
    (h : ∀ a ∈ get r, c.OptionLoadsIff a (Q a)) :
    (optional name c get).LoadsIff r (∀ a ∈ get r, Q a) := by
  refine loadsIff_omissible (fun v hv => ?_) (fun hv => ?_)
  · obtain ⟨a, hget, rfl⟩ := Option.map_eq_some_iff.1 hv
    have ha := h a hget
    refine ⟨ha.readable, ha.read_iff.trans ?_⟩
    rw [hget]
    exact ⟨fun hQ b hb => Option.some.inj hb ▸ hQ, fun hQ => hQ a rfl⟩
  · rw [Option.map_eq_none_iff.1 hv]
    exact nofun

theorem loadsIff_listed {get : ρ → List α} {Q : α → Prop} (h : ∀ a ∈ get r, c.LoadsIff a (Q a)) :
    (listed name c get).LoadsIff r (∀ a ∈ get r, Q a) := by
  refine loadsIff_omissible (fun v hv => ?_) (fun hv => ?_)
  · split at hv
    · cases hv
    · obtain rfl := Option.some.inj hv
      have hlist := Codec.loadsIff_list h
      exact ⟨hlist.readable, hlist.read_iff⟩
  · split at hv
    next hempty =>
      rw [List.isEmpty_iff.1 hempty]
      exact nofun
    next => cases hv

/-- The codec of a record loads what it stores just if the fields do. -/
theorem LoadsIff.codec {rec : Record α α} {a : α} (h : rec.LoadsIff a P)
    (hnodup : (rec.fields.map Field.name).Nodup) : rec.codec.LoadsIff a P := by
  have hshows := h.toLegible.shows hnodup
  have hcollect : ∀ out, Found.collect rec.fields (Json.ofFields (rec.write a)).drafted = .ok out ↔
      P ∧ out = Found.drafted (rec.write a) := fun out => by
    rw [Found.collect_eq_ok_iff h.named hnodup, h.takes_iff _ hshows]
  refine ⟨h.toLegible.readable_codec, ?_⟩
  show (∃ b, (do
    let found ← Found.collect rec.fields (Json.ofFields (rec.write a)).drafted
    rec.read found) = .ok b) ↔ P
  constructor
  · rintro ⟨b, hb⟩
    cases hfound : Found.collect rec.fields (Json.ofFields (rec.write a)).drafted with
    | error fault =>
      rw [hfound] at hb
      cases hb
    | ok found => exact ((hcollect found).1 hfound).1
  · intro hP
    rw [(hcollect _).2 ⟨hP, rfl⟩]
    exact h.read hP _ hshows

end Record

end FreeBody.Json
