import FreeBody.Json.Record
import FreeBody.Proofs.Json.Codec

/-!
# Records that restore what they write

Of an object that was written for a record, the fields are collected just if each of them takes
what was written under its name (`Found.collect_eq_ok_iff`).  A description of fields restores a
part `a` of a record `r` if they do and `a` is made of what is collected (`Restores`).  The
conditions are kept when descriptions are put together (`Restores.seq`), so they are checked field
by field; a description of a whole record with different names for its fields is a codec that
restores the record (`Restores.codec`).
-/

namespace FreeBody.Json

/-- What is asked of the draft of a field. -/
def Field.Takes (f : Field) : Option Draft → Prop
  | some d => f.check d = .ok ()
  | none => f.optional = true

theorem Field.takes_of_iff {α : Type} (name : String) (optional : Bool)
    (read : Draft → Except Fault α) (d : Draft) :
    (Field.of name optional read).Takes (some d) ↔ ∃ a, read d = .ok a := by
  show (read d).map (fun _ => ()) = .ok () ↔ _
  cases read d with
  | ok a => exact ⟨fun _ => ⟨a, rfl⟩, fun _ => rfl⟩
  | error fault => exact ⟨nofun, nofun⟩

/-- Whether the fields found are those that were written. -/
def Found.Shows (found : Found) (written : List (String × Option Json)) : Prop :=
  ∀ p ∈ written, found.lookup p.1 = p.2.map Json.drafted

/-- The drafts of the fields that are present. -/
def Found.drafted (written : List (String × Option Json)) : Found :=
  written.filterMap fun p => p.2.map fun v => (p.1, v.drafted)

/-- Whether what is written for `r` stands under the names of the fields and can be scanned. -/
structure Record.Legible {ρ α : Type} (rec : Record ρ α) (r : ρ) : Prop where
  named : (rec.write r).map Prod.fst = rec.fields.map Field.name
  readable : ∀ p ∈ rec.write r, ∀ v ∈ p.2, v.Readable

/-- Whether `r` is written and read as `a`. -/
structure Record.Restores {ρ α : Type} (rec : Record ρ α) (r : ρ) (a : α) : Prop
    extends rec.Legible r where
  takes : ∀ found : Found, found.Shows (rec.write r) →
    ∀ f ∈ rec.fields, f.Takes (found.lookup f.name)
  read : ∀ found : Found, found.Shows (rec.write r) → rec.read found = .ok a

/-! ## Fields -/

namespace Record

variable {ρ α β : Type} {r : ρ}

theorem legible_pure (a : α) : (pure a : Record ρ α).Legible r := ⟨rfl, nofun⟩

theorem Legible.seq {f : Record ρ (α → β)} {x : Record ρ α} (hf : f.Legible r)
    (hx : x.Legible r) : (f <*> x).Legible r := by
  refine ⟨?_, List.forall_mem_append.2 ⟨hf.readable, hx.readable⟩⟩
  show (f.write r ++ x.write r).map Prod.fst = (f.fields ++ x.fields).map Field.name
  rw [List.map_append, List.map_append, hf.named, hx.named]

theorem restores_pure (a : α) : (pure a : Record ρ α).Restores r a :=
  ⟨legible_pure a, nofun, fun _ _ => rfl⟩

/-- Descriptions put together restore what their parts restore. -/
theorem Restores.seq {f : Record ρ (α → β)} {x : Record ρ α} {g : α → β} {a : α}
    (hf : f.Restores r g) (hx : x.Restores r a) : (f <*> x).Restores r (g a) := by
  refine ⟨hf.toLegible.seq hx.toLegible, fun found h => ?_, fun found h => ?_⟩
  all_goals obtain ⟨hwf, hwx⟩ := List.forall_mem_append.1 h
  · exact List.forall_mem_append.2 ⟨hf.takes found hwf, hx.takes found hwx⟩
  · show (do
      let g ← f.read found
      let x ← x.read found
      pure (g x)) = .ok (g a)
    rw [hf.read found hwf, hx.read found hwx]
    rfl

theorem Restores.map {x : Record ρ α} {a : α} (hx : x.Restores r a) (g : α → β) :
    (g <$> x).Restores r (g a) := (restores_pure g).seq hx

variable {name : String} {c : Codec α}

/-- A field that is written under its name. -/
theorem legible_field {f : Field} {write : ρ → Option Json} {read : Found → Except Fault α}
    (hv : ∀ v ∈ write r, v.Readable) :
    Record.Legible ⟨fun r => [(f.name, write r)], [f], read⟩ r :=
  ⟨rfl, List.forall_mem_singleton.2 hv⟩

theorem restores_required {get : ρ → α} (h : c.Restores (get r)) :
    (required name c get).Restores r (get r) := by
  refine ⟨legible_field (f := .of name false c.read) ?_,
    fun found hfound => List.forall_mem_singleton.2 ?_, fun found hfound => ?_⟩
  · exact fun v hv => Option.some.inj hv ▸ h.readable
  all_goals replace hfound := List.forall_mem_singleton.1 hfound
  · show Field.Takes _ (found.lookup name)
    rw [hfound]
    exact (Field.takes_of_iff name false c.read _).2 ⟨_, h.read_drafted⟩
  · show found.value name c.read = .ok (get r)
    rw [Found.value, hfound]
    exact h.read_drafted

/-- A field that may be left out: the value is restored if it is written, and is `default` if it
is not. -/
theorem restores_omissible {write : ρ → Option Json} {read : Draft → Except Fault α}
    {default a : α} (hthere : ∀ v, write r = some v → v.Readable ∧ read v.drafted = .ok a)
    (hmissing : write r = none → a = default) :
    Record.Restores ⟨fun r => [(name, write r)], [.of name true read],
      fun found => found.valueOr default name read⟩ r a := by
  refine ⟨legible_field (f := .of name true read) fun v hv => (hthere v hv).1,
    fun found hfound => List.forall_mem_singleton.2 ?_, fun found hfound => ?_⟩
  all_goals replace hfound := List.forall_mem_singleton.1 hfound
  · show Field.Takes _ (found.lookup name)
    rw [hfound]
    cases hwrite : write r with
    | none => rfl
    | some v => exact (Field.takes_of_iff name true read _).2 ⟨a, (hthere v hwrite).2⟩
  · show found.valueOr default name read = .ok a
    rw [Found.valueOr, hfound]
    cases hwrite : write r with
    | none => rw [hmissing hwrite]; rfl
    | some v => exact (hthere v hwrite).2

theorem restores_defaulted {get : ρ → α} {default : α} (h : c.Restores (get r)) :
    (defaulted name c default get).Restores r (get r) := by
  refine restores_omissible (fun v hv => ?_) (fun hv => by cases hv)
  obtain rfl := Option.some.inj hv
  exact ⟨h.readable, h.read_drafted⟩

/-- A value that may be left out must not be one that `null` is read as, which stands for none. -/
theorem restores_optional {get : ρ → Option α} (hnull : ∀ a, c.read .null ≠ .ok a)
    (h : ∀ a ∈ get r, c.Restores a) : (optional name c get).Restores r (get r) := by
  refine restores_omissible (fun v hv => ?_) Option.map_eq_none_iff.1
  obtain ⟨a, hget, rfl⟩ := Option.map_eq_some_iff.1 hv
  have ha := h a hget
  have hdrafted : (c.write a).drafted ≠ .null := fun h => hnull a (h ▸ ha.read_drafted)
  refine ⟨ha.readable, ?_⟩
  rw [toOption_drafted c.read ha.readable hdrafted, ha.read_drafted, hget]
  rfl

theorem restores_listed {get : ρ → List α} (h : ∀ a ∈ get r, c.Restores a) :
    (listed name c get).Restores r (get r) := by
  refine restores_omissible (fun v hv => ?_) (fun hv => ?_)
  · split at hv
    · cases hv
    · obtain rfl := Option.some.inj hv
      have hlist := Codec.restores_list h
      exact ⟨hlist.readable, hlist.read_drafted⟩
  · split at hv
    next hempty => exact List.isEmpty_iff.1 hempty
    next => cases hv

end Record

/-! ## Collecting -/

theorem draftedMembers_present (written : List (String × Option Json)) :
    draftedMembers (written.filterMap fun p => p.2.map fun v => (p.1, v)) =
      (Found.drafted written).map fun p => (.value p.1, p.2) := by
  induction written with
  | nil => rfl
  | cons p written ih =>
    obtain ⟨name, v⟩ := p
    cases v with
    | none => exact ih
    | some v => exact congrArg _ ih

namespace Found

theorem lookup_eq_none {name : String} {found : Found} (h : name ∉ found.map Prod.fst) :
    found.lookup name = none := by
  rw [List.lookup_eq_none_iff]
  intro p hp
  rw [bne_iff_ne]
  rintro rfl
  exact h (List.mem_map_of_mem hp)

theorem lookup_eq_some_iff {found : Found} (hnodup : (found.map Prod.fst).Nodup)
    {name : String} {d : Draft} : found.lookup name = some d ↔ (name, d) ∈ found := by
  induction found with
  | nil => exact ⟨nofun, nofun⟩
  | cons p found ih =>
    obtain ⟨first, e⟩ := p
    rw [List.map_cons, List.nodup_cons] at hnodup
    rw [List.lookup_cons, List.mem_cons, Prod.mk.injEq, ← ih hnodup.2]
    by_cases h : name = first
    · subst h
      simp [lookup_eq_none hnodup.1, eq_comm]
    · rw [beq_false_of_ne h, or_iff_right (not_and_of_not_left _ h)]

theorem names_drafted (written : List (String × Option Json)) :
    ((drafted written).map Prod.fst).Sublist (written.map Prod.fst) := by
  induction written with
  | nil => exact List.Sublist.refl _
  | cons p written ih =>
    obtain ⟨name, v⟩ := p
    cases v with
    | none => exact ih.cons name
    | some v => exact ih.cons_cons name

/-- A field whose name no other has is found as it was written. -/
theorem lookup_drafted {written : List (String × Option Json)}
    (hnodup : (written.map Prod.fst).Nodup) :
    ∀ p ∈ written, (drafted written).lookup p.1 = p.2.map Json.drafted := by
  induction written with
  | nil => exact fun p hp => absurd hp List.not_mem_nil
  | cons q written ih =>
    obtain ⟨name, v⟩ := q
    rw [List.map_cons, List.nodup_cons] at hnodup
    intro p hp
    rcases List.mem_cons.1 hp with rfl | hmem
    · cases v with
      | none => exact lookup_eq_none fun h => hnodup.1 ((names_drafted written).subset h)
      | some v => exact List.lookup_cons_self
    · have hne : p.1 ≠ name := by
        rintro rfl
        exact hnodup.1 (List.mem_map.2 ⟨p, hmem, rfl⟩)
      cases v with
      | none => exact ih hnodup.2 p hmem
      | some v =>
        show List.lookup p.1 ((name, v.drafted) :: drafted written) = _
        rw [List.lookup_cons, beq_false_of_ne hne]
        exact ih hnodup.2 p hmem

theorem find?_name {fields : List Field} (hnodup : (fields.map Field.name).Nodup) {f : Field}
    (hf : f ∈ fields) : fields.find? (fun g => g.name == f.name) = some f := by
  induction fields with
  | nil => cases hf
  | cons g fields ih =>
    rw [List.map_cons, List.nodup_cons] at hnodup
    rcases List.mem_cons.1 hf with rfl | hf
    · exact List.find?_cons_of_pos (beq_self_eq_true f.name)
    · have hne : g.name ≠ f.name := fun h => hnodup.1 (h ▸ List.mem_map_of_mem hf)
      rw [List.find?_cons_of_neg (by simpa using hne), ih hnodup.2 hf]

theorem complete_eq_ok_iff {fields : List Field} {found out : Found} :
    complete fields found = .ok out ↔
      (∀ f ∈ fields, f.optional = true ∨ (found.lookup f.name).isSome = true) ∧ out = found := by
  simp only [complete, List.all_eq_true, Bool.or_eq_true]
  split
  next h => rw [and_iff_right h, Except.ok.injEq, eq_comm]
  next h => exact ⟨nofun, fun hout => absurd hout.1 h⟩

/-- Members that are fields, each name once, are all taken in if their values pass. -/
theorem ofMembers_eq_ok_iff {fields : List Field} (hfields : (fields.map Field.name).Nodup)
    {members found out : Found} (hnodup : ((found ++ members).map Prod.fst).Nodup)
    (h : ∀ p ∈ members, p.1 ∈ fields.map Field.name) :
    ofMembers fields found none (members.map fun p => (.value p.1, p.2)) = .ok out ↔
      (∀ f ∈ fields, ∀ d, (f.name, d) ∈ members → f.check d = .ok ()) ∧
        complete fields (found ++ members) = .ok out := by
  induction members generalizing found with
  | nil =>
    rw [List.append_nil, and_iff_right (fun _ _ _ hmem => absurd hmem List.not_mem_nil)]
    rfl
  | cons p members ih =>
    obtain ⟨name, d⟩ := p
    rw [List.forall_mem_cons] at h
    obtain ⟨f, hf, rfl⟩ := List.mem_map.1 h.1
    have hnew : found.lookup f.name = none := by
      apply lookup_eq_none
      rw [List.map_append, List.nodup_append] at hnodup
      exact fun hmem => hnodup.2.2 _ hmem _ List.mem_cons_self rfl
    rw [List.append_cons] at hnodup ⊢
    rw [List.map_cons, ofMembers, find?_name hfields hf]
    simp only [hnew, Option.isSome_none, Bool.false_eq_true, if_false]
    cases hcheck : f.check d with
    | error fault =>
      refine ⟨nofun, fun hall => ?_⟩
      rw [hall.1 f hf d List.mem_cons_self] at hcheck
      cases hcheck
    | ok _ =>
      refine (ih hnodup h.2).trans (and_congr_left' ⟨fun hall g hg e hmem => ?_,
        fun hall g hg e hmem => hall g hg e (List.mem_cons_of_mem _ hmem)⟩)
      rcases List.mem_cons.1 hmem with heq | hmem
      · obtain ⟨hname, rfl⟩ := Prod.mk.inj heq
        have hgf := (find?_name hfields hg).symm.trans (hname ▸ find?_name hfields hf)
        rw [Option.some.inj hgf]
        exact hcheck
      · exact hall g hg e hmem

end Found

theorem Field.takes_iff {f : Field} {d : Option Draft} :
    f.Takes d ↔ (∀ e, d = some e → f.check e = .ok ()) ∧ (f.optional = true ∨ d.isSome = true) := by
  cases d <;> simp [Field.Takes]

/-- **What was written is collected again, just if each field takes what it finds.** -/
theorem Found.collect_eq_ok_iff {fields : List Field} {written : List (String × Option Json)}
    {out : Found} (hnamed : written.map Prod.fst = fields.map Field.name)
    (hnodup : (fields.map Field.name).Nodup) :
    collect fields (Json.ofFields written).drafted = .ok out ↔
      (∀ f ∈ fields, f.Takes ((drafted written).lookup f.name)) ∧ out = drafted written := by
  have hdrafted : ((drafted written).map Prod.fst).Nodup :=
    (hnamed ▸ hnodup).sublist (names_drafted written)
  have hmembers : ∀ p ∈ drafted written, p.1 ∈ fields.map Field.name := fun p hp =>
    hnamed ▸ (names_drafted written).subset (List.mem_map_of_mem hp)
  show ofMembers fields [] none (draftedMembers _) = _ ↔ _
  rw [draftedMembers_present, ofMembers_eq_ok_iff hnodup hdrafted hmembers, List.nil_append,
    complete_eq_ok_iff, ← and_assoc]
  refine and_congr_left' ?_
  simp only [Field.takes_iff, lookup_eq_some_iff hdrafted]
  exact ⟨fun h f hf => ⟨h.1 f hf, h.2 f hf⟩, fun h => ⟨fun f hf => (h f hf).1,
    fun f hf => (h f hf).2⟩⟩

namespace Record

variable {α : Type} {rec : Record α α} {a : α}

theorem Legible.readable_codec (h : rec.Legible a) : (rec.codec.write a).Readable := by
  show ReadableMembers ((rec.write a).filterMap fun p => p.2.map fun v => (p.1, v))
  have hreadable := h.readable
  generalize rec.write a = written at hreadable
  induction written with
  | nil => trivial
  | cons p written ih =>
    rw [List.forall_mem_cons] at hreadable
    obtain ⟨name, v⟩ := p
    cases v with
    | none => exact ih hreadable.2
    | some v => exact ⟨hreadable.1 v rfl, ih hreadable.2⟩

theorem Legible.shows (h : rec.Legible a) (hnodup : (rec.fields.map Field.name).Nodup) :
    (Found.drafted (rec.write a)).Shows (rec.write a) :=
  Found.lookup_drafted (h.named ▸ hnodup)

/-- **A record is restored by the codec that its description makes.** -/
theorem Restores.codec (h : rec.Restores a a) (hnodup : (rec.fields.map Field.name).Nodup) :
    rec.codec.Restores a := by
  have hshows := h.toLegible.shows hnodup
  refine ⟨h.toLegible.readable_codec, ?_⟩
  show (do
    let found ← Found.collect rec.fields (Json.ofFields (rec.write a)).drafted
    rec.read found) = .ok a
  rw [(Found.collect_eq_ok_iff h.named hnodup).2 ⟨h.takes _ hshows, rfl⟩]
  exact h.read _ hshows

/-- No record is read from `null`. -/
theorem codec_read_null_ne (rec : Record α α) (a : α) : rec.codec.read .null ≠ .ok a := nofun

end Record

end FreeBody.Json
