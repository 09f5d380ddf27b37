import FreeBody.Proofs.Decimal.Digits
import FreeBody.Proofs.Markup.Reading

/-!
# Names in markup

The ids of the elements of a text, and the names that its attributes refer to, each as they are
read (`ids`, `references`).  What trees name and refer to is read off their tags and put together
part by part (`NodesRead`).  Names may be made by adding to others, and a number in a name is then
read off all that were made from it (`eq_of_extends`).
-/

namespace FreeBody.Markup

open Decimal (digits isDigit isDigit_of_mem_digits value_digits)

/-! ## Readings -/

/-- The values of the attributes called `id`. -/
def idValues (as : List (List Char × List Char)) : List (List Char) :=
  as.filterMap fun a => if a.1 = "id".toList then some a.2 else none

/-- The ids of the elements of a text. -/
def ids (s : List Char) : List (List Char) := idValues (allAttributes s)

/-- The names behind each `url(#` of a value, up to the bracket that closes it. -/
def valueReferences : List Char → List (List Char)
  | [] => []
  | c :: rest =>
    if "url(#".toList.isPrefixOf (c :: rest) then
      ((c :: rest).drop 5).takeWhile (· != ')') :: valueReferences rest
    else valueReferences rest

/-- The names that the attributes of a text refer to. -/
def references (s : List Char) : List (List Char) :=
  (allAttributes s).flatMap fun a => valueReferences a.2

theorem valueReferences_of_not_mem {v : List Char} (h : '#' ∉ v) : valueReferences v = [] := by
  induction v with
  | nil => rfl
  | cons c v ih =>
    rw [List.mem_cons, not_or] at h
    have hprefix : ¬ "url(#".toList.isPrefixOf (c :: v) = true := by
      rw [List.isPrefixOf_iff_prefix]
      rintro hp
      have hmem : '#' ∈ c :: v := hp.subset (by decide)
      rcases List.mem_cons.1 hmem with hc | hv
      · exact h.1 hc
      · exact h.2 hv
    rw [valueReferences, if_neg hprefix, ih h.2]

/-- A reference to one name. -/
theorem valueReferences_url {name : List Char} (hhash : '#' ∉ name) (hparen : ')' ∉ name) :
    valueReferences ("url(#".toList ++ name ++ [')']) = [name] := by
  have hstop : Text.Stops (· != ')') [')'] := Text.stops_cons_iff.2 (by decide)
  have hname : (name ++ [')']).takeWhile (· != ')') = name := by
    refine Text.takeWhile_append_of_stops (fun c hc => ?_) hstop
    rw [bne_iff_ne]
    rintro rfl
    exact hparen hc
  have hrest : valueReferences (name ++ [')']) = [] :=
    valueReferences_of_not_mem (by simpa using hhash)
  have htext : "url(#".toList ++ name ++ [')'] =
      'u' :: 'r' :: 'l' :: '(' :: '#' :: (name ++ [')']) := by simp
  rw [htext]
  simp [valueReferences, hname, hrest]

/-! ## Escaped values -/

theorem mem_escapeValue {c : Char} {v : String} (h : c ∈ (escapeValue v).toList) :
    c ∈ v.toList ∨ ∃ d ∈ v.toList, ∃ e, valueEntity? d = some e ∧ c ∈ e := by
  rw [toList_escapeValue] at h
  obtain ⟨d, hd, hc⟩ := List.mem_flatMap.1 h
  cases hentity : valueEntity? d with
  | none =>
    rw [hentity, Option.getD_none, List.mem_singleton] at hc
    exact .inl (hc ▸ hd)
  | some e =>
    rw [hentity, Option.getD_some] at hc
    exact .inr ⟨d, hd, e, hentity, hc⟩

/-- Only the entity of a single quote has a `#`. -/
theorem eq_quote_of_hash_mem {d : Char} {e : List Char} (h : valueEntity? d = some e)
    (he : '#' ∈ e) : d = '\'' := by
  unfold valueEntity? at h
  split at h
  · obtain rfl := Option.some.inj h
    exact absurd he (by decide)
  · rfl
  · unfold textEntity? at h
    split at h
    · obtain rfl := Option.some.inj h
      exact absurd he (by decide)
    · obtain rfl := Option.some.inj h
      exact absurd he (by decide)
    · obtain rfl := Option.some.inj h
      exact absurd he (by decide)
    · cases h

/-! ## What attributes name and refer to -/

/-- The attributes `as` have the ids `named`, refer to nothing but `known`, and stay each on its
line. -/
structure Reads (named known : List (List Char)) (as : List (List Char × List Char)) : Prop where
  ids : idValues as = named
  references : ∀ a ∈ as, ∀ x ∈ valueReferences a.2, x ∈ known
  unbroken : ∀ a ∈ as, '\n' ∉ a.2

namespace Reads

variable {named named' known known' : List (List Char)} {as bs : List (List Char × List Char)}

theorem nil : Reads [] known [] := ⟨rfl, nofun, nofun⟩

theorem append (ha : Reads named known as) (hb : Reads named' known bs) :
    Reads (named ++ named') known (as ++ bs) := by
  refine ⟨?_, fun a h => ?_, fun a h => ?_⟩
  · rw [idValues, List.filterMap_append, ← idValues, ← idValues, ha.ids, hb.ids]
  · rcases List.mem_append.1 h with h | h
    · exact ha.references a h
    · exact hb.references a h
  · rcases List.mem_append.1 h with h | h
    · exact ha.unbroken a h
    · exact hb.unbroken a h

theorem mono (h : Reads named known as) (hsub : known ⊆ known') : Reads named known' as :=
  ⟨h.ids, fun a ha x hx => hsub (h.references a ha x hx), h.unbroken⟩

end Reads

/-! ## Families of names -/

/-- A name made of another and an ending that does not go on in digits. -/
def Extends (base x : List Char) : Prop := ∃ ending, x = base ++ ending ∧ Text.Stops isDigit ending

/-- A number in a name is read off its extensions. -/
theorem eq_of_extends {base x : List Char} {n m : Nat} (hn : Extends (base ++ digits n) x)
    (hm : Extends (base ++ digits m) x) : n = m := by
  obtain ⟨ending, rfl, hending⟩ := hn
  obtain ⟨ending', heq, hending'⟩ := hm
  have hrest : digits n ++ ending = digits m ++ ending' := by
    rwa [List.append_assoc, List.append_assoc, List.append_cancel_left_eq] at heq
  have hdigits := congrArg (List.takeWhile isDigit) hrest
  rw [Text.takeWhile_append_of_stops (fun c hc => isDigit_of_mem_digits hc) hending,
    Text.takeWhile_append_of_stops (fun c hc => isDigit_of_mem_digits hc) hending'] at hdigits
  rw [← value_digits n, hdigits, value_digits]

theorem Extends.refl (base : List Char) : Extends base base :=
  ⟨[], (List.append_nil base).symm, Text.stops_nil isDigit⟩

/-- Names that one name extends begin alike. -/
theorem take_eq_of_extends {base base' x : List Char} {k : Nat} (h : Extends base x)
    (h' : Extends base' x) (hk : k ≤ base.length) (hk' : k ≤ base'.length) :
    base.take k = base'.take k := by
  obtain ⟨ending, rfl, -⟩ := h
  obtain ⟨ending', heq, -⟩ := h'
  have htake := congrArg (List.take k) heq
  rwa [List.take_append_of_le_length hk, List.take_append_of_le_length hk'] at htake

/-- The ids in a text are distinct extensions of `base`, and it refers to no other names. -/
structure NamesUnder (base s : List Char) : Prop where
  distinct : (ids s).Nodup
  closed : ∀ x ∈ references s, x ∈ ids s
  under : ∀ x ∈ ids s, Extends base x

theorem Reads.namesUnder {named known : List (List Char)} {base s : List Char}
    (h : Reads named known (allAttributes s)) (hsub : known ⊆ named) (hdistinct : named.Nodup)
    (hunder : ∀ x ∈ named, Extends base x) : NamesUnder base s := by
  have hids : Markup.ids s = named := h.ids
  refine ⟨hids ▸ hdistinct, fun x hx => ?_, hids ▸ hunder⟩
  obtain ⟨a, ha, hx⟩ := List.mem_flatMap.1 hx
  rw [hids]
  exact hsub (h.references a ha x hx)

/-! ## Trees -/

/-- A tree of which the lines have the ids `named` and refer to nothing but `known`. -/
structure Node.Reads (named known : List (List Char)) (n : Node) : Prop where
  reads : Markup.Reads named known n.attributes
  unbroken : n.Unbroken

theorem Node.Reads.mono {named known known' : List (List Char)} {n : Node}
    (h : n.Reads named known) (hsub : known ⊆ known') : n.Reads named known' :=
  ⟨h.reads.mono hsub, h.unbroken⟩

/-- Trees of which the lines have the ids `named` and refer to nothing but `known`. -/
structure NodesRead (named known : List (List Char)) (ns : List Node) : Prop where
  reads : Reads named known (nodesAttributes ns)
  unbroken : NodesUnbroken ns

namespace NodesRead

variable {named named' known known' : List (List Char)} {ns ms : List Node}

theorem nil : NodesRead [] known [] := ⟨Reads.nil, trivial⟩

theorem cons {n : Node} (hn : n.Reads named known) (hns : NodesRead named' known ns) :
    NodesRead (named ++ named') known (n :: ns) :=
  ⟨hn.reads.append hns.reads, hn.unbroken, hns.unbroken⟩

theorem singleton {n : Node} (hn : n.Reads named known) : NodesRead named known [n] := by
  have := cons hn nil
  rwa [List.append_nil] at this

theorem append (hns : NodesRead named known ns) (hms : NodesRead named' known ms) :
    NodesRead (named ++ named') known (ns ++ ms) :=
  ⟨nodesAttributes_append ns ms ▸ hns.reads.append hms.reads,
    nodesUnbroken_append.2 ⟨hns.unbroken, hms.unbroken⟩⟩

theorem mono (h : NodesRead named known ns) (hsub : known ⊆ known') : NodesRead named known' ns :=
  ⟨h.reads.mono hsub, h.unbroken⟩

end NodesRead

section

variable {named named' known : List (List Char)}

/-- A group has the ids of its tag and those of its children. -/
theorem Node.reads_group {tag : Tag} {children : List Node}
    (htag : Markup.Reads named known tag.pairs) (h : NodesRead named' known children) :
    (Node.group tag children).Reads (named ++ named') known :=
  ⟨htag.append h.reads, h.unbroken⟩

/-- Finished markup is read as it is. -/
theorem Node.reads_verbatim {fits : List Char → Prop} {markup : String}
    (hcontent : Content fits markup.toList)
    (h : Markup.Reads named known (allAttributes markup.toList)) :
    (Node.verbatim markup).Reads named known :=
  ⟨h, hcontent.tags_unbroken h.unbroken⟩

end

/-- An attribute that refers to nothing but `known` and stays on its line. -/
def Tame (known : List (List Char)) (a : String × String) : Prop :=
  (∀ x ∈ valueReferences (escapeValue a.2).toList, x ∈ known) ∧
    '\n' ∉ (escapeValue a.2).toList

/-- Shifts in text name nothing and refer to nothing. -/
theorem shiftAttributes_quiet : ∀ a ∈ shiftAttributes,
    a.1 ≠ "id".toList ∧ valueReferences a.2 = [] ∧ '\n' ∉ a.2 := by decide

theorem idValues_eq_nil {as : List (List Char × List Char)}
    (h : ∀ a ∈ as, a.1 ≠ "id".toList) : idValues as = [] := by
  rw [idValues, List.filterMap_eq_nil_iff]
  intro a ha
  exact if_neg (h a ha)

section

variable {known : List (List Char)} {P : String × String → Prop} {as : List (List Char × List Char)}

theorem reads_of_readOf (h : ∀ a ∈ as, ReadOf P a) (hP : ∀ b, P b → Tame known b) :
    Reads (idValues as) known as := by
  refine ⟨rfl, fun a ha => ?_, fun a ha => ?_⟩
  · rcases h a ha with ⟨b, hb, rfl⟩ | hshift
    · exact (hP b hb).1
    · rw [(shiftAttributes_quiet a hshift).2.1]
      exact nofun
  · rcases h a ha with ⟨b, hb, rfl⟩ | hshift
    · exact (hP b hb).2
    · exact (shiftAttributes_quiet a hshift).2.2

theorem idValues_of_readOf (h : ∀ a ∈ as, ReadOf P a) (hP : ∀ b, P b → b.1 ≠ "id") :
    idValues as = [] := by
  refine idValues_eq_nil fun a ha => ?_
  rcases h a ha with ⟨b, hb, rfl⟩ | hshift
  · exact fun heq => hP b hb (String.toList_inj.1 heq)
  · exact (shiftAttributes_quiet a hshift).1

variable (hP : ∀ b, P b → Tame known b)

include hP

theorem Tag.reads {t : Tag} (h : ∀ a ∈ t.attributes, P a) :
    Reads (idValues t.pairs) known t.pairs :=
  reads_of_readOf (Tag.readOf_of_mem_pairs h) hP

theorem Node.All.reads {n : Node} (h : n.All P) : n.Reads (idValues n.attributes) known :=
  ⟨reads_of_readOf h.readOf.2 hP, h.readOf.1⟩

/-- A tree without ids. -/
theorem Node.All.reads_nameless {n : Node} (h : n.All P) (hid : ∀ b, P b → b.1 ≠ "id") :
    n.Reads [] known := by
  have hreads := h.reads hP
  rwa [idValues_of_readOf h.readOf.2 hid] at hreads

/-- Trees without ids. -/
theorem NodesAll.read_nameless {ns : List Node} (h : NodesAll P ns) (hid : ∀ b, P b → b.1 ≠ "id") :
    NodesRead [] known ns := by
  have hreads := reads_of_readOf h.readOf.2 hP
  rw [idValues_of_readOf h.readOf.2 hid] at hreads
  exact ⟨hreads, h.readOf.1⟩

end

end FreeBody.Markup
