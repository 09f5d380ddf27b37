import FreeBody.Proofs.Compact.Plain
import FreeBody.Proofs.Composition.Names
import FreeBody.Proofs.Inline.Numbering

/-!
# Names in a text with diagrams

The diagrams of one text can stand on one page: no two elements in them have the same id, and what
an element refers to is in its own picture (`extract_ids_distinct`).  Every id in the picture with
the number `n` is made from one of two names with that number, from which the number is read off
again.
-/

namespace FreeBody.Inline

open Markup (Extends NamesUnder ids references)
open Preset (PlainAs)

/-- What the names of diagrams in prose begin with. -/
def nameStarts : List String := ["inline-fbd-", "inline-combo-"]

/-- Whether the names in a picture are made from the number `n`. -/
def IsNumbered (n : Nat) (picture : String) : Prop :=
  ∃ start ∈ nameStarts, NamesUnder (start.toList ++ Decimal.digits n) picture.toList

theorem isId_name {start : String} (h : start ∈ nameStarts) (n : Nat) :
    IsId (start ++ toString n) := by
  have hstarts : ∀ s ∈ nameStarts, IsId s := by decide
  exact (hstarts start h).append (isId_toString n)

theorem toList_name (start : String) (n : Nat) :
    (start ++ toString n).toList = start.toList ++ Decimal.digits n := by
  rw [String.toList_append, Decimal.toList_toString]

/-- A name of one kind is none of the other, and the number of a name is read off. -/
theorem eq_of_extends_names {start start' : String} (h : start ∈ nameStarts)
    (h' : start' ∈ nameStarts) {n m : Nat} {x : List Char}
    (hn : Extends (start.toList ++ Decimal.digits n) x)
    (hm : Extends (start'.toList ++ Decimal.digits m) x) : n = m := by
  have hkinds : ∀ s ∈ nameStarts, ∀ t ∈ nameStarts, s ≠ t → s.toList.take 8 ≠ t.toList.take 8 := by
    decide
  have hlength : ∀ s ∈ nameStarts, 8 ≤ s.toList.length := by decide
  by_cases hstart : start = start'
  · subst hstart
    exact Markup.eq_of_extends hn hm
  · have htake := Markup.take_eq_of_extends hn hm (k := 8)
      (List.length_append ▸ Nat.le_add_right_of_le (hlength start h))
      (List.length_append ▸ Nat.le_add_right_of_le (hlength start' h'))
    rw [List.take_append_of_le_length (hlength start h),
      List.take_append_of_le_length (hlength start' h')] at htake
    exact absurd htake (hkinds start h start' h' hstart)

/-- Pictures with different numbers have no names in common. -/
theorem ids_disjoint {n m : Nat} {picture picture' : String} (hp : IsNumbered n picture)
    (hp' : IsNumbered m picture') (hne : n ≠ m) :
    (ids picture.toList).Disjoint (ids picture'.toList) := by
  obtain ⟨start, hstart, hnames⟩ := hp
  obtain ⟨start', hstart', hnames'⟩ := hp'
  intro x hx hx'
  exact hne (eq_of_extends_names hstart hstart' (hnames.under x hx) (hnames'.under x hx'))

section

variable {r : Inline} (hr : r.registry.Makes PlainAs)

include hr

/-- The picture of a span bears its number. -/
theorem exists_numbered_of_readSpan {inner : List Char} {n : Nat} {d : Option Diagram}
    (h : r.readSpan inner n = .ok d) :
    ∃ picture, d.bind Diagram.markup = some picture ∧ IsNumbered n picture := by
  rcases readSpan_eq_ok_iff.1 h with ⟨c, -, rfl⟩ | ⟨-, p, hp, rfl⟩
  · have hstart : "inline-combo-" ∈ nameStarts := by decide
    obtain ⟨picture, hpicture, -, hnames⟩ :=
      Composition.compose_namesUnder hr r.spacing c (isId_name hstart n)
    rw [toList_name] at hnames
    exact ⟨picture, hpicture, "inline-combo-", hstart, hnames⟩
  · have hstart : "inline-fbd-" ∈ nameStarts := by decide
    obtain ⟨hid, hplain⟩ := Compact.plainAs_of_read hr hp
    obtain ⟨picture, hpicture, hnames⟩ :=
      Drawing.exists_picture_of_plain hplain (hid ▸ isId_name hstart n)
    rw [hid, toList_name] at hnames
    exact ⟨picture, hpicture, "inline-fbd-", hstart, hnames⟩

/-- The pictures of a text are numbered in order. -/
theorem exists_numbered_of_resolve {index k : Nat} {ps : List Piece} {d : Option Diagram}
    (h : ((resolve r index ps).filterMap Resolved.diagram?)[k]? = some d) :
    ∃ picture, d.bind Diagram.markup = some picture ∧ IsNumbered (index + k) picture := by
  induction ps generalizing index k with
  | nil => cases h
  | cons p rest ih =>
    cases p with
    | prose text => exact ih h
    | span inner =>
      rw [resolve] at h
      split at h
      next found hfound =>
        cases k with
        | zero =>
          obtain rfl := Option.some.inj h
          exact exists_numbered_of_readSpan hr hfound
        | succ k =>
          obtain ⟨picture, hpicture, hnumber⟩ := ih (k := k) h
          rw [Nat.add_right_comm] at hnumber
          exact ⟨picture, hpicture, hnumber⟩
      next => exact ih h

/-- There is a picture of each diagram of a text, and it is numbered. -/
theorem exists_numbered_of_extract (text : String) :
    ∃ pictures : List String,
      (r.extract text).diagrams.map (fun d => d.bind Diagram.markup) = pictures.map some ∧
        ∀ (k : Nat) (picture : String), pictures[k]? = some picture → IsNumbered k picture := by
  have hnumbered (k : Nat) (d : Option Diagram) (hd : (r.extract text).diagrams[k]? = some d) :
      ∃ picture, d.bind Diagram.markup = some picture ∧ IsNumbered (0 + k) picture :=
    exists_numbered_of_resolve hr hd
  have hsome : ∀ d ∈ (r.extract text).diagrams, (d.bind Diagram.markup).isSome = true := by
    intro d hd
    obtain ⟨k, hk⟩ := List.mem_iff_getElem?.1 hd
    obtain ⟨picture, hpicture, -⟩ := hnumbered k d hk
    exact Option.isSome_of_eq_some hpicture
  obtain ⟨pictures, hpictures⟩ := Option.isSome_iff_exists.1 (Composition.isSome_mapM_iff.2 hsome)
  have hmap := Composition.mapM_eq_some_iff.1 hpictures
  refine ⟨pictures, hmap, fun k picture hk => ?_⟩
  have hat := congrArg (·[k]?) hmap
  simp only [List.getElem?_map, hk, Option.map_some] at hat
  obtain ⟨d, hd, hpicture⟩ := Option.map_eq_some_iff.1 hat
  obtain ⟨picture', hpicture', hnumber⟩ := hnumbered k d hd
  obtain rfl := Option.some.inj (hpicture.symm.trans hpicture')
  rwa [Nat.zero_add] at hnumber

end

/-- **The diagrams of a text have no ids in common.**  Each diagram has a picture; all ids in the
pictures are distinct, and the names that the attributes of a picture refer to are ids in it. -/
theorem extract_ids_distinct (spacing : Composition.Spacing Float) (text : String) :
    let diagrams := ((⟨.builtin, spacing⟩ : Inline).extract text).diagrams
    ∃ pictures : List String,
      diagrams.map (fun d => d.bind Diagram.markup) = pictures.map some ∧
        (pictures.flatMap fun picture => ids picture.toList).Nodup ∧
        ∀ picture ∈ pictures, ∀ x ∈ references picture.toList, x ∈ ids picture.toList := by
  intro diagrams
  obtain ⟨pictures, hpictures, hnumbered⟩ :=
    exists_numbered_of_extract (r := ⟨.builtin, spacing⟩) Registry.builtin_plain text
  have hnames : ∀ picture ∈ pictures, ∃ base, NamesUnder base picture.toList := fun picture hp => by
    obtain ⟨k, hk⟩ := List.mem_iff_getElem?.1 hp
    obtain ⟨start, -, hunder⟩ := hnumbered k picture hk
    exact ⟨_, hunder⟩
  refine ⟨pictures, hpictures, List.nodup_flatMap.2 ⟨fun picture hp => ?_, ?_⟩,
    fun picture hp => ?_⟩
  · obtain ⟨base, hunder⟩ := hnames picture hp
    exact hunder.distinct
  · rw [List.pairwise_iff_getElem]
    intro i j hi hj hlt
    exact ids_disjoint (hnumbered i _ (List.getElem?_eq_getElem hi))
      (hnumbered j _ (List.getElem?_eq_getElem hj)) (Nat.ne_of_lt hlt)
  · obtain ⟨base, hunder⟩ := hnames picture hp
    exact hunder.closed

end FreeBody.Inline
