import FreeBody.Proofs.Composition.Language
import FreeBody.Proofs.Composition.Nesting

/-!
# Every entry of a composition is accounted for

An entry is either placed or set aside, by what its own preset does and nothing else
(`Accounts`).  In a grid the cell of an entry is that of its slot, counted from zero by rows,
whether or not the entries before it have diagrams (`InCell`):

    (compose r s id c).Accounts r id c.entries ∧ …                          (compose_accounts)
-/

namespace FreeBody

open Text (Spaces)
open FreeBody.Composition

/-- What a composition tells of the entries that it was made from. -/
structure Composed.Accounts (made : Composed) (r : Registry) (id : String)
    (entries : List Entry) : Prop where
  placed_rising : (made.placements.map (·.index)).Pairwise (· < ·)
  skipped_rising : (made.skipped.map (·.index)).Pairwise (· < ·)
  disjoint : ∀ p ∈ made.placements, ∀ q ∈ made.skipped, p.index ≠ q.index
  complete : ∀ i, i < entries.length ↔
    (∃ p ∈ made.placements, p.index = i) ∨ ∃ q ∈ made.skipped, q.index = i
  /-- An entry is placed if its preset makes a diagram. -/
  placed_iff : ∀ i e, entries[i]? = some e → ((∃ p ∈ made.placements, p.index = i) ↔
    ∃ d, r.generate? e.preset (childId id i) e.args = some (.ok d))
  preset : ∀ p ∈ made.placements, ∃ e, entries[p.index]? = some e ∧ p.preset = e.preset
  /-- An entry that is set aside has an unknown preset, or one that fails as it is told. -/
  reason : ∀ q ∈ made.skipped, ∃ e, entries[q.index]? = some e ∧ q.preset = e.preset ∧
    ((r.get? e.preset = none ∧ q.reason = .unknownPreset) ∨
      ∃ g err, r.get? e.preset = some g ∧ (g (childId id q.index) e.args).result = .error err ∧
        q.reason = .generator err)

/-- Whether a diagram stands in the cell of its entry, in a grid of `columns` columns. -/
structure Placement.InCell (p : Placement) (s : Spacing Float) (columns : Nat) : Prop where
  column : p.place.column = p.index % columns
  row : p.place.row = p.index / columns
  x : p.place.x = Float.ofNat (p.index % columns) * (s.gridCell.width + s.gap) + 50
  y : p.place.y = Float.ofNat (p.index / columns) * (s.gridCell.height + s.gap) + 50

namespace Composition

/-! ## Places -/

section

variable {α : Type} [Quantity α]

theorem length_rowPlaces (gap x : α) (sized : List (Nat × Size α)) :
    (rowPlaces gap x sized).length = sized.length := by
  induction sized generalizing x with
  | nil => rfl
  | cons c sized ih => rw [rowPlaces, List.length_cons, List.length_cons, ih]

theorem length_stackPlaces (gap y : α) (sized : List (Nat × Size α)) :
    (stackPlaces gap y sized).length = sized.length := by
  induction sized generalizing y with
  | nil => rfl
  | cons c sized ih => rw [stackPlaces, List.length_cons, List.length_cons, ih]

theorem length_columnPlaces (s : Spacing α) (x : α) (column : Nat)
    (sized : List (Nat × Size α)) : (columnPlaces s x column sized).length = sized.length := by
  induction sized generalizing x column with
  | nil => rfl
  | cons c sized ih => rw [columnPlaces, List.length_cons, List.length_cons, ih]

/-- There is a place for each diagram. -/
theorem length_places (s : Spacing α) (layout : Layout) (sized : List (Nat × Size α)) :
    (places s layout sized).length = sized.length := by
  cases layout with
  | series => exact length_rowPlaces _ _ sized
  | parallel => exact length_stackPlaces _ _ sized
  | grid columns => exact List.length_map _
  | comparison title => exact length_columnPlaces s _ _ sized

end

section

variable (r : Registry) (s : Spacing Float) (id : String) (c : Combination)

theorem map_fst_placedChildren :
    (placedChildren r s id c).map Prod.fst = children r id 0 c.entries := by
  apply List.map_fst_zip
  rw [length_places, List.length_map]

theorem index_placements :
    (compose r s id c).placements.map (·.index) =
      (children r id 0 c.entries).map (·.index) := by
  rw [placements_compose, List.map_map, ← map_fst_placedChildren r s id c, List.map_map]
  rfl

/-- What is placed are the children. -/
theorem exists_placement_iff {i : Nat} :
    (∃ p ∈ (compose r s id c).placements, p.index = i) ↔
      ∃ m ∈ children r id 0 c.entries, m.index = i := by
  have h := congrArg (i ∈ ·) (index_placements r s id c)
  simpa only [List.mem_map] using iff_of_eq h

/-- An entry is placed if its preset makes a diagram. -/
theorem placed_iff {i : Nat} {e : Entry} (he : c.entries[i]? = some e) :
    (∃ p ∈ (compose r s id c).placements, p.index = i) ↔
      ∃ d, r.generate? e.preset (childId id i) e.args = some (.ok d) := by
  rw [exists_placement_iff]
  simp only [← runEntry_eq_ok_iff]
  constructor
  · rintro ⟨m, hm, rfl⟩
    obtain ⟨hentry, hrun⟩ := mem_children_iff.1 hm
    obtain rfl := Option.some.inj (he.symm.trans hentry)
    exact ⟨m.diagram, hrun⟩
  · rintro ⟨d, hrun⟩
    exact ⟨⟨i, e, d⟩, mem_children_iff.2 ⟨he, hrun⟩, rfl⟩

theorem set_aside_iff {i : Nat} {e : Entry} (he : c.entries[i]? = some e) :
    (∃ q ∈ (compose r s id c).skipped, q.index = i) ↔
      ∃ reason, runEntry r id i e = .error reason := by
  constructor
  · rintro ⟨q, hq, rfl⟩
    obtain ⟨e', hentry, -, hrun⟩ := mem_skipped_iff.1 hq
    obtain rfl := Option.some.inj (he.symm.trans hentry)
    exact ⟨q.reason, hrun⟩
  · rintro ⟨reason, hrun⟩
    exact ⟨⟨i, e.preset, reason⟩, mem_skipped_iff.2 ⟨e, he, rfl, hrun⟩, rfl⟩

theorem accounts_compose : (compose r s id c).Accounts r id c.entries where
  placed_rising := by
    rw [index_placements, List.pairwise_map]
    exact children_rising r id 0 c.entries
  skipped_rising := List.pairwise_map.2 (skipped_rising r id 0 c.entries)
  disjoint := by
    intro p hp q hq heq
    obtain ⟨e, hentry, -, hrun⟩ := mem_skipped_iff.1 hq
    obtain ⟨d, hd⟩ := (placed_iff r s id c hentry).1 ⟨p, hp, heq⟩
    rw [← runEntry_eq_ok_iff, hrun] at hd
    cases hd
  complete := by
    intro i
    cases he : c.entries[i]? with
    | none =>
      refine iff_of_false (by simpa using he) ?_
      rw [exists_placement_iff]
      rintro (⟨m, hm, rfl⟩ | ⟨q, hq, rfl⟩)
      · rw [(mem_children_iff.1 hm).1] at he
        cases he
      · obtain ⟨e, hentry, -⟩ := mem_skipped_iff.1 hq
        rw [hentry] at he
        cases he
    | some e =>
      refine iff_of_true (List.getElem?_eq_some_iff.1 he).1 ?_
      rw [placed_iff r s id c he, set_aside_iff r s id c he]
      simp only [← runEntry_eq_ok_iff]
      cases runEntry r id i e with
      | ok d => exact Or.inl ⟨d, rfl⟩
      | error reason => exact Or.inr ⟨reason, rfl⟩
  placed_iff := fun _ _ he => placed_iff r s id c he
  preset := by
    intro p hp
    rw [placements_compose] at hp
    obtain ⟨cp, hcp, rfl⟩ := List.mem_map.1 hp
    exact ⟨cp.1.entry, (entry_of_mem_placedChildren hcp).1, rfl⟩
  reason := by
    intro q hq
    obtain ⟨e, hentry, hpreset, hrun⟩ := mem_skipped_iff.1 hq
    refine ⟨e, hentry, hpreset, ?_⟩
    rcases runEntry_eq_error_iff.1 hrun with h | ⟨err, hgenerate, hreason⟩
    · exact Or.inl h
    · obtain ⟨g, hg, hresult⟩ := Option.map_eq_some_iff.1 hgenerate
      exact Or.inr ⟨g, err, hg, hresult, hreason⟩

/-! ## Cells -/

/-- In a grid the place of a diagram depends on the number of its entry alone. -/
theorem placedChildren_grid {columns : Nat} (hc : c.layout = .grid columns) :
    placedChildren r s id c = (children r id 0 c.entries).map fun m =>
      (m, gridPlace s (gridColumns columns) m.index m.size) := by
  unfold placedChildren
  simp only [hc, places, List.map_map]
  -- the places are a map of the children themselves, so nothing can get out of step
  generalize children r id 0 c.entries = made
  have hzip : (made.map fun m => m).zip
      (made.map fun m => gridPlace s (gridColumns columns) m.index m.size) =
        made.map fun m => (m, gridPlace s (gridColumns columns) m.index m.size) := List.zip_map'
  rwa [List.map_id'] at hzip

theorem inCell_of_grid {columns : Nat} (hc : c.layout = .grid columns) :
    ∀ p ∈ (compose r s id c).placements, p.InCell s (max columns 1) := by
  intro p hp
  rw [placements_compose, placedChildren_grid r s id c hc, List.map_map] at hp
  obtain ⟨m, -, rfl⟩ := List.mem_map.1 hp
  exact ⟨rfl, rfl, rfl, rfl⟩

theorem columnCount_eq {ds : List Char} (h : Decimal.value ds < 2 ^ 64) :
    columnCount ds = max (Decimal.value ds) 1 := by
  have hword : Decimal.value ds ≤ Decimal.maxWord := Nat.le_sub_one_of_lt h
  rw [columnCount]
  exact if_pos hword

end

/-- **Every entry is accounted for, and the cells of a grid are its slots.**  The last part is
about the combinations that a text with a grid tag writes: their entries are asked for by the
slots, in order, and stand in the cells with the numbers of those. -/
theorem compose_accounts (r : Registry) (s : Spacing Float) (id : String) (c : Combination) :
    (compose r s id c).Accounts r id c.entries ∧
    ∀ blanks tag ds body : List Char, Spaces blanks → IsGridTag ds tag →
      Decimal.value ds < 2 ^ 64 → readCombination (blanks ++ (tag ++ body)) = .ok c →
        List.Forall₂ (Asks false) (slotTexts .nothing body) c.entries ∧
        ∀ p ∈ (compose r s id c).placements, p.InCell s (max (Decimal.value ds) 1) := by
  refine ⟨accounts_compose r s id c, ?_⟩
  intro blanks tag ds body hblanks htag hds hread
  obtain ⟨hlayout, hentries⟩ := (readCombination_heads hblanks (.grid htag)).1 hread
  refine ⟨hentries, ?_⟩
  have hcell := inCell_of_grid r s id c hlayout
  rwa [columnCount_eq hds, max_eq_left (Nat.le_max_right _ 1)] at hcell

/-- The entry behind one that nothing answers for keeps its cell. -/
theorem compose_accounts_gap : ∃ c, readCombination "GRID:2:lost,hanging".toList = .ok c ∧
    (∃ q ∈ (compose .builtin .usual "g" c).skipped, q.index = 0 ∧ q.reason = .unknownPreset) ∧
    ∃ p ∈ (compose .builtin .usual "g" c).placements, p.index = 1 ∧ p.InCell .usual 2 := by
  have htag : IsGridTag ['2'] "GRID:2:".toList :=
    @IsGridTag.mk ['2'] "GRID:".toList [] [] rfl (List.forall_mem_nil _) (by decide) (by decide)
      (List.forall_mem_nil _)
  have hslots : List.Forall₂ (Asks false) (slotTexts .nothing "lost,hanging".toList)
      [{ preset := "lost" }, { preset := "hanging" }] := by
    have hbare : ∀ name : List Char, name ≠ [] → (∀ c ∈ name, isMark c = false) →
        Segment.IsWritten (.bare name) name := fun _ hne h => .bare hne (isBare_of_forall h)
    exact .cons ⟨.one (.bare "lost".toList), .one (hbare _ (by decide) (by decide)), rfl⟩
      (.cons ⟨.one (.bare "hanging".toList), .one (hbare _ (by decide) (by decide)), rfl⟩ .nil)
  have hread : readCombination "GRID:2:lost,hanging".toList =
      .ok ⟨.grid 2, [{ preset := "lost" }, { preset := "hanging" }]⟩ :=
    (readCombination_heads (List.forall_mem_nil _) (.grid htag)).2 ⟨rfl, hslots⟩
  obtain ⟨haccounts, hgrid⟩ := compose_accounts .builtin .usual "g"
    ⟨.grid 2, [{ preset := "lost" }, { preset := "hanging" }]⟩
  refine ⟨_, hread, ?_, ?_⟩
  · obtain ⟨p, hp, hp0⟩ | ⟨q, hq, hq0⟩ := (haccounts.complete 0).1 (by decide)
    · obtain ⟨d, hd⟩ := (haccounts.placed_iff 0 _ rfl).1 ⟨p, hp, hp0⟩
      cases hd
    · obtain ⟨e, he, -, ⟨-, hreason⟩ | ⟨g, -, hg, -⟩⟩ := haccounts.reason q hq
      · exact ⟨q, hq, hq0, hreason⟩
      · rw [hq0] at he
        obtain rfl := Option.some.inj he
        cases hg
  · obtain ⟨p, hp, hp1⟩ := (haccounts.placed_iff 1 _ rfl).2 ⟨_, rfl⟩
    have hcells := (hgrid [] "GRID:2:".toList ['2'] "lost,hanging".toList
      (List.forall_mem_nil _) htag (by decide) hread).2
    exact ⟨p, hp, hp1, hcells p hp⟩

end Composition

end FreeBody
