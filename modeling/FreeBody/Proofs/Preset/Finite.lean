import FreeBody.Proofs.Decimal.Arithmetic
import FreeBody.Proofs.Diagram.Storage
import FreeBody.Proofs.Preset.Printed
import FreeBody.Proofs.Preset.Steady

/-!
# Presets with finite numbers

An argument that is read from a text gives a finite number or none
(`Argument.givesFinite_of_readAll`).  The generators compute with it no more than a shifted angle
and the ends of a beam, which stay finite, so the built-in presets and the fallback figures make
diagrams of finite numbers (`Registry.builtin_keepsFinite`, `Preset.fallback_finite`).
-/

namespace FreeBody

open Text (isSpace skipSpaces)

/-! ## Arguments -/

namespace Json

/-- What is scanned from a bracket or a brace is no number. -/
theorem draft_ne_number {c : Char} (hc : c = '[' ∨ c = '\x7b') (rest : List Char)
    (n : Scalar Number) : (draft (c :: rest)).1 ≠ .number n := by
  rcases hc with rfl | rfl
  · have hskip : skipSpaces ('[' :: rest) = '[' :: rest := rfl
    rw [draft, scan, hskip]
    intro h
    cases h
  · have hskip : skipSpaces ('\x7b' :: rest) = '\x7b' :: rest := rfl
    rw [draft, scan, hskip]
    simp only
    split <;> intro h <;> cases h

theorem toValue?_ne_number {d : Draft} (h : ∀ n, d ≠ .number n) (depth : Nat) (n : Number) :
    d.toValue? depth ≠ some (.number n) := by
  intro hd
  unfold Draft.toValue? at hd
  split at hd
  case h_3 k => exact h _ rfl
  case h_5 =>
    split at hd
    · cases hd
    · obtain ⟨_, -, hv⟩ := Option.map_eq_some_iff.1 hd
      cases hv
  case h_6 =>
    split at hd
    · cases hd
    · obtain ⟨_, -, hv⟩ := Option.map_eq_some_iff.1 hd
      cases hv
  all_goals cases hd

/-- What is read from a bracket or a brace on is no number. -/
theorem parse?_ne_number {c : Char} (hc : c = '[' ∨ c = '\x7b') (rest : List Char) (n : Number) :
    parse? (c :: rest) ≠ some (.number n) := by
  have hdraft := draft_ne_number hc rest
  unfold parse?
  split
  next d after hd =>
    rw [hd] at hdraft
    split
    · exact toValue?_ne_number hdraft maxDepth n
    · exact nofun
  next => exact nofun

end Json

namespace Argument

/-- Whether the number that an argument gives is finite, if it gives one. -/
def GivesFinite (a : Argument) : Prop := ∀ x ∈ a.toFloat?, x.isFinite = true

theorem isFinite_of_finite? {s : List Char} {x : Float} (h : finite? s = some x) :
    x.isFinite = true := (Option.filter_eq_some_iff.1 h).2

theorem literal?_ne_number {s : List Char} {v : Json} (h : literal? s = some v)
    (n : Json.Number) : v ≠ .number n := by
  rintro rfl
  unfold literal? at h
  split at h
  next hbetween =>
    obtain ⟨c, rest, rfl, hc⟩ : ∃ c rest, s = c :: rest ∧ (c = '[' ∨ c = '\x7b') := by
      cases s with
      | nil => cases hbetween
      | cons c rest =>
        refine ⟨c, rest, rfl, ?_⟩
        simp only [isBetween, List.head?_cons, Bool.or_eq_true, Bool.and_eq_true, beq_iff_eq,
          Option.some.injEq] at hbetween
        exact hbetween.imp And.left And.left
    have hreplace : Text.replaceChar '\'' ['"'] (c :: rest) =
        c :: Text.replaceChar '\'' ['"'] rest := by
      rcases hc with rfl | rfl <;> rfl
    rw [hreplace] at h
    exact Json.parse?_ne_number hc _ n h
  next => cases h

theorem givesFinite_read (s : List Char) : (read s).GivesFinite := by
  intro x hx
  rcases read_cases s with ⟨b, -, hr⟩ | ⟨y, hy, hr⟩ | ⟨v, hv, hr⟩ | ⟨t, hr⟩ <;> rw [hr] at hx
  · cases hx
  · obtain rfl := Option.some.inj hx
    exact isFinite_of_finite? hy
  · cases v with
    | number n => exact absurd rfl (literal?_ne_number hv n)
    | _ => cases hx
  · exact isFinite_of_finite? hx

theorem exists_read_of_mem_ofPieces {pieces : List (List Char)} {a : Argument}
    (h : a ∈ ofPieces pieces) : ∃ s, a = read s := by
  induction pieces with
  | nil => cases h
  | cons piece others ih =>
    cases others with
    | nil =>
      rw [ofPieces] at h
      split at h
      · cases h
      · exact ⟨_, List.mem_singleton.1 h⟩
    | cons other others =>
      rw [ofPieces] at h
      · rcases List.mem_cons.1 h with rfl | h
        · exact ⟨_, rfl⟩
        · exact ih h
      · exact nofun

/-- The arguments that are read from a text give finite numbers. -/
theorem givesFinite_of_readAll {s : List Char} {a : Argument} (h : a ∈ readAll s) :
    a.GivesFinite := by
  obtain ⟨t, rfl⟩ := exists_read_of_mem_ofPieces h
  exact givesFinite_read t

end Argument

/-! ## Figures -/

/-- Whether all numbers in a diagram are finite. -/
def Diagram.Finite (d : Diagram) : Prop := ∀ x ∈ d.numbers, x.isFinite = true

namespace Preset

variable {id : String} {args : List Argument} {d : Diagram}

theorem isFinite_of_numberAt {index : Nat} {default x : Float}
    (hargs : ∀ a ∈ args, a.GivesFinite) (hdefault : default.isFinite = true)
    (h : numberAt args index default = .ok x) : x.isFinite = true := by
  unfold numberAt at h
  split at h
  next => exact Except.ok.inj h ▸ hdefault
  next a ha =>
    split at h
    next y hy =>
      obtain rfl := Except.ok.inj h
      exact hargs a (List.mem_of_getElem? ha) _ hy
    next => cases h

theorem isFinite_lenientAt {index : Nat} {default : Float}
    (hargs : ∀ a ∈ args, a.GivesFinite) (hdefault : default.isFinite = true) :
    (lenientAt args index default).isFinite = true := by
  unfold lenientAt
  cases h : (args[index]?.bind Argument.toFloat?).filter (· != 0) with
  | none => exact hdefault
  | some x =>
    obtain ⟨a, ha, hx⟩ := Option.bind_eq_some_iff.1 (Option.filter_eq_some_iff.1 h).1
    exact hargs a (List.mem_of_getElem? ha) x hx

/-! ## Figures -/

/-- The picture of a finished diagram has no say in its numbers. -/
theorem finish_finite {b : Builder} (h : b.diagram.Finite) (hgrid : b.diagram.GridEnds {}) :
    (b.finish hgrid).Finite := h

theorem blockFigure_finite {angle : Float} (h : angle.isFinite = true) :
    (blockFigure id angle).diagram.Finite := by
  show ∀ x ∈ [600, 400, 300, 200, 80, 270, 70, angle, 300, 200, 60, 40], x.isFinite = true
  simp only [List.forall_mem_cons, h]
  decide

theorem addFriction_finite {magnitude angle : Float} (hm : magnitude.isFinite = true)
    (ha : angle.isFinite = true) : (addFriction magnitude (blockFigure id angle)).diagram.Finite := by
  show ∀ x ∈ [600, 400, 300, 200, 80, 270, 70, angle, magnitude, 180, 300, 200, 60, 40],
    x.isFinite = true
  simp only [List.forall_mem_cons, hm, ha]
  decide

theorem hangingFigure_finite : (hangingFigure id).diagram.Finite := by
  show ∀ x ∈ ([400, 500, 200, 250, 100, 90, 100, 270, 200, 250, 30] : List Float),
    x.isFinite = true
  decide

theorem pulleyFigure_finite : (pulleyFigure id).diagram.Finite := by
  show ∀ x ∈ ([700, 400, 200, 200, 500, 200, 80, 90, 80, 270, 60, 90, 60, 270] : List Float),
    x.isFinite = true
  decide

theorem pulleyFigure_setBody_finite :
    ((pulleyFigure id).setBody (.circle 200 200 25)).diagram.Finite := by
  show ∀ x ∈ ([700, 400, 200, 200, 500, 200, 80, 90, 80, 270, 60, 90, 60, 270, 200, 200, 25] :
    List Float), x.isFinite = true
  decide

theorem beamFigure_finite {left right length : Float} (hleft : left.isFinite = true)
    (hright : right.isFinite = true) (hlength : length.isFinite = true) :
    (beamFigure id left right length).diagram.Finite := by
  show ∀ x ∈ [700, 400, left, 200, right, 200, 60, 90, 60, 90, 80, 270, 350, 200, length, 20],
    x.isFinite = true
  simp only [List.forall_mem_cons, hleft, hright, hlength]
  decide

/-! ## Generators -/

theorem incline_finite (hargs : ∀ a ∈ args, a.GivesFinite) (h : incline id args = .ok d) :
    d.Finite := by
  obtain ⟨angle, hangle, h⟩ := exists_of_bind_eq_ok h
  obtain ⟨-, -, h⟩ := exists_of_bind_eq_ok h
  obtain ⟨friction, -, h⟩ := exists_of_bind_eq_ok h
  obtain rfl := Except.ok.inj h
  have hturned : (90 + angle).isFinite = true :=
    Decimal.isFinite_ofNat_add (by decide) (by decide)
      (isFinite_of_numberAt hargs (by decide) hangle)
  cases friction with
  | false => exact finish_finite (blockFigure_finite hturned) _
  | true => exact finish_finite (addFriction_finite (by decide) hturned) _

theorem hanging_finite (h : hanging id args = .ok d) : d.Finite := by
  obtain ⟨-, -, h⟩ := exists_of_bind_eq_ok h
  obtain ⟨-, -, h⟩ := exists_of_bind_eq_ok h
  obtain rfl := Except.ok.inj h
  exact finish_finite hangingFigure_finite _

theorem pulley_finite (h : pulley id args = .ok d) : d.Finite := by
  obtain ⟨-, -, h⟩ := exists_of_bind_eq_ok h
  obtain ⟨-, -, h⟩ := exists_of_bind_eq_ok h
  obtain rfl := Except.ok.inj h
  exact finish_finite pulleyFigure_setBody_finite _

theorem beam_finite (hargs : ∀ a ∈ args, a.GivesFinite) (h : beam id args = .ok d) :
    d.Finite := by
  obtain ⟨length, hlength, h⟩ := exists_of_bind_eq_ok h
  obtain ⟨-, -, h⟩ := exists_of_bind_eq_ok h
  split at h
  · cases h
  · obtain rfl := Except.ok.inj h
    have hfinite := isFinite_of_numberAt hargs (by decide) hlength
    have hhalf := Decimal.isFinite_half hfinite
    refine finish_finite (beamFigure_finite ?_ ?_ hfinite) _
    · exact Decimal.isFinite_ofNat_sub (by decide) (by decide) hhalf
    · exact Decimal.isFinite_ofNat_add (by decide) (by decide) hhalf

/-- The fallback figures have finite numbers. -/
theorem fallback_finite {name : String} (hargs : ∀ a ∈ args, a.GivesFinite)
    (h : fallback? name id args = some d) : d.Finite := by
  have hfriction (friction : Bool) : (if friction then (30 : Float) else 0).isFinite = true := by
    cases friction <;> decide
  unfold fallback? at h
  split at h
  · obtain rfl := Option.some.inj h
    exact finish_finite (addFriction_finite (hfriction _) (by decide)) _
  · obtain rfl := Option.some.inj h
    exact finish_finite (addFriction_finite (hfriction _) (by decide)) _
  · obtain rfl := Option.some.inj h
    exact finish_finite hangingFigure_finite _
  · obtain rfl := Option.some.inj h
    exact finish_finite hangingFigure_finite _
  · obtain rfl := Option.some.inj h
    exact finish_finite pulleyFigure_finite _
  · obtain rfl := Option.some.inj h
    exact finish_finite
      (beamFigure_finite (by decide) (by decide) (isFinite_lenientAt hargs (by decide))) _
  · cases h

end Preset

/-! ## Registries -/

/-- Whether a generator makes finite numbers of finite numbers. -/
def Generator.KeepsFinite (g : Generator) : Prop :=
  ∀ id args d, (∀ a ∈ args, a.GivesFinite) → (g id args).result = .ok d → d.Finite

theorem Generator.keepsFinite_ofResult
    {f : String → List Argument → Except GeneratorError Diagram}
    (h : ∀ id args d, (∀ a ∈ args, a.GivesFinite) → f id args = .ok d → d.Finite) :
    (Generator.ofResult f).KeepsFinite := by
  intro id args d hargs hresult
  rw [result_ofResult] at hresult
  exact h id args d hargs hresult

/-- The built-in presets make finite numbers of finite numbers. -/
theorem Registry.builtin_keepsFinite :
    ∀ name g, Registry.builtin.get? name = some g → g.KeepsFinite := by
  refine forall_builtin ?_ ?_ ?_ ?_
  · exact Generator.keepsFinite_ofResult fun _ _ _ => Preset.incline_finite
  · exact Generator.keepsFinite_ofResult fun _ _ _ _ => Preset.hanging_finite
  · exact Generator.keepsFinite_ofResult fun _ _ _ _ => Preset.pulley_finite
  · exact Generator.keepsFinite_ofResult fun _ _ _ => Preset.beam_finite

end FreeBody
