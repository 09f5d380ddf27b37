import FreeBody.Preset.Registry
import FreeBody.Proofs.Text.Bytes
import FreeBody.Proofs.Text.Lowercase
import Mathlib.Data.List.Induction

/-!
# Registries

A registry is a map from lower-case names to generators.  What one registration does to the
entries is said by `lookup_insert` and `insert_sorted`; a run of registrations from the empty
registry keeps under each name the generator that came last (`Records.registered`).  From this
follows what every question to the registry answers (`registered_lastWins`).
-/

namespace FreeBody

namespace Registry

/-! ## One registration -/

section

variable {name key : String} {g : Generator} {entries : List (String × Generator)}

theorem mem_keys_iff : key ∈ entries.map (·.1) ↔ (entries.lookup key).isSome = true := by
  rw [List.lookup_isSome_iff, List.mem_map]
  simp only [beq_iff_eq, eq_comm (a := key)]

theorem mem_keys_insert : key ∈ (insert name g entries).map (·.1) ↔
    key = name ∨ key ∈ entries.map (·.1) := by
  rw [mem_keys_iff, mem_keys_iff, lookup_insert]
  split
  next hkey => simp [hkey]
  next hkey => simp [hkey]

/-- The entries stay in order, at most one a name. -/
theorem insert_sorted (h : (entries.map (·.1)).Pairwise (· < ·)) :
    ((insert name g entries).map (·.1)).Pairwise (· < ·) := by
  induction entries with
  | nil => exact List.pairwise_singleton _ _
  | cons e rest ih =>
    rw [List.map_cons, List.pairwise_cons] at h
    obtain ⟨hfirst, hrest⟩ := h
    rw [insert]
    split
    next hlt =>
      refine List.pairwise_cons.2 ⟨?_, List.pairwise_cons.2 ⟨hfirst, hrest⟩⟩
      intro n hn
      rcases List.mem_cons.1 hn with rfl | hn
      · exact hlt
      · exact String.lt_trans hlt (hfirst n hn)
    next hnlt =>
      split
      next heq => exact List.pairwise_cons.2 ⟨heq ▸ hfirst, hrest⟩
      next hne =>
        refine List.pairwise_cons.2 ⟨?_, ih hrest⟩
        intro n hn
        rcases mem_keys_insert.1 hn with rfl | hn
        · exact ((Std.lt_trichotomy n e.1).resolve_left hnlt).resolve_left hne
        · exact hfirst n hn

/-- A name that is there already keeps its place. -/
theorem map_fst_insert_of_mem (h : (entries.map (·.1)).Pairwise (· < ·))
    (hmem : name ∈ entries.map (·.1)) : (insert name g entries).map (·.1) = entries.map (·.1) := by
  induction entries with
  | nil => cases hmem
  | cons e rest ih =>
    rw [List.map_cons, List.pairwise_cons] at h
    obtain ⟨hfirst, hrest⟩ := h
    rw [insert]
    split
    next hlt =>
      exfalso
      rcases List.mem_cons.1 hmem with rfl | hmem
      · exact String.lt_irrefl _ hlt
      · exact String.lt_asymm hlt (hfirst name hmem)
    next =>
      split
      next heq => rw [List.map_cons, List.map_cons, heq]
      next hne =>
        rw [List.map_cons, List.map_cons, ih hrest ((List.mem_cons.1 hmem).resolve_left hne)]

end

/-! ## Runs of registrations -/

/-- The registry after some registrations, from the empty one. -/
def registered (calls : List (String × Generator)) : Registry :=
  calls.foldl (fun r call => r.register call.1 call.2) empty

/-- Whether `g` is the generator that was registered last under a name with the lower form
`key`. -/
def IsLatest (calls : List (String × Generator)) (key : String) (g : Generator) : Prop :=
  ∃ before name after, calls = before ++ (name, g) :: after ∧ Text.lowercase name = key ∧
    ∀ call ∈ after, Text.lowercase call.1 ≠ key

section

variable {calls : List (String × Generator)} {call : String × Generator} {key : String}
  {g : Generator}

theorem not_isLatest_nil : ¬ IsLatest [] key g := by
  rintro ⟨before, name, after, hcalls, -⟩
  exact List.append_ne_nil_of_right_ne_nil before (List.cons_ne_nil _ _) hcalls.symm

/-- The last call decides, if it is about the name; otherwise it does not matter. -/
theorem isLatest_concat : IsLatest (calls ++ [call]) key g ↔
    if Text.lowercase call.1 = key then g = call.2 else IsLatest calls key g := by
  constructor
  · rintro ⟨before, name, after, hcalls, hname, hafter⟩
    induction after using List.reverseRecOn with
    | nil =>
      obtain ⟨rfl, hlast⟩ := List.append_inj' hcalls rfl
      cases hlast
      rw [if_pos hname]
    | append_singleton after last _ =>
      rw [← List.cons_append, ← List.append_assoc] at hcalls
      obtain ⟨rfl, hlast⟩ := List.append_inj' hcalls rfl
      cases hlast
      rw [if_neg (hafter _ (List.mem_append_right _ (List.mem_singleton_self _)))]
      exact ⟨before, name, after, rfl, hname, fun other hother =>
        hafter other (List.mem_append_left _ hother)⟩
  · intro hlatest
    split at hlatest
    next hname =>
      subst hlatest
      exact ⟨calls, call.1, [], rfl, hname, nofun⟩
    next hname =>
      obtain ⟨before, name, after, rfl, hlower, hafter⟩ := hlatest
      refine ⟨before, name, after ++ [call], by simp, hlower, ?_⟩
      intro other hother
      rcases List.mem_append.1 hother with hother | hother
      · exact hafter other hother
      · rw [List.mem_singleton.1 hother]
        exact hname

/-- Calls about other names do not matter. -/
theorem isLatest_filter : IsLatest (calls.filter fun call => Text.lowercase call.1 = key) key g ↔
    IsLatest calls key g := by
  induction calls using List.reverseRecOn with
  | nil => rfl
  | append_singleton calls call ih =>
    rw [List.filter_append, isLatest_concat, List.filter_cons, List.filter_nil]
    by_cases hname : Text.lowercase call.1 = key
    · rw [if_pos (decide_eq_true hname), if_pos hname, isLatest_concat, if_pos hname]
    · rw [if_neg (by simpa using hname), if_neg hname, List.append_nil, ih]

theorem exists_isLatest_iff : (∃ g, IsLatest calls key g) ↔
    ∃ call ∈ calls, Text.lowercase call.1 = key := by
  induction calls using List.reverseRecOn with
  | nil => simp [not_isLatest_nil]
  | append_singleton calls call ih =>
    simp only [isLatest_concat, List.mem_append, List.mem_singleton, or_and_right, exists_or,
      exists_eq_left, ← ih]
    split
    next hname => simp [hname]
    next hname => simp [hname]

end

/-- The registry keeps its entries in order, and under each name the generator that came last. -/
structure Records (calls : List (String × Generator)) (r : Registry) : Prop where
  sorted : r.names.Pairwise (· < ·)
  lookup : ∀ key g, r.entries.lookup key = some g ↔ IsLatest calls key g

theorem Records.empty : Records [] Registry.empty where
  sorted := .nil
  lookup key g := by
    rw [Registry.empty, List.lookup_nil]
    exact iff_of_false (Option.some_ne_none g).symm not_isLatest_nil

theorem Records.register {calls : List (String × Generator)} {r : Registry} (h : Records calls r)
    (call : String × Generator) : Records (calls ++ [call]) (r.register call.1 call.2) where
  sorted := insert_sorted h.sorted
  lookup key g := by
    rw [Registry.register, lookup_insert, isLatest_concat]
    simp only [eq_comm (a := key)]
    split
    · exact Option.some_inj.trans eq_comm
    · exact h.lookup key g

theorem Records.registered (calls : List (String × Generator)) :
    Records calls (registered calls) := by
  induction calls using List.reverseRecOn with
  | nil => exact .empty
  | append_singleton calls call ih =>
    rw [Registry.registered, List.foldl_append]
    exact ih.register call

/-! ## The questions to a registry -/

/-- What a registry answers after some registrations.  Names are the same if their lower forms
are. -/
structure LastWins (calls : List (String × Generator)) (r : Registry) : Prop where
  /-- There is a generator of a name exactly if the name was registered. -/
  contains : ∀ query, r.contains query = true ↔
    ∃ call ∈ calls, Text.lowercase call.1 = Text.lowercase query
  /-- It is the one that was registered last. -/
  get : ∀ query g, r.get? query = some g ↔ IsLatest calls (Text.lowercase query) g
  /-- That one is run, and none if the name was not registered. -/
  generate : ∀ query id args result, r.generate? query id args = some result ↔
    ∃ g, IsLatest calls (Text.lowercase query) g ∧ (g id args).result = result
  /-- Registrations of other names do not matter. -/
  apart : ∀ query, r.get? query = (registered (calls.filter fun call =>
    Text.lowercase call.1 = Text.lowercase query)).get? query
  /-- The names strictly increase in byte order. -/
  names_increase : (r.names.map Text.bytes).Pairwise (· < ·)
  /-- They are the lower forms of the registered names. -/
  mem_names : ∀ name, name ∈ r.names ↔ ∃ call ∈ calls, Text.lowercase call.1 = name
  size : r.size = r.names.length
  /-- Each of the names is found. -/
  found : ∀ name ∈ r.names, r.contains name = true ∧ ∃ g, r.get? name = some g ∧
    ∀ id args, r.generate? name id args = some (g id args).result
  /-- Registering under one of the names replaces its generator, and that is all. -/
  replaced : ∀ name ∈ r.names, ∀ g, (r.register name g).names = r.names ∧
    (r.register name g).size = r.size ∧ ∀ query, (r.register name g).get? query =
      if Text.lowercase query = name then some g else r.get? query

section

variable {calls : List (String × Generator)} {r : Registry} (h : Records calls r)

include h

theorem Records.get?_eq_some_iff (query : String) (g : Generator) :
    r.get? query = some g ↔ IsLatest calls (Text.lowercase query) g :=
  h.lookup _ g

theorem Records.contains_iff (query : String) : r.contains query = true ↔
    ∃ call ∈ calls, Text.lowercase call.1 = Text.lowercase query := by
  rw [contains, Option.isSome_iff_exists, ← exists_isLatest_iff]
  exact exists_congr (h.get?_eq_some_iff query)

theorem Records.mem_names_iff (name : String) :
    name ∈ r.names ↔ ∃ call ∈ calls, Text.lowercase call.1 = name := by
  rw [names, mem_keys_iff, Option.isSome_iff_exists, ← exists_isLatest_iff]
  exact exists_congr (h.lookup name)

theorem Records.lowercase_of_mem_names {name : String} (hname : name ∈ r.names) :
    Text.lowercase name = name := by
  obtain ⟨call, -, rfl⟩ := (h.mem_names_iff name).1 hname
  exact Text.lowercase_lowercase call.1

theorem Records.generate?_eq_some_iff (query id : String) (args : List Argument)
    (result : Except GeneratorError Diagram) : r.generate? query id args = some result ↔
      ∃ g, IsLatest calls (Text.lowercase query) g ∧ (g id args).result = result := by
  rw [generate?, Option.map_eq_some_iff]
  simp only [h.get?_eq_some_iff]

theorem Records.found {name : String} (hname : name ∈ r.names) :
    r.contains name = true ∧ ∃ g, r.get? name = some g ∧
      ∀ id args, r.generate? name id args = some (g id args).result := by
  have hcontains : r.contains name = true := by
    rw [h.contains_iff, h.lowercase_of_mem_names hname]
    exact (h.mem_names_iff name).1 hname
  obtain ⟨g, hg⟩ := Option.isSome_iff_exists.1 hcontains
  refine ⟨hcontains, g, hg, fun id args => ?_⟩
  rw [generate?, hg, Option.map_some]

theorem Records.names_register {name : String} (hname : name ∈ r.names) (g : Generator) :
    (r.register name g).names = r.names := by
  rw [Registry.register, h.lowercase_of_mem_names hname]
  exact map_fst_insert_of_mem h.sorted hname

end

theorem size_eq_length_names (r : Registry) : r.size = r.names.length :=
  (List.length_map _).symm

/-- **Registries are maps.**  After any registrations, whatever their names and their order, a
name stands for the generator that was registered last under its lower form. -/
theorem registered_lastWins (calls : List (String × Generator)) :
    LastWins calls (registered calls) := by
  have h := Records.registered calls
  refine ⟨h.contains_iff, h.get?_eq_some_iff, h.generate?_eq_some_iff, ?_, ?_, h.mem_names_iff,
    size_eq_length_names _, fun name => h.found, ?_⟩
  · intro query
    apply Option.ext
    intro g
    rw [h.get?_eq_some_iff, (Records.registered _).get?_eq_some_iff, isLatest_filter]
  · exact List.pairwise_map.2 (h.sorted.imp Text.bytes_lt_bytes)
  · intro name hname g
    have hnames := h.names_register hname g
    refine ⟨hnames, ?_, fun query => ?_⟩
    · rw [size_eq_length_names, size_eq_length_names, hnames]
    · rw [get?_register, h.lowercase_of_mem_names hname]

end Registry

end FreeBody
