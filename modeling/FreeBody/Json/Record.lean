import FreeBody.Json.Codec

/-!
# Records in JSON text

A record is an object with known fields, or an array of their values in order.  In an object,
unknown members are passed over and no field may come twice; in an array, nothing may follow the
last field.  A field that may be left out may be missing from an object, or from the end of an
array.

A `Record` describes fields once for both directions: what is written for them, and what is made
of what was read.  Descriptions are put together field by field (`<$>`, `<*>`), in the order of
the fields.  `collect` reads left to right and stops at the first fault, whether of the text or
of a field's value, so the drafts that it collects can be read.
-/

namespace FreeBody.Json

/-- A field of a record: its name, whether it may be left out, and what its value must be. -/
structure Field where
  name : String
  optional : Bool
  check : Draft → Except Fault Unit

/-- A field with values that `read` takes in. -/
def Field.of {α : Type} (name : String) (optional : Bool) (read : Draft → Except Fault α) :
    Field :=
  ⟨name, optional, fun d => (read d).map fun _ => ()⟩

/-- The fields found, by name. -/
abbrev Found := List (String × Draft)

/-! ## Collecting -/

namespace Found

/-- Refuses if a field that has to be there is not among `found`. -/
def complete (fields : List Field) (found : Found) : Except Fault Found :=
  if fields.all fun f => f.optional || (found.lookup f.name).isSome then .ok found
  else .error .mismatched

/-- The fields among the members of an object, behind those found. -/
def ofMembers (fields : List Field) (found : Found) (ending : Option Fault) :
    List (Scalar String × Draft) → Except Fault Found
  | [] =>
    match ending with
    | none => complete fields found
    | some fault => .error fault
  | (.broken taken _, _) :: _ => .error taken
  | (.value name, d) :: rest =>
    match fields.find? fun f => f.name == name with
    | none =>
      match d.fault? with
      | none => ofMembers fields found ending rest
      | some fault => .error fault
    | some field =>
      if (found.lookup name).isSome then .error .mismatched
      else
        match field.check d with
        | .ok _ => ofMembers fields (found ++ [(name, d)]) ending rest
        | .error fault => .error fault

/-- The fields as the items of an array, behind those found. -/
def ofItems (found : Found) (ending : Option Fault) :
    List Field → List Draft → Except Fault Found
  | [], [] =>
    match ending with
    | none => .ok found
    | some fault => .error fault
  | [], _ :: _ => .error .malformed
  | fields, [] =>
    match ending with
    | none => complete fields found
    | some fault => .error fault
  | field :: fields, d :: rest =>
    match field.check d with
    | .ok _ => ofItems (found ++ [(field.name, d)]) ending fields rest
    | .error fault => .error fault

/-- The fields of a record. -/
def collect (fields : List Field) : Draft → Except Fault Found
  | .object members ending => ofMembers fields [] ending members
  | .array items ending => ofItems [] ending fields items
  | .unkeyed _ => .error .malformed
  | d => .error d.refusal

/-- The value of a field that is there. -/
def value {α : Type} (found : Found) (name : String) (read : Draft → Except Fault α) :
    Except Fault α :=
  match found.lookup name with
  | some d => read d
  | none => .error .mismatched

/-- The value of a field, or what stands for it when it is left out. -/
def valueOr {α : Type} (default : α) (found : Found) (name : String)
    (read : Draft → Except Fault α) : Except Fault α :=
  match found.lookup name with
  | some d => read d
  | none => .ok default

end Found

/-! ## Describing -/

/-- Some fields of a record of type `ρ`, and the part of type `α` that is made of them. -/
structure Record (ρ α : Type) where
  write : ρ → List (String × Option Json)
  fields : List Field
  read : Found → Except Fault α

namespace Record

variable {ρ α : Type}

instance : Applicative (Record ρ) where
  pure a := ⟨fun _ => [], [], fun _ => .ok a⟩
  seq f a := {
    write := fun r => f.write r ++ (a ()).write r
    fields := f.fields ++ (a ()).fields
    read := fun found => do
      let g ← f.read found
      let x ← (a ()).read found
      pure (g x) }

/-- A field that has to be there. -/
def required (name : String) (c : Codec α) (get : ρ → α) : Record ρ α where
  write r := [(name, some (c.write (get r)))]
  fields := [.of name false c.read]
  read found := found.value name c.read

/-- A field that is always written and counts as `default` when it is left out. -/
def defaulted (name : String) (c : Codec α) (default : α) (get : ρ → α) : Record ρ α where
  write r := [(name, some (c.write (get r)))]
  fields := [.of name true c.read]
  read found := found.valueOr default name c.read

/-- A field that is left out when it has no value; `null` is no value either. -/
def optional (name : String) (c : Codec α) (get : ρ → Option α) : Record ρ (Option α) where
  write r := [(name, (get r).map c.write)]
  fields := [.of name true (Draft.toOption c.read)]
  read found := found.valueOr none name (Draft.toOption c.read)

/-- A list that is left out when it is empty. -/
def listed (name : String) (c : Codec α) (get : ρ → List α) : Record ρ (List α) where
  write r := [(name, if (get r).isEmpty then none else some (c.list.write (get r)))]
  fields := [.of name true c.list.read]
  read found := found.valueOr [] name c.list.read

/-- The codec of a record that is described in full. -/
def codec (r : Record ρ ρ) : Codec ρ where
  write a := .ofFields (r.write a)
  read d := do
    let found ← Found.collect r.fields d
    r.read found

end Record

end FreeBody.Json
