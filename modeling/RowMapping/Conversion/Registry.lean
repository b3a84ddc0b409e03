/-
The registry of conversions between database values and target types.

Conversions from the database are registered for a kind of values. A look-up
walks from the kind of a value to its more general kinds and takes the latest
conversion to exactly the target at the first kind that has one. Conversions to
the database are registered for a type, of which the latest one counts.
-/
import RowMapping.Conversion.Basic

set_option autoImplicit false

namespace RowMapping

variable {α : Type}

/-- A conversion from the database and the kind of values it is registered for. -/
structure RegisteredConversion (α : Type) where
  source : ValueKind
  conversion : TypeConversion α

/-- A function that writes objects as values. -/
abbrev Writer (α : Type) := Object α → Except Error Value

/-- Registered conversions: those from the database with the latest first, those
to the database one to a type. -/
structure Registry (α : Type) where
  fromDatabase : List (RegisteredConversion α)
  toDatabase : List (TargetType × Writer α)

namespace Registry

/-- The registry without conversions. -/
def empty : Registry α := ⟨[], []⟩

/-- Register a conversion from values of a kind. -/
def register (r : Registry α) (source : ValueKind) (conversion : TypeConversion α) : Registry α :=
  { r with fromDatabase := ⟨source, conversion⟩ :: r.fromDatabase }

/-- Put a writer in the place of the one its type has, or at the end. -/
def putWriter (target : TargetType) (write : Writer α) :
    List (TargetType × Writer α) → List (TargetType × Writer α)
  | [] => [(target, write)]
  | (t, w) :: rest =>
    if t = target then (t, write) :: rest else (t, w) :: putWriter target write rest

/-- Register the conversion of a type to the database. -/
def registerWriter (r : Registry α) (target : TargetType) (write : Writer α) : Registry α :=
  { r with toDatabase := putWriter target write r.toDatabase }

/-- Whether a registered conversion is for exactly this kind and this target. -/
def isFor (kind : ValueKind) (target : TargetType) (c : RegisteredConversion α) : Bool :=
  c.source == kind && c.conversion.target == target

/-- The latest conversion registered for exactly this kind and this target. -/
def latest? (r : Registry α) (kind : ValueKind) (target : TargetType) : Option (TypeConversion α) :=
  (r.fromDatabase.find? (isFor kind target)).map (·.conversion)

/-- The conversion of values of a kind to a target: the latest one at the nearest
kind that has one. -/
def find? (r : Registry α) (source : ValueKind) (target : TargetType) :
    Option (TypeConversion α) :=
  source.ancestors.findSome? fun kind => r.latest? kind target

/-- The conversion of objects of a type to the database. -/
def findWriter? (r : Registry α) (target : TargetType) : Option (Writer α) :=
  (r.toDatabase.find? fun entry => entry.1 == target).map Prod.snd

/-- The registry as it is listed in messages: how many conversions it has each way. -/
def describe (r : Registry α) : String :=
  "TypeConversionRegistry \x7b from_database: " ++ toString r.fromDatabase.length
    ++ ", to_database: " ++ toString r.toDatabase.length ++ " \x7d"

/-! ## Lemmas -/

/-- What is found converts to the target asked for. -/
theorem target_of_latest? {r : Registry α} {kind : ValueKind} {target : TargetType}
    {c : TypeConversion α} (h : r.latest? kind target = some c) : c.target = target := by
  unfold latest? at h
  cases hf : r.fromDatabase.find? (isFor kind target) with
  | none => simp [hf] at h
  | some e =>
    have he := List.find?_some hf
    simp only [hf, Option.map_some, Option.some.injEq] at h
    simp only [isFor, Bool.and_eq_true, beq_iff_eq] at he
    rw [← h]
    exact he.2

/-- What is found converts to the target asked for. -/
theorem target_of_find? {r : Registry α} {source : ValueKind} {target : TargetType}
    {c : TypeConversion α} (h : r.find? source target = some c) : c.target = target := by
  obtain ⟨kind, _, hk⟩ := List.exists_of_findSome?_eq_some h
  exact target_of_latest? hk

end Registry

end RowMapping
