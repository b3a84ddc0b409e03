/-
Descriptions of the example application's records.

A specification lists constructors, properties and slots. A constructor reads its
arguments by the types it is told, which need not be those of its parameters, and
can be told to fail. Two names can lead to the same slot; the part in a slot has
the members that the first of them gives it.
-/
import RowMapping.Example.Data
import RowMapping.Instantiation.Description

set_option autoImplicit false

namespace RowMapping.Example

/-! ## Specifications -/

/-- A constructor of a record. -/
inductive ConstructorSpec where
  | byDefault
  | reading (parameters : List Parameter) (reads : List TargetType) (failure : Option String)

/-- The slot of a part, under one of its names. -/
structure InnerSlotSpec where
  name : String
  slot : String
  properties : List Parameter := []

/-- The slot of a record, under one of its names. -/
structure SlotSpec where
  name : String
  slot : String
  properties : List Parameter := []
  slots : List InnerSlotSpec := []

/-- A record. -/
structure RecordSpec where
  constructors : List ConstructorSpec := []
  properties : List Parameter := []
  slots : List SlotSpec := []

/-! ## Descriptions -/

/-- A property that remembers what is assigned to it. -/
def property (p : Parameter) : Member Sample :=
  .property p.name p.target fun x owner =>
    withAssignments (assignments owner ++ [([], p.name, x)]) owner

/-- How the part in a slot is reached. -/
def slotAccess (slot : String) : Accessor Sample where
  get owner := .custom partType (.part (assignedThrough slot (assignments owner)))
  put part owner :=
    let through := (assignments part).map fun (slots, name, x) => (slot :: slots, name, x)
    withAssignments (assignedElsewhere slot (assignments owner) ++ through) owner

/-- The members of the part in the slot of a part: what the first name of a slot
that any part of the record has gives it. -/
def innerMembers (spec : RecordSpec) (slot : String) : List (Member Sample) :=
  match (spec.slots.flatMap (·.slots)).find? fun s => s.slot == slot with
  | some s => s.properties.map property
  | none => []

/-- The members of the part in a slot: what its first name gives it. -/
def slotMembers (spec : RecordSpec) (slot : String) : List (Member Sample) :=
  match spec.slots.find? fun s => s.slot == slot with
  | some s => s.properties.map property
      ++ s.slots.map fun i => .nested i.name (slotAccess i.slot) (innerMembers spec i.slot)
  | none => []

/-- A constructor that remembers its number and what it reads. -/
def constructor (index : Nat) : ConstructorSpec → Constructor Sample
  | .byDefault => ⟨[], pure (.custom recordType (.record .byDefault [] []))⟩
  | .reading parameters reads failure => ⟨parameters, do
      let arguments ← reads.mapM nextArgument
      match failure with
      | some text => throw (.callback text)
      | none => pure (.custom recordType (.record (.byConstructor index) arguments []))⟩

/-- The description of a record. -/
def RecordSpec.describe (spec : RecordSpec) : TypeDescription Sample where
  constructors := spec.constructors.mapIdx constructor
  members := spec.properties.map property
    ++ spec.slots.map fun s => .nested s.name (slotAccess s.slot) (slotMembers spec s.slot)

/-! ## Pairs -/

/-- An integer object as a number. -/
def number : Object Sample → Int
  | .integer _ i => i
  | _ => 0

/-- An optional integer object as a number, if there is one. -/
def number? : Object Sample → Option Int
  | .present x => some (number x)
  | _ => none

/-- A string object as text. -/
def text : Object Sample → String
  | .string s => s
  | _ => ""

/-- The description of pairs: one constructor with a parameter for each part. -/
def pairDescription : TypeDescription Sample where
  constructors :=
    [⟨[⟨"id", .integer .i64⟩, ⟨"first_name", .string⟩, ⟨"rank", .option (.integer .i32)⟩], do
      let id ← nextArgument (.integer .i64)
      let firstName ← nextArgument .string
      let rank ← nextArgument (.option (.integer .i32))
      pure (.custom pairType (.pair (number id) (text firstName) (number? rank)))⟩]

/-- A target type with its description, given what records are like. -/
def describe (spec : RecordSpec) (t : TargetType) : Target Sample :=
  if t = .custom recordType then ⟨t, spec.describe⟩
  else if t = .custom pairType then ⟨t, pairDescription⟩
  else ⟨t, {}⟩

end RowMapping.Example
