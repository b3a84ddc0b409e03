/-
JSON documents.

A number keeps apart what JSON does not: whole numbers of up to 64 bits, signed
or not, stay integers, and all others are floating-point. The fields of an
object are kept in the order of their names, each name once; adding a field
under a name already there replaces its value.
-/
import RowMapping.Number.Floating

set_option autoImplicit false

namespace RowMapping

/-- A JSON number: an integer of at most 64 bits, or a double. -/
inductive JsonNumber where
  | integer (i : Int)
  | real (x : Floating)
deriving DecidableEq

/-- A JSON document. -/
inductive Json where
  | null
  | boolean (b : Bool)
  | number (n : JsonNumber)
  | string (s : String)
  | array (items : List Json)
  | object (fields : List (String × Json))

namespace Json

/-- Add a field to fields in the order of their names; a field of the same name
is replaced where it stands. -/
def insertField {α : Type} (name : String) (x : α) : List (String × α) → List (String × α)
  | [] => [(name, x)]
  | (n, y) :: rest =>
    if name = n then (n, x) :: rest
    else if name < n then (name, x) :: (n, y) :: rest
    else (n, y) :: insertField name x rest

/-- Fields in the order of their names, of which a later one replaces an earlier
one of the same name. -/
def sortFields {α : Type} (fields : List (String × α)) : List (String × α) :=
  fields.foldl (fun sorted field => insertField field.1 field.2 sorted) []

mutual

/-- A document with the fields of all its objects in order. -/
def normalize : Json → Json
  | array items => array (normalizeItems items)
  | object fields => object (sortFields (normalizeFields fields))
  | j => j

/-- Items with the fields of all their objects in order. -/
def normalizeItems : List Json → List Json
  | [] => []
  | j :: rest => normalize j :: normalizeItems rest

/-- Fields whose values have the fields of all their objects in order. -/
def normalizeFields : List (String × Json) → List (String × Json)
  | [] => []
  | (name, j) :: rest => (name, normalize j) :: normalizeFields rest

end

/-- The value of a field. -/
def field? {α : Type} (name : String) (fields : List (String × α)) : Option α :=
  (fields.find? fun field => field.1 == name).map Prod.snd

/-- A floating-point number as a document; numbers that are not finite have none
but `null`. -/
def ofFloating (x : Floating) : Json :=
  if x.isFinite then .number (.real x) else .null

/-- An integer as a document. -/
def ofInt (i : Int) : Json := .number (.integer i)

end Json

/-- Whether an integer fits a signed 64-bit word. -/
def fitsInt64 (i : Int) : Bool := -0x8000000000000000 ≤ i && i < 0x8000000000000000

theorem fitsInt64_iff (i : Int) :
    fitsInt64 i = true ↔ -0x8000000000000000 ≤ i ∧ i < 0x8000000000000000 := by
  simp [fitsInt64]

namespace Json

/-- Items with the fields of all their objects in order, one by one. -/
theorem normalizeItems_eq (items : List Json) : normalizeItems items = items.map normalize := by
  induction items with
  | nil => rfl
  | cons j rest ih => simp [normalizeItems, ih]

/-- A field just added is found. -/
theorem field?_insertField {α : Type} (name : String) (x : α) (fields : List (String × α)) :
    field? name (insertField name x fields) = some x := by
  induction fields with
  | nil => simp [field?, insertField]
  | cons p rest ih =>
    obtain ⟨n, y⟩ := p
    by_cases hn : name = n
    · simp [field?, insertField, hn]
    · have hn' : (n == name) = false := by simpa using fun h => hn h.symm
      by_cases hlt : name < n
      · simp [field?, insertField, hn, hlt]
      · simpa [field?, insertField, hn, hlt, List.find?_cons, hn'] using ih

/-- Adding a field leaves the other names alone. -/
theorem field?_insertField_of_ne {α : Type} {name other : String} (x : α)
    (fields : List (String × α)) (h : other ≠ name) :
    field? other (insertField name x fields) = field? other fields := by
  have hb : (name == other) = false := by simpa using fun e => h e.symm
  induction fields with
  | nil => simp [field?, insertField, hb]
  | cons p rest ih =>
    obtain ⟨n, y⟩ := p
    by_cases hn : name = n
    · subst hn
      simp [field?, insertField, hb]
    · by_cases hlt : name < n
      · simp [field?, insertField, hn, hlt, List.find?_cons, hb]
      · by_cases ho : (n == other) = true
        · simp [field?, insertField, hn, hlt, ho]
        · simp only [Bool.not_eq_true] at ho
          simpa [field?, insertField, hn, hlt, List.find?_cons, ho] using ih

end Json

end RowMapping
