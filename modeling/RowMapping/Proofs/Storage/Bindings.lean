/-
What is bound for a value.

On its way to the engine a value goes through two layers. The dialect brings it into its stored
form, and the driver is handed a binding for what comes out. Both layers ask a date or a time for
its text, and both take one that has none for a missing value. Dates, times of day and dates with
times always have a text. A timestamp has none in a year before the year zero, and none at an
offset that has seconds or is a day or more: for these, and for no others, nothing is bound in
place of a value that is there.

The engine takes one more step of its own. It has no cell for a real that is not a number, and
keeps nothing when such a real is bound.
-/
import RowMapping.Proofs.Storage.TypedColumns

set_option autoImplicit false

namespace RowMapping

variable {α : Type}

/-! ## Bindings -/

/-- What the driver is handed for a placeholder of a statement. -/
inductive DriverValue where
  | null
  | boolean (b : Bool)
  | integer (i : Int64)
  | real (x : Floating)
  | text (s : String)
  | blob (bytes : List UInt8)

namespace DriverValue

/-- The binding of a text that may be missing. -/
def ofText? : Option (List Char) → DriverValue
  | some cs => text (String.ofList cs)
  | none => null

/-- The binding of a value that the dialect gave out. -/
def ofValue : Value → DriverValue
  | .null => null
  | .boolean b => boolean b
  | .integer i => integer i
  | .real x => real x
  | .text s => text s
  | .blob bytes => blob bytes
  | .json j => text j.text
  | .array items => text (Value.array items).toJson.text
  | v => ofText? v.temporalText?

/-- The cell in which the engine keeps a binding. A boolean is zero or one there, and a real that
is not a number is nothing. -/
def cell : DriverValue → Cell
  | null => .null
  | boolean b => .integer (if b then 1 else 0)
  | integer i => .integer i
  | real .nan => .null
  | real x => .real x
  | text s => .text s
  | blob bytes => .blob bytes

/-- The cell a value is bound as is the one that the engine keeps its binding in. -/
theorem cell_ofValue (v : Value) : (ofValue v).cell = Cell.ofValue v := by
  cases v with
  | real x => cases x <;> rfl
  | timestamp t =>
    simp only [ofValue, Value.temporalText?, Cell.ofValue]
    cases t.write? <;> rfl
  | _ => rfl

/-- The engine keeps nothing if nothing is bound, or a real that is not a number. -/
theorem cell_eq_null_iff (b : DriverValue) : b.cell = .null ↔ b = .null ∨ b = .real .nan := by
  cases b with
  | real x => cases x <;> simp [cell]
  | _ => simp [cell]

theorem ofValue_eq_nan_iff (v : Value) : ofValue v = .real .nan ↔ v = .real .nan := by
  cases v with
  | timestamp t =>
    simp only [ofValue, Value.temporalText?]
    cases t.write? <;> simp [ofText?]
  | _ => simp [ofValue, Value.temporalText?, ofText?]

end DriverValue

/-! ## Timestamps without a text -/

/-- A timestamp that cannot be written: its year is before the year zero, or its offset has
seconds or is a day or more. -/
def Timestamp.Unwritable (t : Timestamp) : Prop :=
  t.moment.date.year < 0 ∨ t.offset % 60 ≠ 0 ∨ 24 * 3600 ≤ t.offset.natAbs

theorem Timestamp.write?_eq_none_iff (t : Timestamp) : t.write? = none ↔ t.Unwritable := by
  have hwritable : t.hasText = true ↔ ¬ t.Unwritable := by
    simp only [hasText, Unwritable, Bool.and_eq_true, decide_eq_true_eq, beq_iff_eq]
    omega
  rw [write?, ite_eq_right_iff]
  simp [hwritable]

/-- Of all values that are there, only timestamps can lack the text they are bound by. -/
theorem DriverValue.ofValue_eq_null_iff (v : Value) :
    ofValue v = .null ↔ v = .null ∨ ∃ t, v = .timestamp t ∧ t.Unwritable := by
  cases v with
  | timestamp t =>
    have hnone := t.write?_eq_none_iff
    simp only [ofValue, Value.temporalText?]
    cases htext : t.write? with
    | none => simp [ofText?, ← hnone, htext]
    | some cs => simp [ofText?, ← hnone, htext]
  | _ => simp [ofValue, Value.temporalText?, ofText?]

/-! ## Through both layers -/

/-- The dialect takes a value for a missing one exactly if the driver would. -/
theorem Dialect.storedForm_eq_null_iff (v : Value) :
    storedForm v = .null ↔ DriverValue.ofValue v = .null := by
  cases v with
  | timestamp t =>
    simp only [storedForm, DriverValue.ofValue, Value.temporalText?]
    cases t.write? <;> simp [DriverValue.ofText?]
  | _ => simp [storedForm, DriverValue.ofValue, Value.temporalText?, DriverValue.ofText?]

/-- Binding the stored form of a value is binding the value. -/
theorem DriverValue.ofValue_storedForm (v : Value) :
    ofValue (Dialect.storedForm v) = ofValue v := by
  cases v with
  | timestamp t =>
    simp only [Dialect.storedForm, ofValue, Value.temporalText?]
    cases t.write? <;> rfl
  | _ => rfl

/-- Every value is stored and bound, and for a value that is there it is a timestamp without a
text, and nothing else, in place of which the dialect gives out a missing value and nothing is
bound. The engine keeps nothing for these bindings, and for the real that is not a number. -/
theorem Dialect.bindsNothing_iff (v : Value) :
    ∃ w, (Dialect.sqlite : Dialect α).write v = .ok w ∧
      (w = .null ↔ v = .null ∨ ∃ t, v = .timestamp t ∧ t.Unwritable) ∧
      (DriverValue.ofValue w = .null ↔ v = .null ∨ ∃ t, v = .timestamp t ∧ t.Unwritable) ∧
      (Cell.ofValue w = .null ↔ DriverValue.ofValue w = .null ∨ v = .real .nan) := by
  have hbound := DriverValue.ofValue_eq_null_iff v
  refine ⟨storedForm v, rfl, ?_, ?_, ?_⟩
  · rw [storedForm_eq_null_iff]
    exact hbound
  · rw [DriverValue.ofValue_storedForm]
    exact hbound
  · rw [← DriverValue.cell_ofValue, DriverValue.cell_eq_null_iff, DriverValue.ofValue_storedForm,
      DriverValue.ofValue_eq_nan_iff]

/-- A moment in the last year before the year zero. -/
def beforeYearZero : Timestamp := ⟨⟨⟨-1, 2, 28, by decide⟩, leapEvening.moment.time⟩, 0⟩

/-- A moment before the year zero is a value that is there, and is bound as nothing. -/
theorem Dialect.bindsNothing_beforeYearZero :
    Value.timestamp beforeYearZero ≠ .null ∧
      ((Dialect.sqlite : Dialect Empty).write (.timestamp beforeYearZero)).map DriverValue.ofValue
        = .ok .null := by
  refine ⟨nofun, ?_⟩
  have hnone : beforeYearZero.write? = none := by decide
  simp only [sqlite, storedForm, hnone]
  rfl

end RowMapping
