/-
Database values and the views of them that conversions are made of.

A value can be looked at as a 64-bit integer, as a double or as text; each view
exists for some kinds only. Dates and times read as the text they are stored in,
JSON documents as their compact text.

`Value.toJson` forgets the kind of a value where JSON has no counterpart: dates
and times become strings, bytes become base 64. `Value.ofJson` goes back as far
as JSON allows. An object has no counterpart among the values and stays JSON.
-/
import RowMapping.Calendar.Parser
import RowMapping.Calendar.Text
import RowMapping.Json.Parser
import RowMapping.Json.Printer
import RowMapping.Text.Base64
import RowMapping.Value.Kind

set_option autoImplicit false

namespace RowMapping

/-- A value read from or written to the database. -/
inductive Value where
  | null
  | boolean (b : Bool)
  | integer (i : Int64)
  | real (x : Floating)
  | text (s : String)
  | blob (bytes : List UInt8)
  | date (d : Date)
  | time (t : Time)
  | dateTime (t : DateTime)
  | timestamp (t : Timestamp)
  | json (j : Json)
  | array (items : List Value)

/-- The greatest and the least 64-bit integer bound those that have a word. -/
def int64Of? (i : Int) : Option Int64 :=
  if fitsInt64 i then some (Int64.ofInt i) else none

/-- The integer of a word fits a word. -/
theorem fitsInt64_toInt (w : Int64) : fitsInt64 w.toInt = true :=
  (fitsInt64_iff _).mpr ⟨w.le_toInt, w.toInt_lt⟩

/-- An integer that fits a word is the integer of the word. -/
theorem toInt_ofInt_of_fits {i : Int} (h : fitsInt64 i = true) : (Int64.ofInt i).toInt = i := by
  obtain ⟨hleast, hgreatest⟩ := (fitsInt64_iff i).mp h
  exact Int64.toInt_ofInt_of_le hleast hgreatest

namespace Value

/-- The kind of a value. -/
def kind : Value → ValueKind
  | null => .null
  | boolean _ => .boolean
  | integer _ => .integer
  | real _ => .real
  | text _ => .text
  | blob _ => .blob
  | date _ => .date
  | time _ => .time
  | dateTime _ => .dateTime
  | timestamp _ => .timestamp
  | json _ => .json
  | array _ => .array

/-- Whether a value is missing. -/
def isNull : Value → Bool
  | null => true
  | _ => false

/-! ## Views -/

/-- A value as an integer: booleans as zero and one, reals only when they are
integers in range. -/
def asInt64? : Value → Option Int64
  | integer i => some i
  | boolean b => some (if b then 1 else 0)
  | real x => x.toInt?.bind int64Of?
  | _ => none

/-- A numeric value as a double, the nearest one for an integer. -/
def asDouble? : Value → Option Floating
  | real x => some x
  | integer i => some (Floating.ofInt .double i.toInt)
  | boolean b => some (Floating.ofInt .double (if b then 1 else 0))
  | _ => none

/-- The text a date or time is stored in. Only a timestamp can lack one. -/
def temporalText? : Value → Option (List Char)
  | date d => some d.write
  | time t => some t.write
  | dateTime t => some t.write
  | timestamp t => t.write?
  | _ => none

/-- A value as text. -/
def asText? : Value → Option String
  | text s => some s
  | json j => some j.text
  | v => v.temporalText?.map String.ofList

/-! ## JSON -/

mutual

/-- The JSON document of a value. Dates and times without a text become `null`. -/
def toJson : Value → Json
  | null => .null
  | boolean b => .boolean b
  | integer i => Json.ofInt i.toInt
  | real x => Json.ofFloating x
  | text s => .string s
  | blob bytes => .string (String.ofList (Text.base64 bytes))
  | json j => j
  | array items => .array (toJsonItems items)
  | date d => .string (String.ofList d.write)
  | time t => .string (String.ofList t.write)
  | dateTime t => .string (String.ofList t.write)
  | timestamp t => match t.write? with
    | some cs => .string (String.ofList cs)
    | none => .null

/-- The JSON documents of several values. -/
def toJsonItems : List Value → List Json
  | [] => []
  | v :: rest => toJson v :: toJsonItems rest

end

/-- The value of a JSON number: an integer where it fits 64 bits, else a double. -/
def ofJsonNumber : JsonNumber → Value
  | .integer i => match int64Of? i with
    | some i => integer i
    | none => real (Floating.ofInt .double i)
  | .real x => real x

mutual

/-- The value of a JSON document. -/
def ofJson : Json → Value
  | .null => null
  | .boolean b => boolean b
  | .number n => ofJsonNumber n
  | .string s => text s
  | .array items => array (ofJsonItems items)
  | .object fields => json (.object fields)

/-- The values of several JSON documents. -/
def ofJsonItems : List Json → List Value
  | [] => []
  | j :: rest => ofJson j :: ofJsonItems rest

end

/-! ## Display -/

mutual

/-- The text shown for a value in messages and query listings. -/
def display : Value → String
  | null => "null"
  | boolean b => if b then "true" else "false"
  | integer i => toString i.toInt
  | real x => x.display .double
  | text s => "'" ++ s ++ "'"
  | blob bytes => "<" ++ toString bytes.length ++ " bytes>"
  | json j => j.text
  | array items => Text.bracketed (displayItems items)
  | date d => "'" ++ String.ofList d.write ++ "'"
  | time t => "'" ++ String.ofList t.write ++ "'"
  | dateTime t => "'" ++ String.ofList t.write ++ "'"
  | timestamp t => "'" ++ String.ofList (t.write?.getD []) ++ "'"

/-- The texts shown for several values. -/
def displayItems : List Value → List String
  | [] => []
  | v :: rest => display v :: displayItems rest

end

/-! ## Lemmas -/

/-- Only the missing value has the kind of missing values. -/
theorem kind_eq_null_iff (v : Value) : v.kind = .null ↔ v = null := by
  cases v <;> simp [kind]

/-- The JSON documents of several values, one by one. -/
theorem toJsonItems_eq (vs : List Value) : toJsonItems vs = vs.map toJson := by
  induction vs with
  | nil => rfl
  | cons v rest ih => simp [toJsonItems, ih]

/-- The values of several JSON documents, one by one. -/
theorem ofJsonItems_eq (js : List Json) : ofJsonItems js = js.map ofJson := by
  induction js with
  | nil => rfl
  | cons j rest ih => simp [ofJsonItems, ih]

end Value

end RowMapping
