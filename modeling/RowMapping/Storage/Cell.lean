/-
Cells as the storage engine keeps them.

A cell has one of five storage classes, whatever the type its column was declared
with. Every value is bound as a cell: booleans as zero and one, dates and times
as their texts, documents and arrays as JSON texts, and a real that is not a
number as nothing at all. A cell is read back as the value of its class.
-/
import RowMapping.Error.Basic
import RowMapping.Text.Utf8

set_option autoImplicit false

namespace RowMapping

/-- A stored cell. A text that is not UTF-8 can be stored, but not read. -/
inductive Cell where
  | null
  | integer (i : Int64)
  | real (x : Floating)
  | text (s : String)
  | malformedText (fault : Utf8Fault)
  | blob (bytes : List UInt8)
deriving DecidableEq

namespace Cell

/-- The text cell of some bytes. -/
def ofTextBytes (bytes : List UInt8) : Cell :=
  match Text.ofUtf8 bytes with
  | .ok cs => text (String.ofList cs)
  | .error fault => malformedText fault

/-- The cell of a text that may be missing. -/
def ofText? : Option (List Char) → Cell
  | some cs => text (String.ofList cs)
  | none => null

/-- The cell a value is bound as. -/
def ofValue : Value → Cell
  | .null => null
  | .boolean b => integer (if b then 1 else 0)
  | .integer i => integer i
  | .real .nan => null
  | .real x => real x
  | .text s => text s
  | .blob bytes => blob bytes
  | .json j => text j.text
  | .array items => text (Value.array items).toJson.text
  | .date d => ofText? (some d.write)
  | .time t => ofText? (some t.write)
  | .dateTime t => ofText? (some t.write)
  | .timestamp t => ofText? t.write?

/-- The value a cell is read as. -/
def value : Cell → Except Error Value
  | null => .ok .null
  | integer i => .ok (.integer i)
  | real x => .ok (.real x)
  | text s => .ok (.text s)
  | malformedText fault => .error (.conversion (.undecodable fault))
  | blob bytes => .ok (.blob bytes)

end Cell

end RowMapping
