/-
Records with fixed fields, read from JSON documents.

A record is read from an object by the names of its fields, or from an array by
their places. Fields the record does not have are ignored in an object and refused
in an array; a field that is written twice is refused. What a field that is not
written stands for is up to the record. Everything here works on documents whose
fields are as they were written.
-/
import RowMapping.Json.Parser
import RowMapping.Json.Printer

set_option autoImplicit false

namespace RowMapping.Json

/-- A reader of one type of data. -/
abbrev Reader (β : Type) := Json → Option β

/-- What an object has for a name: nothing, one value, or a repetition, which is
refused. -/
def writtenField (fields : List (String × Json)) (name : String) : Option (Option Json) :=
  match fields.filter fun field => field.1 == name with
  | [] => some none
  | [field] => some (some field.2)
  | _ => none

/-- What a document has for each of the names of a record. -/
def recordFields (names : List String) : Json → Option (List (Option Json))
  | object fields => names.mapM (writtenField fields)
  | array items =>
    if names.length < items.length then none
    else some (items.map some ++ List.replicate (names.length - items.length) none)
  | _ => none

/-- A field that may be left out. -/
def fieldOr {β : Type} (default : β) (read : Reader β) : Option Json → Option β
  | none => some default
  | some j => read j

/-- A field that must be written. -/
def requiredField {β : Type} (read : Reader β) : Option Json → Option β
  | none => none
  | some j => read j

/-- A boolean. -/
def readBoolean : Reader Bool
  | boolean b => some b
  | _ => none

/-- An integer within bounds. A number with a fraction or an exponent is none. -/
def readInteger (least greatest : Int) : Reader Int
  | number (.integer i) => if least ≤ i ∧ i ≤ greatest then some i else none
  | _ => none

/-- A natural number of so many bits. -/
def readWord (bits : Nat) : Reader Nat := fun j =>
  (readInteger 0 (Int.pow 2 bits - 1) j).map Int.toNat

/-- One of several things by its name: the name as a string, or an object with
nothing in the field of that name. -/
def readChoice {β : Type} (name : β → String) (choices : List β) : Reader β
  | string s => choices.find? fun c => name c == s
  | object [(s, null)] => choices.find? fun c => name c == s
  | _ => none

/-- Read data from a text that is a document. -/
def Reader.ofText? {β : Type} (read : Reader β) (s : String) : Option β :=
  (parseVerbatim s.toList).bind read

end RowMapping.Json
