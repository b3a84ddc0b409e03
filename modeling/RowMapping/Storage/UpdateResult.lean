/-
What a write reports.
-/
import RowMapping.Json.Record

set_option autoImplicit false

namespace RowMapping

/-- What a write reports: the rows it changed and the key of the last one inserted. -/
structure UpdateResult where
  rowsAffected : Nat
  lastInsertId : Int
deriving DecidableEq, Repr

namespace UpdateResult

/-- The JSON text of a report. -/
def jsonText (u : UpdateResult) : String :=
  Json.orderedText [("rowsAffected", Json.ofInt u.rowsAffected),
    ("lastInsertId", Json.ofInt u.lastInsertId)]

/-- Read a report from a document as written. Both fields must be there. -/
def ofJson : Json.Reader UpdateResult := fun j => do
  match ← Json.recordFields ["rowsAffected", "lastInsertId"] j with
  | [rows, key] =>
    let rowsAffected ← Json.requiredField (Json.readWord 64) rows
    let lastInsertId ← Json.requiredField (Json.readInteger (-0x8000000000000000) 0x7fffffffffffffff) key
    pure { rowsAffected, lastInsertId }
  | _ => none

end UpdateResult

end RowMapping
