/-
Columns of a result: where they stand, what they are called and what kind of
values they hold.

The kind of a column is the kind of missing values when nothing is known about
it: no type was declared and no row has a value.
-/
import RowMapping.Value.Basic

set_option autoImplicit false

namespace RowMapping

/-- A column of a result. -/
structure Column where
  index : Nat
  name : String
  kind : ValueKind
  declaredType : Option String := none
deriving DecidableEq, Repr

namespace Column

/-- A column as it is listed in messages. -/
def describe (c : Column) : String := c.name ++ ": " ++ c.kind.name

/-- The JSON text of a column, its parts in a fixed order. -/
def jsonText (c : Column) : String :=
  Json.orderedText
    [("index", Json.ofInt c.index), ("name", .string c.name), ("kind", .string c.kind.name),
      ("declaredType", match c.declaredType with
        | some t => .string t
        | none => .null)]

/-- Columns as they are listed in messages. -/
def describeAll (cs : List Column) : String :=
  "(" ++ Text.join ", " (cs.map describe) ++ ")"

end Column

end RowMapping
