/-
Results: columns and rows of values.

A row may be shorter or longer than the columns; what it lacks is missing, what
it has beyond them is nameless. A cell is found by the name of its column, by
case-insensitive equality first and by matching second.
-/
import RowMapping.Error.Basic
import RowMapping.Instantiation.Name
import RowMapping.Table.Column

set_option autoImplicit false

namespace RowMapping

/-- The values of one row. -/
abbrev Row := List Value

/-- A result: its columns and its rows. -/
structure ResultTable where
  columns : List Column
  rows : List Row

/-- A row as it is listed in messages. -/
def Row.display (row : Row) : String := Text.bracketed (row.map Value.display)

namespace ResultTable

/-- The names of the columns. -/
def columnNames (t : ResultTable) : List String := t.columns.map (·.name)

/-- Whether two names are the same but for the case of ASCII letters. -/
def sameName (a b : String) : Bool := a.toList.map Char.toLower == b.toList.map Char.toLower

/-- The place of the column of a name. -/
def columnIndex? (columns : List Column) (name : String) : Option Nat :=
  (columns.findIdx? fun c => sameName c.name name).or
    (columns.findIdx? fun c => namesMatch c.name name)

/-- The value of a row in the column of a name. -/
def valueNamed? (columns : List Column) (row : Row) (name : String) : Option Value :=
  (columnIndex? columns name).bind fun i => row[i]?

/-- The value in a row and a column, by their places. -/
def get? (t : ResultTable) (row column : Nat) : Option Value :=
  t.rows[row]?.bind fun r => r[column]?

/-- The value in a row and the column of a name. -/
def getNamed? (t : ResultTable) (row : Nat) (name : String) : Option Value :=
  t.rows[row]?.bind fun r => valueNamed? t.columns r name

/-- Map every row by a function of the application. -/
def mapRows {β : Type} (t : ResultTable) (f : List Column → Row → Except Error β) :
    Except Error (List β) :=
  t.rows.mapM (f t.columns)

/-- The text of a row in the column of a name. Fails when the row has no such value. -/
def textNamed (name : String) (columns : List Column) (row : Row) :
    Except Error (Option String) :=
  match valueNamed? columns row name with
  | some v => .ok v.asText?
  | none => .error (.unexpectedResult (.custom ("no " ++ name)))

/-- The only result. The error names the query. -/
def unique {β : Type} (query : String) : List β → Except Error β
  | [] => .error (.emptyResult query)
  | [x] => .ok x
  | xs => .error (.nonUniqueResult xs.length query)

/-- The only result, if there is one. The error names the query. -/
def optional {β : Type} (query : String) : List β → Except Error (Option β)
  | [] => .ok none
  | [x] => .ok (some x)
  | xs => .error (.nonUniqueResult xs.length query)

end ResultTable

end RowMapping
