/-
From stored tables to results.

The words of a declared type name the type of a column, and the type its kind.
Cells are read by their storage class first; then a column of booleans, dates,
times or moments reads the cells that fit its type as such and keeps the others.
A column whose type is not known has the kind of its first value.
-/
import RowMapping.Storage.Affinity
import RowMapping.Table.Basic

set_option autoImplicit false

namespace RowMapping

/-! ## Declared types -/

/-- A type known by name that a column can be declared with. -/
inductive DeclaredType where
  | boolean
  | date
  | time
  | dateTime
  | integer
  | real
  | text
  | blob
deriving DecidableEq, Repr

namespace DeclaredType

/-- The name of a declared type. -/
def name : DeclaredType → String
  | boolean => "BOOLEAN"
  | date => "DATE"
  | time => "TIME"
  | dateTime => "DATETIME"
  | integer => "INTEGER"
  | real => "REAL"
  | text => "TEXT"
  | blob => "BLOB"

/-- The kind of the values in a column of a declared type. -/
def kind : DeclaredType → ValueKind
  | boolean => .boolean
  | date => .date
  | time => .time
  | dateTime => .dateTime
  | integer => .integer
  | real => .real
  | text => .text
  | blob => .blob

/-- The type that the text of a declaration names: some words have to be the whole
of it, others can stand anywhere in it. The first rule that applies counts. -/
def ofText? (declared : String) : Option DeclaredType :=
  let word := String.ofList (declared.toList.map Char.toUpper)
  if word = "INT4" ∨ word = "INT8" then some integer
  else if word = "BOOLEAN" ∨ word = "BOOL" then some boolean
  else if word = "DATE" then some date
  else if word = "TIME" then some time
  else if word = "DATETIME" ∨ word = "TIMESTAMP" then some dateTime
  else if Affinity.mentions "INT" word then some integer
  else if ["CHAR", "CLOB", "TEXT"].any (Affinity.mentions · word) then some text
  else if Affinity.mentions "BLOB" word then some blob
  else if ["REAL", "FLOA", "DOUB"].any (Affinity.mentions · word) then some real
  else none

end DeclaredType

/-! ## Stored tables -/

/-- A column of a stored table: its name, and its declared type if it is known. -/
structure StoredColumn where
  name : String
  declared : Option DeclaredType := none
deriving DecidableEq, Repr

/-- What a query returns before it is read: columns, and rows with a cell for each. -/
structure StoredTable where
  columns : List StoredColumn
  rows : List (List Cell)

/-! ## Reading -/

/-- A moment by its text: without an offset if it reads as that, else with one. -/
def readMoment (s : String) : Value :=
  match DateTime.parse s.toList with
  | some t => .dateTime t
  | none => match Timestamp.parse s.toList with
    | some t => .timestamp t
    | none => .text s

/-- A value as the kind of its column reads it. Values that do not fit are kept. -/
def refine : ValueKind → Value → Value
  | .boolean, .integer i => .boolean (i != 0)
  | .date, .text s => ((Date.parse s.toList).map Value.date).getD (.text s)
  | .time, .text s => ((Time.parse s.toList).map Value.time).getD (.text s)
  | .dateTime, .text s => readMoment s
  | _, v => v

/-- The kind of the first value in a column that is not missing. -/
def firstKind (rows : List Row) (index : Nat) : ValueKind :=
  match rows.findSome? fun row => row[index]?.filter (!·.isNull) with
  | some v => v.kind
  | none => .null

/-- A column of a result, given the values that were read. -/
def StoredColumn.resultColumn (c : StoredColumn) (rows : List Row) (index : Nat) : Column :=
  { index
    name := c.name
    kind := match c.declared with
      | some t => t.kind
      | none => firstKind rows index
    declaredType := c.declared.map (·.name) }

/-- A row as its columns read it. -/
def refineRow (columns : List Column) (row : Row) : Row :=
  row.mapIdx fun i v => match columns[i]? with
    | some c => refine c.kind v
    | none => v

/-- The result a stored table is read as. -/
def StoredTable.read (t : StoredTable) : Except Error ResultTable := do
  let rows ← t.rows.mapM fun row => row.mapM Cell.value
  let columns := t.columns.mapIdx fun i c => c.resultColumn rows i
  pure ⟨columns, rows.map (refineRow columns)⟩

end RowMapping
