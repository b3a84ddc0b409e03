/-
A table of records with any columns.

Records are numbered from one in the order they are inserted. Their cells are
stored as the columns prefer, and selected either by column or by an expression
of the column, which has no declared type.
-/
import RowMapping.Storage.Snapshot

set_option autoImplicit false

namespace RowMapping

/-- A column of a table: its name and the text of its declared type. -/
structure ColumnDeclaration where
  name : String
  declared : String := ""
deriving DecidableEq, Repr

/-- Records by ascending number. -/
abbrev Records := List (Nat × List Cell)

namespace Records

/-- Names in double quotes. -/
def quoted (name : String) : String := "\"" ++ name ++ "\""

/-- Insert a record. -/
def insertSql (columns : List ColumnDeclaration) : String :=
  "INSERT INTO data (" ++ Text.join ", " (columns.map fun c => quoted c.name) ++ ") VALUES ("
    ++ Text.join ", " (columns.map fun _ => "?") ++ ")"

/-- What a column is selected by. -/
def selectItem (expressions : Bool) (c : ColumnDeclaration) : String :=
  if expressions then "+" ++ quoted c.name ++ " AS " ++ quoted c.name else quoted c.name

/-- The records after a number. -/
def selectSql (expressions : Bool) (columns : List ColumnDeclaration) : String :=
  "SELECT " ++ Text.join ", " (columns.map (selectItem expressions))
    ++ " FROM data WHERE n > ? ORDER BY n"

/-- The columns that are selected. -/
def resultColumns (expressions : Bool) (columns : List ColumnDeclaration) : List StoredColumn :=
  columns.map fun c => ⟨c.name, if expressions then none else DeclaredType.ofText? c.declared⟩

/-- Insert a record. What it lacks is missing. -/
def insert (columns : List ColumnDeclaration) (cells : List Cell) (s : Records) : Change Records :=
  let stored := columns.mapIdx fun i c =>
    (Affinity.ofDeclared c.declared).apply (cells[i]?.getD .null)
  let n := s.length + 1
  ⟨s ++ [(n, stored)], ⟨1, n⟩⟩

/-- Whether a number is greater than that of a cell. -/
def isAfter (n : Nat) : Cell → Bool
  | .integer i => i.toInt < n
  | _ => false

/-- The records after a number. -/
def after (cell : Cell) (s : Records) : List (List Cell) :=
  (s.filter fun record => isAfter record.1 cell).map Prod.snd

/-- The meaning of a write. -/
def update (columns : List ColumnDeclaration) (sql : String) (cells : List Cell) (s : Records) :
    Except DriverError (Change Records) :=
  if sql = insertSql columns then .ok (insert columns cells s)
  else .error (Storage.syntaxError sql)

/-- The meaning of a query. -/
def select (columns : List ColumnDeclaration) (sql : String) (cells : List Cell) (s : Records) :
    Except DriverError StoredTable :=
  let cell := cells.head?.getD .null
  if sql = selectSql false columns then .ok ⟨resultColumns false columns, after cell s⟩
  else if sql = selectSql true columns then .ok ⟨resultColumns true columns, after cell s⟩
  else .error (Storage.syntaxError sql)

end Records

/-- The schema of a table of records. -/
def Schema.records (columns : List ColumnDeclaration) : Schema Records :=
  ⟨Records.update columns, Records.select columns, fun _ => .ok ()⟩

end RowMapping
