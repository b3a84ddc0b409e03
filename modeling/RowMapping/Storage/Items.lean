/-
A small schema: items with names, and references to them.

An item is numbered when it is inserted, one above the greatest number in use, and
needs a name. That a reference leads to an item is checked when a transaction
commits, so it may lead nowhere in between.
-/
import RowMapping.Storage.Snapshot

set_option autoImplicit false

namespace RowMapping

/-- Items by ascending number with their names, and the numbers referred to. -/
structure Items where
  items : List (Int × Cell) := []
  references : List Cell := []

namespace Items

/-- Insert an item by its name. -/
def insertSql : String := "INSERT INTO items (name) VALUES (?)"

/-- Delete the items of a name. -/
def deleteSql : String := "DELETE FROM items WHERE name = ?"

/-- Insert a reference. -/
def referSql : String := "INSERT INTO refs (item) VALUES (?)"

/-- The names of all items by ascending number. -/
def namesSql : String := "SELECT name FROM items ORDER BY id"

/-- The number of the next item. -/
def nextId (s : Items) : Int := s.items.foldl (fun greatest item => max greatest item.1) 0 + 1

/-- Insert an item. -/
def insert (name : Cell) (s : Items) : Except DriverError (Change Items) :=
  match Affinity.text.apply name with
  | .null => .error (.ofResultCode 1299 "NOT NULL constraint failed: items.name")
  | name => .ok ⟨{ s with items := s.items ++ [(s.nextId, name)] }, ⟨1, s.nextId⟩⟩

/-- Delete the items of a name. Nothing is equal to a missing name. -/
def delete (name : Cell) (s : Items) : Change Items :=
  let name := Affinity.text.apply name
  let matched := s.items.filter fun item => item.2 == name && name != .null
  let kept := s.items.filter fun item => !(item.2 == name && name != .null)
  ⟨{ s with items := kept }, ⟨matched.length, 0⟩⟩

/-- Insert a reference. -/
def refer (item : Cell) (s : Items) : Change Items :=
  ⟨{ s with references := s.references ++ [item] }, ⟨1, s.references.length + 1⟩⟩

/-- Whether a reference leads to an item. A missing one need not. -/
def leads (s : Items) : Cell → Bool
  | .null => true
  | .integer i => s.items.any fun item => item.1 == i.toInt
  | _ => false

/-- The meaning of a write. -/
def update (sql : String) (cells : List Cell) (s : Items) : Except DriverError (Change Items) :=
  let cell := cells.head?.getD .null
  if sql = insertSql then s.insert cell
  else if sql = deleteSql then .ok (s.delete cell)
  else if sql = referSql then .ok (s.refer cell)
  else .error (Storage.syntaxError sql)

/-- The names of the items. -/
def names (s : Items) : StoredTable :=
  ⟨[⟨"name", some .text⟩], s.items.map fun item => [item.2]⟩

/-- The meaning of a query. -/
def select (sql : String) (_ : List Cell) (s : Items) : Except DriverError StoredTable :=
  if sql = namesSql then .ok s.names else .error (Storage.syntaxError sql)

/-- Every reference has to lead to an item. -/
def check (s : Items) : Except DriverError Unit :=
  if s.references.all s.leads then .ok ()
  else .error (.ofResultCode 787 "FOREIGN KEY constraint failed")

end Items

/-- The schema of items and references. -/
def Schema.items : Schema Items := ⟨Items.update, Items.select, Items.check⟩

end RowMapping
