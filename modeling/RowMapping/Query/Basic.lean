/-
Queries: an SQL text and the arguments of its placeholders, and what is shown of them.
-/
import RowMapping.Query.Argument

set_option autoImplicit false

namespace RowMapping

variable {α : Type}

/-- An SQL text with the arguments bound to its placeholders, in order. -/
structure Query (α : Type) where
  sql : String
  arguments : List (Argument α) := []

/-- What is shown of a query: its SQL, and a text for each argument. -/
structure QueryDisplay where
  sql : String
  arguments : List String := []
deriving DecidableEq, Repr

/-- The text of what is shown of a query. -/
def QueryDisplay.text (d : QueryDisplay) : String := d.sql ++ " " ++ Text.bracketed d.arguments

instance : Coe QueryDisplay String := ⟨QueryDisplay.text⟩

/-- What is shown of a query. -/
def Query.display (q : Query α) : QueryDisplay := ⟨q.sql, Argument.displayAll q.arguments⟩

end RowMapping
