/-
Instances of types, and maps of them, from the rows of a result.

The way to build them is found once for all rows, and only if there are rows.
The keys of a map come from the first column, its values from the others; a key
that comes back keeps its place and takes the later value.
-/
import RowMapping.Instantiation.Plan
import RowMapping.Table.Basic

set_option autoImplicit false

namespace RowMapping.ResultTable

variable {α : Type}

/-- An instance of a type for every row. -/
def instances (r : Registry α) (target : Target α) (t : ResultTable) :
    Except Error (List (Object α)) :=
  if t.rows.isEmpty then .ok []
  else do
    let plan ← findPlan r target t.columns
    t.rows.mapM fun row => plan.instantiate r target.type row

/-- Put a value under a key. A key already there keeps its place. -/
def putEntry {κ β : Type} (same : κ → κ → Bool) (key : κ) (x : β) : List (κ × β) → List (κ × β)
  | [] => [(key, x)]
  | (k, y) :: rest =>
    if same k key then (k, x) :: rest else (k, y) :: putEntry same key x rest

/-- The key and the value of one row. -/
def entry (r : Registry α) (key value : Target α) (keyPlan valuePlan : Plan α) (row : Row) :
    Except Error (Object α × Object α) := do
  let k ← keyPlan.instantiate r key.type (row.take 1)
  let x ← valuePlan.instantiate r value.type (row.drop 1)
  pure (k, x)

/-- The map from the first column to the others, given when two keys are the same. -/
def toMap (r : Registry α) (same : Object α → Object α → Bool) (key value : Target α)
    (t : ResultTable) : Except Error (List (Object α × Object α)) :=
  if t.columns.length < 2 then .error (.unexpectedResult (.fewColumns t.columns.length))
  else if t.rows.isEmpty then .ok []
  else do
    let keyPlan ← findPlan r key (t.columns.take 1)
    let valuePlan ← findPlan r value (t.columns.drop 1)
    let entries ← t.rows.mapM (entry r key value keyPlan valuePlan)
    pure (entries.foldl (fun m (k, x) => putEntry same k x m) [])

end RowMapping.ResultTable
