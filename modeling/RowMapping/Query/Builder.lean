/-
Queries built piece by piece.

A builder collects text and arguments. The steps that can fail look at what they
are given before they change anything. Steps give a new builder, or they are
carried out in place, on a builder that keeps what a failing step has changed.
-/
import RowMapping.Query.Basic

set_option autoImplicit false

namespace RowMapping

variable {α : Type}

/-- The text and the arguments of a query under construction. -/
structure QueryBuilder (α : Type) where
  sql : String := ""
  arguments : List (Argument α) := []

namespace QueryBuilder

/-- Append text. -/
def append (b : QueryBuilder α) (sql : String) : QueryBuilder α :=
  { b with sql := b.sql ++ sql }

/-- Append arguments. -/
def addArguments (b : QueryBuilder α) (arguments : List (Argument α)) : QueryBuilder α :=
  { b with arguments := b.arguments ++ arguments }

/-- Append text together with the arguments of its placeholders. -/
def appendWith (b : QueryBuilder α) (sql : String) (arguments : List (Argument α)) :
    QueryBuilder α :=
  (b.append sql).addArguments arguments

/-- Append the text and the arguments of a query. -/
def appendQuery (b : QueryBuilder α) (q : Query α) : QueryBuilder α :=
  b.appendWith q.sql q.arguments

/-- Placeholders with commas between them. -/
def placeholders (count : Nat) : String :=
  String.ofList ([','].intercalate (List.replicate count ['?']))

/-- Append placeholders with commas between them. There has to be one at least. -/
def appendPlaceholders (b : QueryBuilder α) (count : Nat) : Except Error (QueryBuilder α) :=
  if count = 0 then .error (.invalidArgument .noPlaceholders)
  else .ok (b.append (placeholders count))

/-- Append a placeholder for every argument, and the arguments. -/
def appendPlaceholdersFor (b : QueryBuilder α) (arguments : List (Argument α)) :
    Except Error (QueryBuilder α) :=
  (b.appendPlaceholders arguments.length).map (·.addArguments arguments)

/-- Whether there is no text yet. -/
def isEmpty (b : QueryBuilder α) : Bool := b.sql.isEmpty

/-- Whether there are arguments. -/
def hasArguments (b : QueryBuilder α) : Bool := !b.arguments.isEmpty

/-- The query built so far. It needs a text. -/
def build (b : QueryBuilder α) : Except Error (Query α) :=
  if b.sql.isEmpty then .error (.invalidArgument .emptyQuery) else .ok ⟨b.sql, b.arguments⟩

end QueryBuilder

/-! ## Steps -/

/-- A step of building a query. -/
inductive BuildingStep (α : Type) where
  | append (sql : String)
  | addArguments (arguments : List (Argument α))
  | appendWith (sql : String) (arguments : List (Argument α))
  | appendQuery (q : Query α)
  | appendPlaceholders (count : Nat)
  | appendPlaceholdersFor (arguments : List (Argument α))

namespace QueryBuilder

/-- One step of building a query. -/
def perform (b : QueryBuilder α) : BuildingStep α → Except Error (QueryBuilder α)
  | .append sql => .ok (b.append sql)
  | .addArguments arguments => .ok (b.addArguments arguments)
  | .appendWith sql arguments => .ok (b.appendWith sql arguments)
  | .appendQuery q => .ok (b.appendQuery q)
  | .appendPlaceholders count => b.appendPlaceholders count
  | .appendPlaceholdersFor arguments => b.appendPlaceholdersFor arguments

/-- Steps one after another. A step that fails leaves the builder as it was. -/
def performAll (b : QueryBuilder α) (steps : List (BuildingStep α)) : QueryBuilder α :=
  steps.foldl (fun b step => (b.perform step).toOption.getD b) b

end QueryBuilder

/-! ## Building in place -/

/-- Work on a builder that may fail. What it did before it failed stays done. -/
abbrev Building (α ρ : Type) := ExceptT Error (StateM (QueryBuilder α)) ρ

namespace Building

/-- Do the work on a builder: what it came to, and the builder it left. -/
def perform {ρ : Type} (work : Building α ρ) (b : QueryBuilder α) :
    Except Error ρ × QueryBuilder α :=
  work b

/-- Put text at the end. -/
def append (sql : String) : Building α Unit := modify fun b => { b with sql := b.sql ++ sql }

/-- Put arguments at the end. -/
def addArguments (arguments : List (Argument α)) : Building α Unit :=
  modify fun b => { b with arguments := b.arguments ++ arguments }

/-- Put text at the end, then the arguments of its placeholders. -/
def appendWith (sql : String) (arguments : List (Argument α)) : Building α Unit := do
  append sql
  addArguments arguments

/-- Put placeholders at the end one by one, each but the first after a comma. The
count is looked at before anything is put there. -/
def appendPlaceholders (count : Nat) : Building α Unit := do
  if count = 0 then throw (.invalidArgument .noPlaceholders)
  append "?"
  (List.replicate (count - 1) ",?").forM append

/-- Put a placeholder for every argument at the end, then the arguments. -/
def appendPlaceholdersFor (arguments : List (Argument α)) : Building α Unit := do
  appendPlaceholders arguments.length
  addArguments arguments

/-- A step of building a query, carried out in place. -/
def ofStep : BuildingStep α → Building α Unit
  | .append sql => append sql
  | .addArguments arguments => addArguments arguments
  | .appendWith sql arguments => appendWith sql arguments
  | .appendQuery q => appendWith q.sql q.arguments
  | .appendPlaceholders count => appendPlaceholders count
  | .appendPlaceholdersFor arguments => appendPlaceholdersFor arguments

/-- Steps carried out in place one after another, each on the builder that the one
before it left, whether that one failed or not. -/
def performAll (b : QueryBuilder α) (steps : List (BuildingStep α)) : QueryBuilder α :=
  steps.foldl (fun b step => ((ofStep step).perform b).2) b

end Building

end RowMapping
