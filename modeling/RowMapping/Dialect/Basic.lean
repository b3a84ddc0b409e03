/-
Dialects: what differs from one database to the next.

A dialect brings values into the form they are bound in, knows the statements of
a transaction, and makes errors of the failures of the driver. What those of the two
dialects here depend on is a class of failures: the transaction has collided with
another one, or was rolled back by the database, or neither.
-/
import RowMapping.Conversion.Registry
import RowMapping.Dialect.Statement
import RowMapping.Query.Basic
import RowMapping.Transaction.Settings

set_option autoImplicit false

namespace RowMapping

variable {α : Type}

/-- What a failure of the driver means for the transaction. -/
inductive FailureClass where
  /-- It collided with another transaction and may be tried again. -/
  | serialization
  /-- The database rolled it back. -/
  | rolledBack
  /-- Nothing in particular. -/
  | other
deriving DecidableEq, Repr

/-- The error of a failure of the driver at a query. -/
def FailureClass.error (c : FailureClass) (source : DriverError) (query : QueryDisplay) :
    Error :=
  match c with
  | serialization => .serialization source query
  | rolledBack => .rolledBack source query
  | other => .query source query

/-- What differs from one database to the next. -/
structure Dialect (α : Type) where
  name : String
  /-- The form a value is bound in. -/
  write : Value → Except Error Value := .ok
  /-- Registers the conversions of the database. -/
  extend : Registry α → Registry α := id
  /-- The statements that begin a transaction. -/
  begin : Isolation → List Statement
  /-- Whether a transaction holds the write lock from its beginning. -/
  locksOnBegin : Isolation → Bool := fun _ => false
  /-- The statements that clean up after a transaction. -/
  finish : Isolation → List Statement := fun _ => []
  commit : Statement := .commit
  rollback : Statement := .rollback
  savepoint : String → Statement := .savepoint
  rollbackTo : String → Statement := .rollbackTo
  release : String → Statement := .release
  /-- The error of a failure of the driver at a query. A dialect sees of the query what is
  shown of it, and cannot look into its arguments. -/
  convertError : DriverError → QueryDisplay → Error

namespace Dialect

/-! ## SQLite -/

/-- The form a value is stored in: dates and times as their texts, documents and
arrays as JSON texts. A timestamp without a text is stored as nothing. -/
def storedForm : Value → Value
  | .json j => .text j.text
  | .array items => .text (Value.array items).toJson.text
  | .date d => .text (String.ofList d.write)
  | .time t => .text (String.ofList t.write)
  | .dateTime t => .text (String.ofList t.write)
  | .timestamp t => match t.write? with
    | some cs => .text (String.ofList cs)
    | none => .null
  | v => v

/-- The result code of a failure, if its code is the text of a 32-bit number. -/
def resultCode? (source : DriverError) : Option Int := do
  let code ← source.code?
  let n ← Floating.signedDigits? code.toList
  if -0x80000000 ≤ n ∧ n < 0x80000000 then some n else none

/-- The primary result codes for a busy database and a locked table. A result code
has the primary one in its last byte. -/
def isContention (code : Int) : Bool := code % 256 == 5 || code % 256 == 6

/-- Failures for lack of a lock are collisions. -/
def classifyResult (source : DriverError) : FailureClass :=
  match resultCode? source with
  | some code => if isContention code then .serialization else .other
  | none => .other

/-- The statements that begin a transaction in SQLite. -/
def sqliteBegin : Isolation → List Statement
  | .serializable => [.beginImmediate]
  | .readUncommitted => [.readUncommitted true, .beginDeferred]
  | _ => [.beginDeferred]

/-- The statements that clean up after a transaction in SQLite. -/
def sqliteFinish : Isolation → List Statement
  | .readUncommitted => [.readUncommitted false]
  | _ => []

/-- The dialect of SQLite. -/
def sqlite : Dialect α where
  name := "sqlite"
  write v := .ok (storedForm v)
  begin := sqliteBegin
  locksOnBegin i := i == .serializable
  finish := sqliteFinish
  convertError source := (classifyResult source).error source

/-! ## Standard SQL -/

/-- In standard SQL the class 40 of states is for transactions rolled back, and one
of its states for collisions. -/
def classifyState (source : DriverError) : FailureClass :=
  match source.code? with
  | none => .other
  | some state =>
    if state = "40001" then .serialization
    else if ['4', '0'].isPrefixOf state.toList then .rolledBack
    else .other

/-- The dialect of standard SQL, which sets the isolation by a statement. -/
def generic : Dialect α where
  name := "generic"
  begin i := .beginDeferred :: match i.sqlName? with
    | some level => [.foreignText ("SET TRANSACTION ISOLATION LEVEL " ++ level)]
    | none => []
  convertError source := (classifyState source).error source

end Dialect

/-- The value an argument is bound as: resolved, and brought into the form of the
dialect. -/
def Argument.bound (a : Argument α) (d : Dialect α) (r : Registry α) (mode : EnumMode) :
    Except Error Value :=
  (a.resolve r mode).bind d.write

end RowMapping
