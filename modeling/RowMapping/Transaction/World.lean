/-
The state that scopes and operations work on, and the actions that change it.

Beside the storage there are the transactions begun so far, the rollback-only
flags of the scopes, the settings of the database, and a trace of what was run.
Transactions and flags are handed out in order and never reused. An action may
fail, and what it did before stays done.
-/
import RowMapping.Database.Settings
import RowMapping.Error.Basic
import RowMapping.Storage.Engine

set_option autoImplicit false

namespace RowMapping

/-! ## Transactions and scopes -/

/-- A transaction begun on a connection: what stays the same as long as it lives. -/
structure Transaction where
  id : Nat
  connection : ConnectionId
  isolation : Isolation
  /-- The rows changed through the connection before the transaction began. -/
  changesAtBegin : Nat
deriving DecidableEq, Repr

/-- What changes about a transaction. -/
structure TransactionState where
  /-- Whether it holds the write lock for all that is known without asking. -/
  written : Bool := false
  /-- How many savepoints it has had, as far as that can be counted. -/
  savepoints : UInt32 := 0
  /-- Whether it was committed or rolled back. -/
  finished : Bool := false
  /-- Whether its connection is checked out by the application. -/
  held : Bool := false
  /-- Whether its connection keeps settings it should not have. -/
  tainted : Bool := false
deriving DecidableEq, Repr

/-- The number of a rollback-only flag. -/
abbrev FlagId := Nat

/-- What the operations of a scope run in. -/
inductive Binding where
  | transaction (t : Transaction) (flag : FlagId)
  | nonTransactional
deriving DecidableEq, Repr

/-- A scope: what its operations run in, and the transactions it suspends, the
outermost one first. -/
structure Scope where
  binding : Binding
  suspended : List Transaction := []
deriving DecidableEq, Repr

/-- What the work of a scope is given: its transaction, if it has one, and its
rollback-only flag. -/
structure Context where
  transaction : Option Transaction
  flag : FlagId
deriving DecidableEq, Repr

/-- Whether the work runs in a transaction. -/
def Context.isTransactional (c : Context) : Bool := c.transaction.isSome

/-! ## The world -/

/-- How a statement was run: on which connection, and whether it succeeded. -/
structure Execution where
  connection : ConnectionId
  succeeded : Bool
deriving DecidableEq, Repr

/-- Something that happened: a statement of the transaction manager, the start of
the work of a scope, or a note of the application. -/
inductive Event (τ : Type) where
  | executed (execution : Execution) (statement : Statement)
  | entered (attempt : Nat) (transactional : Bool)
  | noted (entry : τ)

/-- The state of everything, over a storage of type `σ` and notes of type `τ`. -/
structure World (σ τ : Type) where
  store : σ
  transactions : Nat → TransactionState := fun _ => {}
  /-- The number of the next transaction. -/
  nextTransaction : Nat := 0
  flags : FlagId → Bool := fun _ => false
  /-- The number of the next flag. -/
  nextFlag : FlagId := 0
  settings : DatabaseSettings := {}
  trace : List (Event τ) := []

variable {σ τ ρ : Type}

namespace World

/-- Change the state of a transaction. -/
def modifyTransaction (t : Transaction) (f : TransactionState → TransactionState)
    (w : World σ τ) : World σ τ :=
  { w with transactions := fun i => if i = t.id then f (w.transactions i) else w.transactions i }

/-- The state of a transaction. -/
def stateOf (w : World σ τ) (t : Transaction) : TransactionState := w.transactions t.id

/-- Set a flag. -/
def setFlag (flag : FlagId) (w : World σ τ) : World σ τ :=
  { w with flags := fun i => if i = flag then true else w.flags i }

end World

/-! ## Actions -/

/-- Work on the world that may fail. -/
abbrev Action (σ τ ρ : Type) := ExceptT Error (StateM (World σ τ)) ρ

namespace Action

/-- Run an action. -/
def perform (a : Action σ τ ρ) (w : World σ τ) : Except Error ρ × World σ τ := a w

/-- An action by what it makes of the world. -/
def of (f : World σ τ → Except Error ρ × World σ τ) : Action σ τ ρ := f

/-- What an action came to. A failure is a result like any other. -/
def outcome (a : Action σ τ ρ) : Action σ τ (Except Error ρ) := of fun w =>
  let (result, w) := a.perform w
  (.ok result, w)

/-- Come to a result. -/
def conclude (result : Except Error ρ) : Action σ τ ρ := of fun w => (result, w)

/-- Change the world. -/
def change (f : World σ τ → World σ τ) : Action σ τ Unit := of fun w => (.ok (), f w)

/-- Look at the world. -/
def look (f : World σ τ → ρ) : Action σ τ ρ := of fun w => (.ok (f w), w)

/-- Put an event on the trace. -/
def record (event : Event τ) : Action σ τ Unit := change fun w =>
  { w with trace := w.trace ++ [event] }

/-- Work on the storage, whose failures become errors. -/
def onStore {ε : Type} (f : σ → Except ε ρ × σ) (convert : ε → Error) : Action σ τ ρ :=
  of fun w =>
    let (result, store) := f w.store
    (result.mapError convert, { w with store })

/-- A new flag, which is not set. -/
def newFlag : Action σ τ FlagId := of fun w =>
  (.ok w.nextFlag, { w with nextFlag := w.nextFlag + 1 })

end Action

end RowMapping
