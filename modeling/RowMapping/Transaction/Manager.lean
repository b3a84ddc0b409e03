/-
The transaction manager.

A scope runs work in a transaction of its own, in one that is already active, in
a savepoint of it, or without one, as its propagation says. A new transaction is
committed when its work succeeds, unless it was marked rollback-only, and rolled
back when it fails. A transaction that a scope suspends keeps the write lock if
it has it, and since there is only one lock, writing is refused until the scope
ends.

A connection whose transaction could not be ended, or which could not be cleaned
up after it, is closed and not used again. Nobody looks after the connections that the
application uses outside of transactions: they go back to the pool as they are.
-/
import RowMapping.Dialect.Basic
import RowMapping.Query.Basic
import RowMapping.Transaction.World

set_option autoImplicit false

namespace RowMapping

/-- Whether an operation may write. -/
inductive Access where
  | read
  | write
deriving DecidableEq, Repr

/-- What transactions are run with: a storage engine and a dialect. -/
structure Manager (σ α : Type) where
  engine : Engine σ
  dialect : Dialect α

variable {σ τ α ρ : Type}

namespace Manager

open RowMapping.Action

/-! ## Statements -/

/-- What is shown of a statement, which has no arguments. -/
def describe (sql : String) : QueryDisplay := { sql }

/-- Run a statement about transactions. It is traced together with whether it
succeeded. -/
def execute (m : Manager σ α) (c : ConnectionId) (statement : Statement) : Action σ τ Unit := do
  let result ← outcome <| onStore (m.engine.execute c statement) fun e =>
    m.dialect.convertError e (describe statement.sql)
  record (.executed ⟨c, result.isOk⟩ statement)
  conclude result

/-- Run several statements. The first failure ends them. -/
def executeAll (m : Manager σ α) (c : ConnectionId) : List Statement → Action σ τ Unit
  | [] => pure ()
  | statement :: rest => do
    m.execute c statement
    m.executeAll c rest

/-- The rows changed through a connection since it was opened. -/
def totalChanges (m : Manager σ α) (c : ConnectionId) : Action σ τ Nat :=
  onStore (m.engine.totalChanges c) fun e =>
    m.dialect.convertError e (describe "SELECT total_changes()")

/-- Take a connection from the pool. -/
def acquire (m : Manager σ α) : Action σ τ ConnectionId :=
  onStore m.engine.acquire Error.connection

/-- Give a connection back to the pool, or close it. -/
def release (m : Manager σ α) (c : ConnectionId) (close : Bool) : Action σ τ Unit :=
  change fun w => { w with store := m.engine.release c close w.store }

/-! ## One transaction -/

/-- Number a transaction that has begun. -/
def enlist (m : Manager σ α) (c : ConnectionId) (isolation : Isolation) (changes : Nat) :
    Action σ τ Transaction := of fun w =>
  let t : Transaction := ⟨w.nextTransaction, c, isolation, changes⟩
  let w := { w with nextTransaction := w.nextTransaction + 1 }
  (.ok t, w.modifyTransaction t fun _ => { written := m.dialect.locksOnBegin isolation })

/-- Begin a transaction on a connection of its own. The connection is closed if
that fails. -/
def begin (m : Manager σ α) (isolation : Isolation) : Action σ τ Transaction := do
  let c ← m.acquire
  let begun ← outcome do
    m.executeAll c (m.dialect.begin isolation)
    m.totalChanges c
  match begun with
  | .ok changes => m.enlist c isolation changes
  | .error e => do
    m.release c true
    throw e

/-- End a transaction by a statement, and clean up after it. -/
def finish (m : Manager σ α) (t : Transaction) (statement : Statement) : Action σ τ Unit := do
  if (← look (·.stateOf t)).finished then throw .alreadyFinalized
  m.execute t.connection statement
  change (·.modifyTransaction t fun s => { s with finished := true })
  match ← outcome (m.executeAll t.connection (m.dialect.finish t.isolation)) with
  | .ok _ => pure ()
  | .error _ => change (·.modifyTransaction t fun s => { s with tainted := true })

/-- Commit a transaction. -/
def commit (m : Manager σ α) (t : Transaction) : Action σ τ Unit := m.finish t m.dialect.commit

/-- Roll a transaction back. -/
def rollback (m : Manager σ α) (t : Transaction) : Action σ τ Unit :=
  m.finish t m.dialect.rollback

/-- Fail after something was taken back, or report that this failed as well. -/
def failAfter (e : Error) (undo : Action σ τ Unit) : Action σ τ ρ := do
  match ← outcome undo with
  | .ok _ => throw e
  | .error undoing => throw (e.withRollback undoing)

/-- Commit a transaction or roll it back, as its work has come out. A transaction
that cannot be committed is rolled back. -/
def complete (m : Manager σ α) (t : Transaction) (result : Except Error ρ)
    (rollbackOnly : Bool) : Action σ τ ρ :=
  match result with
  | .error e => failAfter e (m.rollback t)
  | .ok x =>
    if rollbackOnly then do
      m.rollback t
      pure x
    else do
      match ← outcome (m.commit t) with
      | .ok _ => pure x
      | .error e => do
        let _ ← outcome (m.rollback t)
        throw e

/-- Let go of a transaction. Its connection is closed unless it is fit for use. -/
def dismiss (m : Manager σ α) (t : Transaction) : Action σ τ Unit := do
  let s ← look (·.stateOf t)
  m.release t.connection (!s.finished || s.tainted)

/-- Complete a transaction and let go of it. -/
def settle (m : Manager σ α) (t : Transaction) (result : Except Error ρ) (rollbackOnly : Bool) :
    Action σ τ ρ := do
  let result ← outcome (m.complete t result rollbackOnly)
  m.dismiss t
  conclude result

/-! ## Suspended transactions -/

/-- Whether a transaction holds the write lock. The rows changed through its
connection count too, unless the connection is checked out. -/
def hasWritten (m : Manager σ α) (t : Transaction) : Action σ τ Bool := do
  let s ← look (·.stateOf t)
  if s.written then pure true
  else if s.held then pure false
  else do
    let changes ← m.totalChanges t.connection
    pure (changes != t.changesAtBegin)

/-- Fail if one of some suspended transactions holds the write lock. -/
def ensureNoWriter (m : Manager σ α) : List Transaction → Action σ τ Unit
  | [] => pure ()
  | t :: rest => do
    if ← m.hasWritten t then throw (.illegalTransactionState .suspendedWriter)
    m.ensureNoWriter rest

/-! ## Scopes -/

/-- The work of a scope, given the scope, its context and the number of the
attempt. -/
abbrev ScopedWork (σ τ ρ : Type) := Scope → Context → Nat → Action σ τ ρ

/-- Try once, and again after each collision as long as retries are left. -/
def retrying (once : Nat → Action σ τ ρ) : (retries attempt : Nat) → Action σ τ ρ
  | 0, attempt => once attempt
  | retries + 1, attempt => do
    match ← outcome (once attempt) with
    | .ok x => pure x
    | .error e =>
      if e.isSerializationFailure then retrying once retries (attempt + 1) else throw e

/-- Run work in a new transaction, once. -/
def runNewOnce (m : Manager σ α) (isolation : Isolation) (suspended : List Transaction)
    (work : ScopedWork σ τ ρ) (attempt : Nat) : Action σ τ ρ := do
  let t ← m.begin isolation
  let flag ← newFlag
  let result ← outcome (work ⟨.transaction t flag, suspended⟩ ⟨some t, flag⟩ attempt)
  m.settle t result (← look (·.flags flag))

/-- Run work in a new transaction. -/
def runNew (m : Manager σ α) (settings : TransactionSettings) (suspended : List Transaction)
    (work : ScopedWork σ τ ρ) : Action σ τ ρ := do
  if m.dialect.locksOnBegin settings.isolation then m.ensureNoWriter suspended
  retrying (m.runNewOnce settings.isolation suspended work) settings.retries 1

/-- A savepoint name that the transaction has not used before. -/
def nextSavepoint (t : Transaction) : Action σ τ String := do
  change (·.modifyTransaction t fun s => { s with savepoints := s.savepoints + 1 })
  let s ← look (·.stateOf t)
  pure ("sp_" ++ toString s.savepoints)

/-- Take back what was done since a savepoint, and forget it. -/
def undo (m : Manager σ α) (t : Transaction) (name : String) : Action σ τ Unit := do
  m.execute t.connection (m.dialect.rollbackTo name)
  m.execute t.connection (m.dialect.release name)

/-- Keep the work of a savepoint or take it back, as it has come out. -/
def leave (m : Manager σ α) (t : Transaction) (name : String) (result : Except Error ρ)
    (rollbackOnly : Bool) : Action σ τ ρ :=
  match result with
  | .error e => failAfter e (m.undo t name)
  | .ok x => do
    if rollbackOnly then m.undo t name
    else m.execute t.connection (m.dialect.release name)
    pure x

/-- Run work in a savepoint, once. -/
def runNestedOnce (m : Manager σ α) (t : Transaction) (suspended : List Transaction)
    (work : ScopedWork σ τ ρ) (attempt : Nat) : Action σ τ ρ := do
  let name ← nextSavepoint t
  m.execute t.connection (m.dialect.savepoint name)
  let flag ← newFlag
  let result ← outcome (work ⟨.transaction t flag, suspended⟩ ⟨some t, flag⟩ attempt)
  m.leave t name result (← look (·.flags flag))

/-- Run work in a savepoint. -/
def runNested (m : Manager σ α) (t : Transaction) (retries : Nat) (suspended : List Transaction)
    (work : ScopedWork σ τ ρ) : Action σ τ ρ :=
  retrying (m.runNestedOnce t suspended work) retries 1

/-- Run work without a transaction. -/
def runWithout (suspended : List Transaction) (work : ScopedWork σ τ ρ) : Action σ τ ρ := do
  let flag ← newFlag
  work ⟨.nonTransactional, suspended⟩ ⟨none, flag⟩ 1

/-- Run work inside of an active transaction. -/
def runInside (m : Manager σ α) (t : Transaction) (flag : FlagId) (suspended : List Transaction)
    (settings : TransactionSettings) (work : ScopedWork σ τ ρ) : Action σ τ ρ :=
  match settings.propagation with
  | .never => throw (.illegalTransactionState .never)
  | .requiresNew => m.runNew settings (suspended ++ [t]) work
  | .nested => m.runNested t settings.retries suspended work
  | .notSupported => runWithout (suspended ++ [t]) work
  | _ => work ⟨.transaction t flag, suspended⟩ ⟨some t, flag⟩ 1

/-- Run work where no transaction is active. -/
def runOutside (m : Manager σ α) (suspended : List Transaction) (settings : TransactionSettings)
    (work : ScopedWork σ τ ρ) : Action σ τ ρ :=
  match settings.propagation with
  | .mandatory => throw (.noActiveTransaction .mandatory)
  | .supports => runWithout suspended work
  | .notSupported => runWithout suspended work
  | .never => runWithout suspended work
  | _ => m.runNew settings suspended work

/-- Run work as settings say that have no defaults left in them. -/
def withTransaction (m : Manager σ α) (current : Option Scope) (settings : TransactionSettings)
    (work : ScopedWork σ τ ρ) : Action σ τ ρ :=
  match current with
  | some ⟨.transaction t flag, suspended⟩ => m.runInside t flag suspended settings work
  | some ⟨.nonTransactional, suspended⟩ => m.runOutside suspended settings work
  | none => m.runOutside [] settings work

/-! ## Operations -/

/-- Run an operation in a transaction of its own. -/
def runImplicit (m : Manager σ α) (isolation : Isolation)
    (operation : ConnectionId → Action σ τ ρ) : Action σ τ ρ := do
  let t ← m.begin isolation
  let result ← outcome (operation t.connection)
  m.settle t result false

/-- Run an operation on a connection outside of any transaction. -/
def runAlone (m : Manager σ α) (operation : ConnectionId → Action σ τ ρ) : Action σ τ ρ := do
  let c ← m.acquire
  let result ← outcome (operation c)
  m.release c false
  conclude result

/-- Fail if an operation would write while a suspended transaction holds the lock. -/
def ensureAccess (m : Manager σ α) (access : Access) (suspended : List Transaction) :
    Action σ τ Unit :=
  match access with
  | .read => pure ()
  | .write => m.ensureNoWriter suspended

/-- Remember that a transaction holds the write lock. -/
def markWritten (access : Access) (t : Transaction) : Action σ τ Unit :=
  match access with
  | .read => pure ()
  | .write => change (·.modifyTransaction t fun s => { s with written := true })

/-- Run an operation on the connection of the current scope. Outside of every scope
it runs in a transaction of its own, if it may. -/
def withConnection (m : Manager σ α) (current : Option Scope) (implicit : Option Isolation)
    (access : Access) (operation : ConnectionId → Action σ τ ρ) : Action σ τ ρ :=
  match current with
  | some ⟨.transaction t _, suspended⟩ => do
    m.ensureAccess access suspended
    markWritten access t
    operation t.connection
  | some ⟨.nonTransactional, suspended⟩ => do
    m.ensureAccess access suspended
    m.runAlone operation
  | none =>
    match implicit with
    | some isolation => m.runImplicit isolation operation
    | none => throw (.noActiveTransaction .implicitDisabled)

/-! ## Connections of contexts -/

/-- Let the application use the connection of a context: that of its transaction,
or one from the pool. -/
def useConnection (m : Manager σ α) (ctx : Context) (operation : ConnectionId → Action σ τ ρ) :
    Action σ τ ρ :=
  match ctx.transaction with
  | some t => operation t.connection
  -- it goes back to the pool as it is, with whatever the application has left open on it
  | none => m.runAlone operation

/-- Keep the connection of a context checked out while something else runs. -/
def holding (m : Manager σ α) (ctx : Context) (meanwhile : Action σ τ ρ) : Action σ τ ρ :=
  match ctx.transaction with
  | some t => do
    change (·.modifyTransaction t fun s => { s with held := true })
    let result ← outcome meanwhile
    change (·.modifyTransaction t fun s => { s with held := false })
    conclude result
  | none => m.useConnection ctx fun _ => meanwhile

end Manager

/-- Whether a scope has an active transaction. -/
def Scope.hasTransaction : Option Scope → Bool
  | some ⟨.transaction .., _⟩ => true
  | _ => false

end RowMapping
