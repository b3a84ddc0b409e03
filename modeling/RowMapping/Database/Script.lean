/-
Scripts: what an application does with a database on one task.

A script is a tree. Each step goes on as the result of the step says, so a script
can look at results, swallow failures, and raise its own. The work of a scope
depends on the number of its attempt. The scopes a step runs in are counted from
the innermost one, so a script reaches the contexts of exactly the scopes it is
in.
-/
import RowMapping.Database.Basic

set_option autoImplicit false

namespace RowMapping

/-- An operation on the database. -/
inductive Operation (α : Type) where
  | update (q : Query α)
  | updateBatch (sql : String) (argumentLists : List (List (Argument α)))
  | find (q : Query α)

/-- What an operation answers. -/
inductive Answer where
  | updated (result : UpdateResult)
  | batch (rows : List Nat)
  | found (table : ResultTable)
  | done

/-- An operation on the connection of a context, past the database. -/
inductive ConnectionOperation where
  | update (sql : String) (cells : List Cell)
  | execute (statement : Statement)

/-- What a script can see of where it runs. -/
structure Observation where
  /-- Whether a transaction is active. -/
  active : Bool
  /-- Whether each scope has a transaction and whether it is marked rollback-only,
  from the innermost one on. -/
  contexts : List (Bool × Bool)
  settings : DatabaseSettings

/-- What an application does on one task. Its notes are of type `τ`, the results of
its scopes of type `ρ`. -/
inductive Script (α τ ρ : Type) where
  /-- Return, or fail. -/
  | finish (result : Except Error ρ)
  /-- Put a note on the trace. -/
  | note (entry : τ) (next : Script α τ ρ)
  /-- Run an operation on the database. -/
  | operate (operation : Operation α) (next : Except Error Answer → Script α τ ρ)
  /-- Run an operation on the connection of a scope. -/
  | bypass (depth : Nat) (operation : ConnectionOperation)
      (next : Except Error Answer → Script α τ ρ)
  /-- Mark a scope rollback-only. -/
  | setRollbackOnly (depth : Nat) (next : Script α τ ρ)
  /-- Look around. -/
  | observe (next : Observation → Script α τ ρ)
  /-- Change the settings of the database. -/
  | configure (change : DatabaseSettings → DatabaseSettings) (next : Script α τ ρ)
  /-- Run a scope. -/
  | scope (settings : TransactionSettings) (work : Nat → Script α τ ρ)
      (next : Except Error ρ → Script α τ ρ)
  /-- Keep the connection of a scope checked out while something else is done. -/
  | hold (depth : Nat) (meanwhile : Script α τ ρ) (next : Except Error ρ → Script α τ ρ)
  /-- Do something by another handle of the database, with a dialect and settings
  of its own, which sees none of the scopes of this one. -/
  | elsewhere (dialect : Dialect α) (work : Script α τ ρ)
      (next : Except Error ρ → Script α τ ρ)

/-- Where a script runs: its scope, and the contexts of the scopes around it from the
innermost one on. -/
structure Surroundings where
  scope : Option Scope := none
  contexts : List Context := []

variable {σ τ α ρ : Type}

/-- Whether a transaction is active. -/
def Surroundings.hasActiveTransaction (here : Surroundings) : Bool :=
  Scope.hasTransaction here.scope

namespace Script

open RowMapping.Action

/-- Run an operation on the database. -/
def answer (db : Database σ α) (current : Option Scope) : Operation α → Action σ τ Answer
  | .update q => do pure (.updated (← db.updateWithKey current q))
  | .updateBatch sql argumentLists => do pure (.batch (← db.updateBatch current sql argumentLists))
  | .find q => do pure (.found (← db.findTable current q))

/-- Run an operation on a connection. Its failures name no query. -/
def answerOn (db : Database σ α) (c : ConnectionId) : ConnectionOperation → Action σ τ Answer
  | .update sql cells => do
    let result ← onStore (db.engine.update c sql cells) Error.driver
    pure (.updated result)
  | .execute statement => do
    onStore (db.engine.execute c statement) Error.driver
    pure .done

/-- Run an operation on the connection of a scope. -/
def answerPast (db : Database σ α) (here : Surroundings) (depth : Nat)
    (operation : ConnectionOperation) : Action σ τ Answer :=
  match here.contexts[depth]? with
  | some ctx => db.useConnection ctx fun c => answerOn db c operation
  | none => throw (.noActiveTransaction (.custom "there is no such scope"))

/-- Mark a scope rollback-only, if there is one. -/
def mark (here : Surroundings) (depth : Nat) : Action σ τ Unit :=
  match here.contexts[depth]? with
  | some ctx => change (World.setFlag ctx.flag)
  | none => pure ()

/-- Keep the connection of a scope checked out, if there is one. -/
def holding (db : Database σ α) (here : Surroundings) (depth : Nat) (meanwhile : Action σ τ ρ) :
    Action σ τ ρ :=
  match here.contexts[depth]? with
  | some ctx => db.toManager.holding ctx meanwhile
  | none => meanwhile

/-- What can be seen. -/
def observation (here : Surroundings) (w : World σ τ) : Observation where
  active := here.hasActiveTransaction
  contexts := here.contexts.map fun ctx => (ctx.isTransactional, w.flags ctx.flag)
  settings := w.settings

/-- Run an action whose changes to the settings do not last. -/
def withOwnSettings (a : Action σ τ ρ) : Action σ τ ρ := do
  let settings ← look (·.settings)
  let result ← outcome a
  change fun w => { w with settings }
  conclude result

/-- Run a script. -/
def run : Script α τ ρ → Database σ α → Surroundings → Action σ τ ρ
  | finish result, _, _ => conclude result
  | note entry next, db, here => do
    record (.noted entry)
    next.run db here
  | operate operation next, db, here => do
    let r ← outcome (answer db here.scope operation)
    (next r).run db here
  | bypass depth operation next, db, here => do
    let r ← outcome (answerPast db here depth operation)
    (next r).run db here
  | setRollbackOnly depth next, db, here => do
    mark here depth
    next.run db here
  | observe next, db, here => do
    let seen ← look (observation here)
    (next seen).run db here
  | configure change next, db, here => do
    Action.change fun w => { w with settings := change w.settings }
    next.run db here
  | scope settings work next, db, here => do
    let r ← outcome <| db.transaction here.scope settings fun inner ctx attempt => do
      record (.entered attempt ctx.isTransactional)
      (work attempt).run db ⟨some inner, ctx :: here.contexts⟩
    (next r).run db here
  | hold depth meanwhile next, db, here => do
    let r ← outcome (holding db here depth (meanwhile.run db here))
    (next r).run db here
  | elsewhere dialect work next, db, here => do
    let r ← outcome <| withOwnSettings <|
      work.run (db.withDialect dialect) { here with scope := none }
    (next r).run db here

end Script

end RowMapping
