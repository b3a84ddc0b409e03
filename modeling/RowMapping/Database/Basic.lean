/-
Operations on a database.

An operation resolves its arguments first, then runs on the connection that the
current scope prescribes, and turns failures of the driver into errors that name
the query. What a query returns is read and mapped after its connection is given
back.
-/
import RowMapping.Table.Instances
import RowMapping.Transaction.Manager

set_option autoImplicit false

namespace RowMapping

/-- A database: its engine, its dialect and its conversions. -/
structure Database (σ α : Type) extends Manager σ α where
  registry : Registry α

variable {σ τ α ρ : Type}

namespace Database

open RowMapping.Action

/-- A database over an engine. The dialect adds its conversions to those given. -/
def ofEngine (engine : Engine σ) (dialect : Dialect α) (registry : Registry α) : Database σ α :=
  { engine, dialect, registry := dialect.extend registry }

/-- The same database by another dialect. -/
def withDialect (db : Database σ α) (dialect : Dialect α) : Database σ α :=
  ofEngine db.engine dialect db.registry

/-- The cells that arguments are bound as. The first failure counts. -/
def cells (db : Database σ α) (mode : EnumMode) (arguments : List (Argument α)) :
    Except Error (List Cell) :=
  arguments.mapM fun a => (a.bound db.dialect db.registry mode).map Cell.ofValue

/-- Do something with a query and its cells on the connection of the current scope. -/
def run (db : Database σ α) (current : Option Scope) (access : Access) (q : Query α)
    (work : ConnectionId → String → List Cell → σ → Except DriverError ρ × σ) :
    Action σ τ ρ := do
  let settings ← look (·.settings)
  let cells ← conclude (db.cells settings.enumMode q.arguments)
  db.withConnection current settings.implicitIsolation? access fun c =>
    onStore (work c q.sql cells) fun e => db.dialect.convertError e q.display

/-! ## Writes -/

/-- Write, and report the rows changed and the key of the row inserted last. -/
def updateWithKey (db : Database σ α) (current : Option Scope) (q : Query α) :
    Action σ τ UpdateResult :=
  db.run current .write q db.engine.update

/-- Write, and report the rows changed. -/
def update (db : Database σ α) (current : Option Scope) (q : Query α) : Action σ τ Nat := do
  pure (← db.updateWithKey current q).rowsAffected

/-- Write once for each query, all on one connection. The first failure ends it. -/
def updateEach (db : Database σ α) (c : ConnectionId) :
    List (Query α × List Cell) → Action σ τ (List Nat)
  | [] => pure []
  | (q, cells) :: rest => do
    let result ← onStore (db.engine.update c q.sql cells) fun e =>
      db.dialect.convertError e q.display
    let more ← updateEach db c rest
    pure (result.rowsAffected :: more)

/-- Write once for each list of arguments. Outside of every transaction either all
of it is done or nothing. -/
def updateBatch (db : Database σ α) (current : Option Scope) (sql : String)
    (argumentLists : List (List (Argument α))) : Action σ τ (List Nat) := do
  let settings ← look (·.settings)
  let queries : List (Query α) := argumentLists.map fun arguments => { sql, arguments }
  let batches ← conclude (queries.mapM fun q => db.cells settings.enumMode q.arguments)
  db.withConnection current settings.implicitIsolation? .write fun c =>
    db.updateEach c (queries.zip batches)

/-! ## Queries -/

/-- The result of a query. -/
def findTable (db : Database σ α) (current : Option Scope) (q : Query α) :
    Action σ τ ResultTable := do
  let stored ← db.run current .read q db.engine.select
  conclude stored.read

/-- An instance of a type for every row. -/
def findAll (db : Database σ α) (current : Option Scope) (target : Target α) (q : Query α) :
    Action σ τ (List (Object α)) := do
  let table ← db.findTable current q
  conclude (table.instances db.registry target)

/-- What a function makes of every row. -/
def findAllWith {β : Type} (db : Database σ α) (current : Option Scope)
    (f : List Column → Row → Except Error β) (q : Query α) : Action σ τ (List β) := do
  let table ← db.findTable current q
  conclude (table.mapRows f)

/-- The only result of a query. -/
def findUnique (db : Database σ α) (current : Option Scope) (target : Target α) (q : Query α) :
    Action σ τ (Object α) := do
  let objects ← db.findAll current target q
  conclude (ResultTable.unique q.display objects)

/-- What a function makes of the only row. -/
def findUniqueWith {β : Type} (db : Database σ α) (current : Option Scope)
    (f : List Column → Row → Except Error β) (q : Query α) : Action σ τ β := do
  let results ← db.findAllWith current f q
  conclude (ResultTable.unique q.display results)

/-- The only result of a query, if there is one. -/
def findOptional (db : Database σ α) (current : Option Scope) (target : Target α)
    (q : Query α) : Action σ τ (Option (Object α)) := do
  let objects ← db.findAll current target q
  conclude (ResultTable.optional q.display objects)

/-- What a function makes of the only row, if there is one. -/
def findOptionalWith {β : Type} (db : Database σ α) (current : Option Scope)
    (f : List Column → Row → Except Error β) (q : Query α) : Action σ τ (Option β) := do
  let results ← db.findAllWith current f q
  conclude (ResultTable.optional q.display results)

/-- The map from the first column of a result to the others. -/
def findMap (db : Database σ α) (current : Option Scope) (same : Object α → Object α → Bool)
    (key value : Target α) (q : Query α) : Action σ τ (List (Object α × Object α)) := do
  let table ← db.findTable current q
  conclude (table.toMap db.registry same key value)

/-- What a function makes of the whole result. -/
def executeQuery {β : Type} (db : Database σ α) (current : Option Scope) (q : Query α)
    (f : ResultTable → Except Error β) : Action σ τ β := do
  let table ← db.findTable current q
  conclude (f table)

/-! ## Scopes -/

/-- Run work in a scope. What its settings leave open is up to the database. -/
def transaction (db : Database σ α) (current : Option Scope) (settings : TransactionSettings)
    (work : Manager.ScopedWork σ τ ρ) : Action σ τ ρ := do
  let defaults ← look (·.settings)
  db.withTransaction current (defaults.normalize settings) work

end Database

end RowMapping
