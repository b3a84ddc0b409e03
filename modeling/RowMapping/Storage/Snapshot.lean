/-
Transactional storage with snapshots and a single writer.

The contents are of any type; a schema says what the texts of writes and queries
mean for them, and what must hold when a transaction commits. A transaction takes
its snapshot at its first read or write, and from then on sees that snapshot and
its own changes. The first write takes the lock of the only writer, which fails
when another connection has it, or when the snapshot is older than what is
committed. The lock is kept to the end of the transaction, whatever comes of the
write. Committing publishes the changed contents; a failing check leaves the
transaction open.

A savepoint remembers the contents it was set at. A savepoint outside of a
transaction begins one that its release commits.
-/
import RowMapping.Storage.Engine

set_option autoImplicit false

namespace RowMapping

variable {δ : Type}

/-! ## Schemas -/

/-- What a write makes of the contents, and what it reports. -/
structure Change (δ : Type) where
  contents : δ
  result : UpdateResult

/-- The meaning of SQL texts for contents of type `δ`. -/
structure Schema (δ : Type) where
  update : String → List Cell → δ → Except DriverError (Change δ)
  select : String → List Cell → δ → Except DriverError StoredTable
  /-- The constraints that are checked when a transaction commits. -/
  check : δ → Except DriverError Unit := fun _ => .ok ()

/-! ## State -/

/-- What a transaction sees: the snapshot it was taken from, and the contents with
its own changes. It is dirty once it has changed a row, even if the change is
taken back. -/
structure View (δ : Type) where
  version : Nat
  snapshot : δ
  contents : δ
  dirty : Bool := false

/-- A savepoint and the contents it was set at, if there was a view by then. -/
structure Savepoint (δ : Type) where
  name : String
  contents : Option δ

/-- An open transaction. The savepoints are listed from the innermost one. -/
structure OpenTransaction (δ : Type) where
  view : Option (View δ) := none
  savepoints : List (Savepoint δ) := []
  /-- Whether its first savepoint began it. -/
  bySavepoint : Bool := false

/-- The state of a connection. -/
structure Session (δ : Type) where
  transaction : Option (OpenTransaction δ) := none
  readUncommitted : Bool := false
  changes : Nat := 0

/-- A storage: the committed contents, the connection that holds the write lock,
and the connections with their states. -/
structure Storage (δ : Type) where
  contents : δ
  version : Nat := 0
  writer : Option ConnectionId := none
  sessions : ConnectionId → Session δ := fun _ => {}
  /-- The connections that are open but not in use, the next one to be used first. -/
  idle : List ConnectionId := []
  /-- The number of the next connection to be opened. -/
  next : ConnectionId := 0
  closed : Bool := false

namespace Storage

/-! ## Failures -/

/-- Another connection holds the write lock. -/
def busy : DriverError := .ofResultCode 5 "database is locked"

/-- The snapshot is older than what is committed. -/
def staleSnapshot : DriverError := .ofResultCode 517 "database is locked"

/-- A statement that makes no sense here. -/
def misuse (text : String) : DriverError := .ofResultCode 1 text

/-- A text that is no statement. -/
def syntaxError (sql : String) : DriverError :=
  misuse ("near \"" ++ Statement.firstWord sql ++ "\": syntax error")

/-! ## Sessions -/

/-- Replace the state of a connection. -/
def setSession (c : ConnectionId) (session : Session δ) (s : Storage δ) : Storage δ :=
  { s with sessions := fun i => if i = c then session else s.sessions i }

/-- Replace the transaction of a connection. -/
def setTransaction (c : ConnectionId) (t : Option (OpenTransaction δ)) (s : Storage δ) :
    Storage δ :=
  s.setSession c { s.sessions c with transaction := t }

/-- Give the write lock back, if the connection holds it. -/
def unlock (c : ConnectionId) (s : Storage δ) : Storage δ :=
  if s.writer = some c then { s with writer := none } else s

/-- Whether another connection holds the write lock. -/
def lockedAgainst (s : Storage δ) (c : ConnectionId) : Bool :=
  s.writer.any (· != c)

/-- The view of a transaction, taken now if it has none yet. -/
def viewOf (s : Storage δ) (t : OpenTransaction δ) : View δ :=
  t.view.getD { version := s.version, snapshot := s.contents, contents := s.contents }

/-- End the transaction of a connection without a trace. -/
def discard (c : ConnectionId) (s : Storage δ) : Storage δ :=
  (s.setTransaction c none).unlock c

/-- Put changed contents in the place of those that are committed. -/
def publish (contents : δ) (dirty : Bool) (s : Storage δ) : Storage δ :=
  { s with contents, version := if dirty then s.version + 1 else s.version }

/-- Count changed rows on a connection. -/
def countChanges (c : ConnectionId) (rows : Nat) (s : Storage δ) : Storage δ :=
  s.setSession c { s.sessions c with changes := (s.sessions c).changes + rows }

/-! ## Reads and writes -/

/-- The contents a connection sees. A transaction takes its snapshot. -/
def look (c : ConnectionId) (s : Storage δ) : δ × Storage δ :=
  match (s.sessions c).transaction with
  | none => (s.contents, s)
  | some t =>
    let view := s.viewOf t
    (view.contents, s.setTransaction c (some { t with view := some view }))

/-- Query the contents a connection sees. -/
def select (schema : Schema δ) (c : ConnectionId) (sql : String) (cells : List Cell)
    (s : Storage δ) : Except DriverError StoredTable × Storage δ :=
  let (contents, s) := s.look c
  (schema.select sql cells contents, s)

/-- A change, if what it makes of the contents passes a check. -/
def checked (check : δ → Except DriverError Unit) (change : Except DriverError (Change δ)) :
    Except DriverError (Change δ) := do
  let changed ← change
  check changed.contents
  pure changed

/-- Write outside of a transaction: the write is checked and published at once. -/
def writeAlone (check : δ → Except DriverError Unit) (change : δ → Except DriverError (Change δ))
    (c : ConnectionId) (s : Storage δ) : Except DriverError UpdateResult × Storage δ :=
  if s.lockedAgainst c then (.error busy, s)
  else
    match checked check (change s.contents) with
    | .error e => (.error e, s)
    | .ok changed =>
      let rows := changed.result.rowsAffected
      (.ok changed.result, (s.publish changed.contents (rows != 0)).countChanges c rows)

/-- Write in a transaction that holds the lock. -/
def writeLocked (change : δ → Except DriverError (Change δ)) (c : ConnectionId)
    (t : OpenTransaction δ) (view : View δ) (s : Storage δ) :
    Except DriverError UpdateResult × Storage δ :=
  match change view.contents with
  | .error e => (.error e, s)
  | .ok changed =>
    let rows := changed.result.rowsAffected
    let view := { view with contents := changed.contents, dirty := view.dirty || rows != 0 }
    (.ok changed.result,
      (s.setTransaction c (some { t with view := some view })).countChanges c rows)

/-- Write in a transaction. The write lock is taken first. -/
def writeWithin (change : δ → Except DriverError (Change δ)) (c : ConnectionId)
    (t : OpenTransaction δ) (s : Storage δ) : Except DriverError UpdateResult × Storage δ :=
  let view := s.viewOf t
  let s := s.setTransaction c (some { t with view := some view })
  if s.lockedAgainst c then (.error busy, s)
  else if s.writer.isNone && view.version < s.version then (.error staleSnapshot, s)
  else writeLocked change c t view { s with writer := some c }

/-- Write by an SQL text. -/
def update (schema : Schema δ) (c : ConnectionId) (sql : String) (cells : List Cell)
    (s : Storage δ) : Except DriverError UpdateResult × Storage δ :=
  match (s.sessions c).transaction with
  | none => writeAlone schema.check (schema.update sql cells) c s
  | some t => writeWithin (schema.update sql cells) c t s

/-! ## Transactions -/

/-- Begin a transaction, which may take the write lock at once. -/
def begin (immediate : Bool) (c : ConnectionId) (s : Storage δ) :
    Except DriverError Unit × Storage δ :=
  if (s.sessions c).transaction.isSome then
    (.error (misuse "cannot start a transaction within a transaction"), s)
  else if immediate then
    if s.lockedAgainst c then (.error busy, s)
    else
      let t : OpenTransaction δ := { view := some (s.viewOf {}) }
      (.ok (), { s.setTransaction c (some t) with writer := some c })
  else (.ok (), s.setTransaction c (some {}))

/-- Commit an open transaction. Only one that holds the lock has anything to
publish. -/
def commitOpen (check : δ → Except DriverError Unit) (c : ConnectionId) (t : OpenTransaction δ)
    (s : Storage δ) : Except DriverError Unit × Storage δ :=
  match t.view with
  | some view =>
    if s.writer = some c then
      match check view.contents with
      | .error e => (.error e, s)
      | .ok _ => (.ok (), (s.publish view.contents view.dirty).discard c)
    else (.ok (), s.discard c)
  | none => (.ok (), s.discard c)

/-- Commit the transaction of a connection. -/
def commit (check : δ → Except DriverError Unit) (c : ConnectionId) (s : Storage δ) :
    Except DriverError Unit × Storage δ :=
  match (s.sessions c).transaction with
  | none => (.error (misuse "cannot commit - no transaction is active"), s)
  | some t => commitOpen check c t s

/-- Roll back the transaction of a connection. -/
def rollback (c : ConnectionId) (s : Storage δ) : Except DriverError Unit × Storage δ :=
  match (s.sessions c).transaction with
  | none => (.error (misuse "cannot rollback - no transaction is active"), s)
  | some _ => (.ok (), s.discard c)

/-! ## Savepoints -/

/-- Set a savepoint. -/
def savepoint (name : String) (c : ConnectionId) (s : Storage δ) :
    Except DriverError Unit × Storage δ :=
  let t := (s.sessions c).transaction.getD { bySavepoint := true }
  let mark : Savepoint δ := ⟨name, t.view.map (·.contents)⟩
  (.ok (), s.setTransaction c (some { t with savepoints := mark :: t.savepoints }))

/-- The savepoints from the innermost one of a name on. -/
def savepointsFrom (name : String) (savepoints : List (Savepoint δ)) : List (Savepoint δ) :=
  savepoints.dropWhile fun mark => mark.name != name

/-- There is no savepoint of this name. -/
def noSavepoint (name : String) : DriverError := misuse ("no such savepoint: " ++ name)

/-- Take back what was changed since a savepoint. The savepoint stays, those set
after it do not. -/
def rollbackTo (name : String) (c : ConnectionId) (s : Storage δ) :
    Except DriverError Unit × Storage δ :=
  match (s.sessions c).transaction with
  | none => (.error (noSavepoint name), s)
  | some t =>
    match savepointsFrom name t.savepoints with
    | [] => (.error (noSavepoint name), s)
    | mark :: outer =>
      let view := t.view.map fun v => { v with contents := mark.contents.getD v.snapshot }
      (.ok (), s.setTransaction c (some { t with view, savepoints := mark :: outer }))

/-- Forget a savepoint and those set after it. -/
def release (check : δ → Except DriverError Unit) (name : String) (c : ConnectionId)
    (s : Storage δ) : Except DriverError Unit × Storage δ :=
  match (s.sessions c).transaction with
  | none => (.error (noSavepoint name), s)
  | some t =>
    match savepointsFrom name t.savepoints with
    | [] => (.error (noSavepoint name), s)
    | _ :: outer =>
      if t.bySavepoint && outer.isEmpty then commitOpen check c t s
      else (.ok (), s.setTransaction c (some { t with savepoints := outer }))

/-! ## Statements -/

/-- Run a statement on a connection. -/
def execute (check : δ → Except DriverError Unit) (c : ConnectionId) (statement : Statement)
    (s : Storage δ) : Except DriverError Unit × Storage δ :=
  match statement with
  | .beginDeferred => s.begin false c
  | .beginImmediate => s.begin true c
  | .readUncommitted allowed =>
    (.ok (), s.setSession c { s.sessions c with readUncommitted := allowed })
  | .commit => s.commit check c
  | .rollback => s.rollback c
  | .savepoint name => s.savepoint name c
  | .rollbackTo name => s.rollbackTo name c
  | .release name => s.release check name c
  | .foreignText sql => (.error (syntaxError sql), s)

/-! ## Connections -/

/-- Take a connection that is not in use, or open one. -/
def acquire (s : Storage δ) : Except ConnectionError ConnectionId × Storage δ :=
  if s.closed then (.error .closed, s)
  else match s.idle with
    | c :: idle => (.ok c, { s with idle })
    | [] => (.ok s.next, { s with next := s.next + 1 })

/-- Give a connection back as it is, or close it. -/
def giveBack (c : ConnectionId) (close : Bool) (s : Storage δ) : Storage δ :=
  if close then (s.discard c).setSession c {} else { s with idle := s.idle ++ [c] }

/-- Storage of a schema as an engine. -/
def engine (schema : Schema δ) : Engine (Storage δ) where
  acquire := acquire
  execute := execute schema.check
  update := update schema
  select := select schema
  totalChanges c s := (.ok (s.sessions c).changes, s)
  release := giveBack

end Storage

end RowMapping
