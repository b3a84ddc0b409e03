/-
What the transactions of this library ask of a storage engine.

Connections have numbers. One is acquired, used and released; when it is released
it is kept for the next user as it stands, or closed, which rolls back what is
open on it. The engine runs statements about transactions, writes and queries on
a connection, and counts the rows ever changed through it.

Everything above works for any engine, so whatever is shown of it holds also when
an engine fails where it may.
-/
import RowMapping.Dialect.Statement
import RowMapping.Storage.Decode
import RowMapping.Storage.UpdateResult

set_option autoImplicit false

namespace RowMapping

/-- The number of a connection. -/
abbrev ConnectionId := Nat

/-- A storage engine whose state is of type `σ`. -/
structure Engine (σ : Type) where
  acquire : σ → Except ConnectionError ConnectionId × σ
  execute : ConnectionId → Statement → σ → Except DriverError Unit × σ
  /-- Write by an SQL text and the cells of its placeholders. -/
  update : ConnectionId → String → List Cell → σ → Except DriverError UpdateResult × σ
  /-- Query by an SQL text and the cells of its placeholders. -/
  select : ConnectionId → String → List Cell → σ → Except DriverError StoredTable × σ
  /-- The rows changed through the connection since it was opened. -/
  totalChanges : ConnectionId → σ → Except DriverError Nat × σ
  /-- Give the connection back, or close it. -/
  release : ConnectionId → (close : Bool) → σ → σ

end RowMapping
