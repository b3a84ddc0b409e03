/-
The settings of the connections to a database.
-/
import RowMapping.Json.Record

set_option autoImplicit false

namespace RowMapping

/-- The settings of the connections to a database file. -/
structure ConnectionSettings where
  maxConnections : Nat := 6
  idleTimeoutSeconds : Nat := 30
  busyTimeoutMillis : Nat := 5000
deriving DecidableEq, Repr

namespace ConnectionSettings

/-- The JSON text of settings. -/
def jsonText (s : ConnectionSettings) : String :=
  Json.orderedText [("max_connections", Json.ofInt s.maxConnections),
    ("idle_timeout_secs", Json.ofInt s.idleTimeoutSeconds),
    ("busy_timeout_ms", Json.ofInt s.busyTimeoutMillis)]

/-- Read settings from a document as written. Every field may be left out. -/
def ofJson : Json.Reader ConnectionSettings := fun j => do
  match ← Json.recordFields ["max_connections", "idle_timeout_secs", "busy_timeout_ms"] j with
  | [connections, idle, busy] =>
    let maxConnections ← Json.fieldOr 6 (Json.readWord 32) connections
    let idleTimeoutSeconds ← Json.fieldOr 30 (Json.readWord 64) idle
    let busyTimeoutMillis ← Json.fieldOr 5000 (Json.readWord 64) busy
    pure { maxConnections, idleTimeoutSeconds, busyTimeoutMillis }
  | _ => none

end ConnectionSettings

end RowMapping
