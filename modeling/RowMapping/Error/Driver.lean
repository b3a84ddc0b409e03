/-
What goes wrong below this library: in the database and in the handling of its
connections.
-/
import RowMapping.Text.Blank

set_option autoImplicit false

namespace RowMapping

/-- A failure reported by the database driver. Only failures of the database
itself have a code. -/
inductive DriverError where
  | rowNotFound
  | poolClosed
  | unexpectedData (text : String)
  | database (code : Option String) (text : String)
deriving DecidableEq, Repr

namespace DriverError

/-- The database's code. -/
def code? : DriverError → Option String
  | database code _ => code
  | _ => none

/-- The text of a driver failure. -/
def message : DriverError → String
  | rowNotFound => "no rows returned by a query that expected to return at least one row"
  | poolClosed => "attempted to acquire a connection on a closed pool"
  | unexpectedData text => "encountered unexpected or invalid data: " ++ text
  | database _ text => "error returned from database: " ++ text

/-- A failure of the storage engine with its numeric result code. -/
def ofResultCode (code : Nat) (text : String) : DriverError :=
  database (some (toString code)) ("(code: " ++ toString code ++ ") " ++ text)

end DriverError

/-- A failure of the connection manager. -/
inductive ConnectionError where
  | io (text : String)
  | driver (e : DriverError)
  | closed
deriving DecidableEq, Repr

/-- The text of a connection failure. -/
def ConnectionError.message : ConnectionError → String
  | io text => "IO error: " ++ text
  | driver e => "Sqlx error: " ++ e.message
  | closed => "Database has been closed"

end RowMapping
