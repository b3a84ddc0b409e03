/-
The errors of this library, their codes and their texts.

Errors raised for a query carry the query as it is displayed, so nothing that is
hidden there shows up here either.
-/
import RowMapping.Error.Cause
import RowMapping.Error.Driver

set_option autoImplicit false

namespace RowMapping

/-- An error of this library. -/
inductive Error where
  /-- The driver failed outside of any query. -/
  | driver (source : DriverError)
  /-- The connection manager failed. -/
  | connection (source : ConnectionError)
  /-- The database rejected a query. -/
  | query (source : DriverError) (query : String)
  /-- The transaction collided with another one and may be tried again. -/
  | serialization (source : DriverError) (query : String)
  /-- The database rolled the transaction back by itself. -/
  | rolledBack (source : DriverError) (query : String)
  /-- A query that should return one row returned none. -/
  | emptyResult (query : String)
  /-- A query that should return at most one row returned several. -/
  | nonUniqueResult (count : Nat) (query : String)
  /-- The result has the wrong shape. -/
  | unexpectedResult (cause : ResultCause)
  /-- No way was found to build instances from the columns. -/
  | instantiation (cause : InstantiationCause)
  /-- A value cannot be converted. -/
  | conversion (cause : ConversionCause)
  /-- The text of a query with named parameters is malformed. -/
  | sqlSyntax (cause : NamedSqlCause) (sql : String)
  /-- A named parameter has no value. -/
  | unresolved (cause : VariableCause)
  /-- An operation ran outside of any transaction. -/
  | noActiveTransaction (cause : NoTransactionCause)
  /-- A transaction is active where none may be. -/
  | illegalTransactionState (cause : TransactionStateCause)
  /-- Rolling back after a failure failed as well. -/
  | rollbackFailed (transaction rollback : String)
  /-- The transaction has already been committed or rolled back. -/
  | alreadyFinalized
  /-- An argument of a call is refused. -/
  | invalidArgument (cause : ArgumentCause)
  /-- The application failed inside a transaction. -/
  | callback (text : String)

namespace Error

/-- The code of a driver failure: the database's own, if there is one. -/
def driverCode (source : DriverError) : String :=
  match source.code? with
  | some code => "SQLITE_" ++ code
  | none => "SQLX_ERROR"

/-- The machine-readable code of an error. -/
def code : Error → String
  | driver source => driverCode source
  | connection _ => "CONNECTION_ERROR"
  | query source _ => driverCode source
  | serialization source _ => driverCode source
  | rolledBack source _ => driverCode source
  | emptyResult _ => "EMPTY_RESULT"
  | nonUniqueResult _ _ => "NON_UNIQUE_RESULT"
  | unexpectedResult _ => "UNEXPECTED_RESULT"
  | instantiation _ => "INSTANTIATION_FAILED"
  | conversion _ => "CONVERSION_FAILED"
  | sqlSyntax _ _ => "SQL_SYNTAX"
  | unresolved _ => "VARIABLE_RESOLUTION"
  | noActiveTransaction _ => "NO_ACTIVE_TRANSACTION"
  | illegalTransactionState _ => "ILLEGAL_TRANSACTION_STATE"
  | rollbackFailed _ _ => "TRANSACTION_ROLLBACK_FAILED"
  | alreadyFinalized => "TRANSACTION_ALREADY_FINALIZED"
  | invalidArgument _ => "INVALID_ARGUMENT"
  | callback _ => "CALLBACK_ERROR"

/-- A text followed by the query it is about. -/
def about (text query : String) : String := text ++ " [query: " ++ query ++ "]"

/-- The text of an error. -/
def message : Error → String
  | driver source => source.message
  | connection source => source.message
  | query source q => about source.message q
  | serialization source q => about ("transaction serialization failure: " ++ source.message) q
  | rolledBack source q => about ("transaction rolled back by the database: " ++ source.message) q
  | emptyResult q => about "expected exactly one row, but query returned none" q
  | nonUniqueResult count q =>
    about ("expected at most one row, but query returned " ++ toString count) q
  | unexpectedResult cause => "unexpected result: " ++ cause.message
  | instantiation cause => instantiationLabel ++ cause.message
  | conversion cause => "conversion failed: " ++ cause.message
  | sqlSyntax cause sql => cause.message ++ " [sql: " ++ sql ++ "]"
  | unresolved cause => cause.message
  | noActiveTransaction cause => "no active transaction: " ++ cause.message
  | illegalTransactionState cause => "illegal transaction state: " ++ cause.message
  | rollbackFailed transaction rollback =>
    "transaction failed: " ++ transaction ++ "; rollback also failed: " ++ rollback
  | alreadyFinalized => "transaction has already been finalized (committed or rolled back)"
  | invalidArgument cause => "invalid argument: " ++ cause.message
  | callback text => text

/-- Whether trying the transaction again may help. -/
def isSerializationFailure : Error → Bool
  | serialization _ _ => true
  | _ => false

/-- The query an error was raised for. -/
def query? : Error → Option String
  | query _ q => some q
  | serialization _ q => some q
  | rolledBack _ q => some q
  | emptyResult q => some q
  | nonUniqueResult _ q => some q
  | _ => none

/-- The JSON text of an error report. -/
def report (e : Error) : String :=
  Json.orderedText [("code", .string e.code), ("message", .string e.message)]

/-- The failure of both a transaction's work and its rollback. -/
def withRollback (e rollback : Error) : Error := rollbackFailed e.message rollback.message

/-- Name the column in which a conversion failed. Other errors pass unchanged. -/
def inColumn (column : String) : Error → Error
  | conversion cause => conversion (.inColumn cause column)
  | e => e

/-- A conversion failure explained by the application. -/
def conversionText (text : String) : Error := conversion (.custom text)

end Error

end RowMapping
