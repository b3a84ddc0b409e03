/-
Statements that begin, divide and end transactions.
-/
set_option autoImplicit false

namespace RowMapping

/-- A statement about transactions. -/
inductive Statement where
  /-- Begin a transaction that takes nothing until it reads or writes. -/
  | beginDeferred
  /-- Begin a transaction that takes the write lock at once. -/
  | beginImmediate
  /-- Whether the connection may read what is not committed. -/
  | readUncommitted (allowed : Bool)
  | commit
  | rollback
  | savepoint (name : String)
  | rollbackTo (name : String)
  | release (name : String)
  /-- A statement of another database. -/
  | foreignText (sql : String)
deriving DecidableEq, Repr

namespace Statement

/-- The SQL text of a statement. -/
def sql : Statement → String
  | beginDeferred => "BEGIN"
  | beginImmediate => "BEGIN IMMEDIATE"
  | readUncommitted allowed => "PRAGMA read_uncommitted = " ++ if allowed then "1" else "0"
  | commit => "COMMIT"
  | rollback => "ROLLBACK"
  | savepoint name => "SAVEPOINT " ++ name
  | rollbackTo name => "ROLLBACK TO SAVEPOINT " ++ name
  | release name => "RELEASE SAVEPOINT " ++ name
  | foreignText sql => sql

/-- The first word of a text. -/
def firstWord (sql : String) : String :=
  String.ofList (sql.toList.takeWhile (· != ' '))

end Statement

end RowMapping
