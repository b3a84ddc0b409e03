/-
The settings of transactional scopes: how a scope relates to a transaction that
is already active, which isolation a new transaction asks for, and how often it
is tried again.
-/
import RowMapping.Json.Record
import RowMapping.Text.Blank

set_option autoImplicit false

namespace RowMapping

/-! ## Propagation -/

/-- How a scope relates to a transaction that is already active. -/
inductive Propagation where
  /-- As the database says. -/
  | default
  /-- Join the active transaction, or begin a new one. -/
  | required
  /-- Join the active transaction; fail if there is none. -/
  | mandatory
  /-- Suspend the active transaction and begin a new one. -/
  | requiresNew
  /-- Run in a savepoint of the active transaction, or begin a new one. -/
  | nested
  /-- Join the active transaction, or run without one. -/
  | supports
  /-- Suspend the active transaction and run without one. -/
  | notSupported
  /-- Run without a transaction; fail if one is active. -/
  | never
deriving DecidableEq, Repr

namespace Propagation

/-- The name of a propagation. -/
def name : Propagation → String
  | default => "DEFAULT"
  | required => "REQUIRED"
  | mandatory => "MANDATORY"
  | requiresNew => "REQUIRES_NEW"
  | nested => "NESTED"
  | supports => "SUPPORTS"
  | notSupported => "NOT_SUPPORTED"
  | never => "NEVER"

/-- All propagations. -/
def all : List Propagation :=
  [default, required, mandatory, requiresNew, nested, supports, notSupported, never]

/-- The propagation that counts, given that of the database. -/
def normalize (p fallback : Propagation) : Propagation :=
  match p, fallback with
  | default, default => required
  | default, fallback => fallback
  | p, _ => p

/-- What counts is never left to the database. -/
theorem normalize_ne_default (p fallback : Propagation) : p.normalize fallback ≠ default := by
  cases p <;> cases fallback <;> simp [normalize]

end Propagation

/-! ## Isolation -/

/-- The isolation a new transaction asks for. -/
inductive Isolation where
  /-- As the database says, or whatever it does by itself. -/
  | default
  | readUncommitted
  | readCommitted
  | repeatableRead
  | serializable
deriving DecidableEq, Repr

namespace Isolation

/-- The name of an isolation. -/
def name : Isolation → String
  | default => "DEFAULT"
  | readUncommitted => "READ_UNCOMMITTED"
  | readCommitted => "READ_COMMITTED"
  | repeatableRead => "REPEATABLE_READ"
  | serializable => "SERIALIZABLE"

/-- All isolations. -/
def all : List Isolation :=
  [default, readUncommitted, readCommitted, repeatableRead, serializable]

/-- The isolation that counts, given that of the database. -/
def normalize (i fallback : Isolation) : Isolation :=
  match i with
  | default => fallback
  | i => i

/-- The name of an isolation in SQL. -/
def sqlName? : Isolation → Option String
  | default => none
  | readUncommitted => some "READ UNCOMMITTED"
  | readCommitted => some "READ COMMITTED"
  | repeatableRead => some "REPEATABLE READ"
  | serializable => some "SERIALIZABLE"

end Isolation

/-! ## Settings of a scope -/

/-- The settings of one scope. -/
structure TransactionSettings where
  propagation : Propagation := .default
  isolation : Isolation := .default
  /-- How often a new transaction is tried again after it collided with another one. -/
  retries : Nat := 0
deriving DecidableEq, Repr

namespace TransactionSettings

/-- The text shown for settings. -/
def display (s : TransactionSettings) : String :=
  "[propagation=" ++ s.propagation.name ++ ", isolation=" ++ s.isolation.name ++ ", retries="
    ++ toString s.retries ++ "]"

/-- The JSON text of settings. -/
def jsonText (s : TransactionSettings) : String :=
  Json.orderedText [("propagation", .string s.propagation.name),
    ("isolation", .string s.isolation.name), ("retries", Json.ofInt s.retries)]

/-- Read settings from a document as written. Every field may be left out. -/
def ofJson : Json.Reader TransactionSettings := fun j => do
  match ← Json.recordFields ["propagation", "isolation", "retries"] j with
  | [propagation, isolation, retries] =>
    let propagation ← Json.fieldOr .default
      (Json.readChoice Propagation.name Propagation.all) propagation
    let isolation ← Json.fieldOr .default
      (Json.readChoice Isolation.name Isolation.all) isolation
    let retries ← Json.fieldOr 0 (Json.readWord 32) retries
    pure { propagation, isolation, retries }
  | _ => none

end TransactionSettings

end RowMapping
