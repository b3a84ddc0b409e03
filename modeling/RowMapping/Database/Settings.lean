/-
The settings of a database.
-/
import RowMapping.Query.Argument
import RowMapping.Transaction.Settings

set_option autoImplicit false

namespace RowMapping

/-- The name of a way to write variants. -/
def EnumMode.text : EnumMode → String
  | name => "name"
  | ordinal => "ordinal"

/-- The ways to write variants. -/
def EnumMode.all : List EnumMode := [name, ordinal]

/-- Read a way to write variants from a document as written. -/
def EnumMode.ofJson : Json.Reader EnumMode := Json.readChoice EnumMode.text EnumMode.all

/-- The JSON text of a way to write variants. -/
def EnumMode.jsonText (m : EnumMode) : String := (Json.string m.text).text

/-- The settings of a database: what its scopes do by default, whether operations
may begin transactions by themselves, and how variants are written. -/
structure DatabaseSettings where
  defaultPropagation : Propagation := .required
  defaultIsolation : Isolation := .default
  allowImplicit : Bool := true
  enumMode : EnumMode := .name
deriving DecidableEq, Repr

namespace DatabaseSettings

/-- The JSON text of settings. -/
def jsonText (s : DatabaseSettings) : String :=
  Json.orderedText [("defaultPropagation", .string s.defaultPropagation.name),
    ("defaultIsolation", .string s.defaultIsolation.name),
    ("allowImplicitTransactions", .boolean s.allowImplicit),
    ("enumMode", .string s.enumMode.text)]

/-- Read settings from a document as written. Every field may be left out. -/
def ofJson : Json.Reader DatabaseSettings := fun j => do
  match ← Json.recordFields
    ["defaultPropagation", "defaultIsolation", "allowImplicitTransactions", "enumMode"] j with
  | [propagation, isolation, implicit, mode] =>
    let base : DatabaseSettings := {}
    let defaultPropagation ← Json.fieldOr base.defaultPropagation
      (Json.readChoice Propagation.name Propagation.all) propagation
    let defaultIsolation ← Json.fieldOr base.defaultIsolation
      (Json.readChoice Isolation.name Isolation.all) isolation
    let allowImplicit ← Json.fieldOr base.allowImplicit Json.readBoolean implicit
    let enumMode ← Json.fieldOr base.enumMode EnumMode.ofJson mode
    pure { defaultPropagation, defaultIsolation, allowImplicit, enumMode }
  | _ => none

/-- The settings of a scope with what the database says filled in. -/
def normalize (s : DatabaseSettings) (t : TransactionSettings) : TransactionSettings :=
  { t with
    propagation := t.propagation.normalize s.defaultPropagation
    isolation := t.isolation.normalize s.defaultIsolation }

/-- The isolation of transactions that operations begin by themselves, if they may. -/
def implicitIsolation? (s : DatabaseSettings) : Option Isolation :=
  if s.allowImplicit then some s.defaultIsolation else none

end DatabaseSettings

end RowMapping
