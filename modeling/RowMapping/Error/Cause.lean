/-
Why a value, a result or a call cannot be processed.

Each kind of failure lists its causes; the wording of a cause is one function.
Every list has a cause without structure for the conversions, constructors and
resolvers of the application, which explain themselves in words of their own.
-/
import RowMapping.Table.Column
import RowMapping.Target.Type
import RowMapping.Text.Utf8
import RowMapping.Url.Host
import RowMapping.Uuid

set_option autoImplicit false

namespace RowMapping

/-! ## Conversions -/

/-- Why a value cannot be converted. -/
inductive ConversionCause where
  /-- No conversion is registered that would write objects of the type. -/
  | unregistered (target : TargetType)
  /-- Missing values are no instances of the type. -/
  | null (target : TargetType)
  /-- An object has another type than its reader expects. -/
  | wrongType (expected : TargetType)
  /-- The value cannot be read as the type of this name. -/
  | unreadable (value : Value) (target : String)
  /-- The number is not one of the integer type. -/
  | outOfRange (i : Int64) (t : IntegerType)
  /-- No date lies this many seconds from the epoch. -/
  | unixTime (seconds : Int64)
  /-- The text is not a UUID. -/
  | uuidText (value : Value) (fault : Uuid.Fault)
  /-- The bytes are not a UUID. -/
  | uuidBytes
  /-- The text is not a URL. -/
  | urlText (value : Value) (cause : UrlError)
  /-- The value has another kind than the one it was announced with. -/
  | kindMismatch (expected found : ValueKind)
  /-- The value is neither the name nor the place of a variant. -/
  | notVariant (value : Value) (e : EnumType)
  /-- No conversion leads from the value to the type. -/
  | noConversion (value : Value) (target : TargetType)
  /-- The value is not a list. -/
  | notList (value : Value)
  /-- A stored text is not UTF-8. -/
  | undecodable (fault : Utf8Fault)
  /-- An application's own explanation. -/
  | custom (text : String)
  /-- Another cause, met in a column. -/
  | inColumn (cause : ConversionCause) (column : String)

/-- The text of a conversion failure. The fault of a text that is no UUID is named where the
value is a document, whose text the message does not quote. -/
def ConversionCause.message : ConversionCause → String
  | unregistered target => "no conversion to database registered for " ++ target.name
  | null target => "cannot convert NULL to " ++ target.name
  | wrongType expected =>
    "conversion produced a value of the wrong type, expected " ++ expected.name
  | unreadable value target =>
    "cannot convert " ++ value.kind.name ++ " " ++ value.display ++ " to " ++ target
  | outOfRange i t => "value " ++ toString i.toInt ++ " is out of range for " ++ t.name
  | unixTime seconds =>
    "invalid unix timestamp " ++ toString seconds.toInt ++ ": timestamp was not in range"
  | uuidText value fault =>
    "invalid UUID " ++ value.display ++ ":"
      ++ (if value.kind = .json then " " ++ fault.message else "")
  | uuidBytes => "invalid UUID bytes:"
  | urlText value cause => "invalid URL " ++ value.display ++ ": " ++ cause.message
  | kindMismatch expected found => "expected " ++ expected.name ++ " value, got " ++ found.name
  | notVariant value e => value.display ++ " is not a valid value of enum " ++ e.name
  | noConversion value target =>
    "no conversion from " ++ value.kind.name ++ " " ++ value.display ++ " to " ++ target.name
  | notList value => value.display ++ " is not an array"
  | undecodable fault =>
    "failed to decode TEXT value: error occurred while decoding: " ++ fault.message
  | custom text => text
  | inColumn cause column => cause.message ++ " (column '" ++ column ++ "')"

/-! ## Instantiation -/

/-- Two properties match the same path. -/
structure PropertyConflict where
  path : String
  first : String
  second : String
deriving DecidableEq, Repr

/-- The text of a property conflict. -/
def PropertyConflict.message (c : PropertyConflict) : String :=
  "column '" ++ c.path ++ "' matches both property '" ++ c.first ++ "' and property '"
    ++ c.second ++ "'"

/-- What stands in front of an instantiation failure. -/
def instantiationLabel : String := "instantiation failed: "

/-- Why a constructor cannot be used for some columns. -/
inductive Rejection where
  /-- It has more parameters than there are columns. -/
  | tooManyParameters (parameters columns : Nat)
  /-- A column cannot be converted to the type of its parameter. -/
  | parameter (column : Column) (parameter : Parameter)
  /-- A column matches two properties. -/
  | conflict (c : PropertyConflict)
  /-- A column matches neither a parameter nor a property. -/
  | unmatched (column : Column)
  /-- A column cannot be converted to the type of its property. -/
  | property (column : Column) (target : TargetType)
deriving DecidableEq, Repr

/-- The text of a rejection. -/
def Rejection.message : Rejection → String
  | tooManyParameters parameters columns =>
    "needs " ++ toString parameters ++ " parameters but the result has " ++ toString columns
      ++ " columns"
  | parameter column p =>
    "no conversion from " ++ column.kind.name ++ " column '" ++ column.name ++ "' to "
      ++ p.target.name ++ " for parameter '" ++ p.name ++ "'"
  | conflict c => instantiationLabel ++ c.message
  | unmatched column => "no parameter or property matches column '" ++ column.name ++ "'"
  | property column target =>
    "no conversion from " ++ column.kind.name ++ " column '" ++ column.name
      ++ "' to property of type " ++ target.name

/-- A constructor as it is listed in messages. -/
def describeConstructor (target : TargetType) (parameters : List Parameter) : String :=
  target.name ++ "(" ++ Text.join ", " (parameters.map Parameter.describe) ++ ")"

/-- Why no way was found to build instances of a type from some columns. -/
inductive InstantiationCause where
  /-- There is neither a conversion nor a constructor. -/
  | noConstructors (target : TargetType) (columns : List Column)
  /-- Every constructor was rejected. -/
  | allRejected (target : TargetType) (columns : List Column)
      (rejections : List (List Parameter × Rejection))
  /-- Two constructors share the greatest rank. -/
  | ambiguous (target : TargetType) (columns : List Column) (first second : List Parameter)
      (score : Nat)
  /-- Two properties match a column. -/
  | conflict (c : PropertyConflict)
  /-- A constructor read more arguments than it has parameters. -/
  | argumentsExhausted
  /-- An explanation without structure. -/
  | custom (text : String)

/-- The text of an instantiation failure. -/
def InstantiationCause.message : InstantiationCause → String
  | noConstructors target columns =>
    failure target columns ++ ": no conversion exists and the type declares no constructors"
  | allRejected target columns rejections =>
    failure target columns ++ ":" ++ String.join (rejections.map fun (parameters, reason) =>
      "\n  " ++ describeConstructor target parameters ++ ": " ++ reason.message)
  | ambiguous target columns first second score =>
    "ambiguous constructors for " ++ target.name ++ " with columns " ++ Column.describeAll columns
      ++ ": " ++ describeConstructor target first ++ " and " ++ describeConstructor target second
      ++ " match equally well (score " ++ toString score ++ ")"
  | conflict c => c.message
  | argumentsExhausted => "constructor read more arguments than it declares"
  | custom text => text
where
  /-- How the failures that list the columns begin. -/
  failure (target : TargetType) (columns : List Column) : String :=
    "could not find a way to instantiate " ++ target.name ++ " with columns "
      ++ Column.describeAll columns

/-! ## Results, queries and arguments -/

/-- Why a result has the wrong shape. -/
inductive ResultCause where
  /-- A map needs a column of keys and a column of values. -/
  | fewColumns (found : Nat)
  /-- A row is shorter than its columns. -/
  | shortRow (index : Nat)
  /-- An explanation without structure. -/
  | custom (text : String)
deriving DecidableEq, Repr

/-- The text of a failure of shape. -/
def ResultCause.message : ResultCause → String
  | fewColumns found =>
    "Expected result with at least 2 columns, but got " ++ toString found ++ " columns."
  | shortRow index => "row has no value for column " ++ toString index
  | custom text => text

/-- Why a text is not a query with named parameters. -/
inductive NamedSqlCause where
  /-- A quoted text or a comment does not end. -/
  | unclosed (closing : String)
  /-- A colon has no name. -/
  | namelessParameter
  /-- A placeholder is written as a question mark. -/
  | placeholder
  /-- An explanation without structure. -/
  | custom (text : String)
deriving DecidableEq, Repr

/-- The text of a syntax failure. -/
def NamedSqlCause.message : NamedSqlCause → String
  | unclosed closing => "Block end not found: \"" ++ closing ++ "\"."
  | namelessParameter => "SQL cannot end to named parameter without name"
  | placeholder => "SQL cannot contain traditional ? placeholders."
  | custom text => text

/-- Why a named parameter has no value. -/
inductive VariableCause where
  /-- No value goes by the name. -/
  | unknown (name : String)
  /-- The values come from a document that is not an object. -/
  | notObject (document : Json)
  /-- The values could not be turned into a document. -/
  | unserializable (reason : String)
  /-- An explanation without structure. -/
  | custom (text : String)

/-- The text of a failure to find a value. -/
def VariableCause.message : VariableCause → String
  | unknown name => "No value registered for key '" ++ name ++ "'"
  | notObject document =>
    "named parameters need a value serializing to an object, got " ++ document.text
  | unserializable reason => "failed to serialize named parameter values: " ++ reason
  | custom text => text

/-- Why an argument of a call is refused. -/
inductive ArgumentCause where
  /-- A list of placeholders needs at least one. -/
  | noPlaceholders
  /-- A query needs a text. -/
  | emptyQuery
  /-- An explanation without structure. -/
  | custom (text : String)
deriving DecidableEq, Repr

/-- The text of a refused argument. -/
def ArgumentCause.message : ArgumentCause → String
  | noPlaceholders => "count must be positive, but was: 0"
  | emptyQuery => "empty query"
  | custom text => text

/-! ## Transactions -/

/-- Why an operation lacks a transaction. -/
inductive NoTransactionCause where
  /-- The scope insists on a transaction that is already active. -/
  | mandatory
  /-- The operation may not begin a transaction by itself. -/
  | implicitDisabled
  /-- An explanation without structure. -/
  | custom (text : String)
deriving DecidableEq, Repr

/-- The text of a missing transaction. -/
def NoTransactionCause.message : NoTransactionCause → String
  | mandatory =>
    "Transaction propagation was MANDATORY, but there was no existing transaction."
  | implicitDisabled =>
    "Tried to perform database operation without active transaction. Database accesses should be "
      ++ "bracketed with Database::with_transaction(...) or implicit transactions should be "
      ++ "enabled."
  | custom text => text

/-- Why an operation may not run in the transactions there are. -/
inductive TransactionStateCause where
  /-- The scope refuses to run in a transaction. -/
  | never
  /-- A suspended transaction holds the lock the write would wait for. -/
  | suspendedWriter
  /-- An explanation without structure. -/
  | custom (text : String)
deriving DecidableEq, Repr

/-- The text of an illegal state. -/
def TransactionStateCause.message : TransactionStateCause → String
  | never => "Transaction propagation was NEVER, but there was an existing transaction."
  | suspendedWriter =>
    "Cannot write while a suspended transaction holds the database write lock. "
      ++ "Write before suspending the transaction, or join it instead of suspending it."
  | custom text => text

end RowMapping
