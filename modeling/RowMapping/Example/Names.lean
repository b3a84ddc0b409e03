/-
The types of the example application by their names.

A name is that of a plain type, or an option or a list around the name of a type.
-/
import RowMapping.Example.Data

set_option autoImplicit false

namespace RowMapping.Example

/-- The types that are neither options nor lists. -/
def plainTypes : List (String × TargetType) :=
  [("bool", .boolean), ("f32", .single), ("f64", .double), ("String", .string), ("Date", .date),
    ("Time", .time), ("PrimitiveDateTime", .dateTime), ("OffsetDateTime", .timestamp),
    ("Json", .json), ("Uuid", .uuid), ("Url", .url), ("Value", .value),
    ("Color", .enumeration color), ("Level", .enumeration level), ("Email", .custom emailType),
    ("Cents", .custom centsType), ("Tagged", .custom taggedType), ("Opaque", .custom sealedType),
    ("Pair", .custom pairType), ("Rec", .custom recordType)]
  ++ IntegerType.all.map fun t => (t.name, .integer t)

/-- The type of a name. The closing brackets of options and lists stand at its end. -/
def typeNamed : List Char → Option TargetType
  | 'O' :: 'p' :: 't' :: 'i' :: 'o' :: 'n' :: '<' :: rest => (typeNamed rest).map .option
  | 'V' :: 'e' :: 'c' :: '<' :: rest => (typeNamed rest).map .list
  | cs => plainTypes.lookup (String.ofList (cs.takeWhile (· != '>')))

/-- The type of a name. -/
def typeOfName? (name : String) : Option TargetType := typeNamed name.toList

end RowMapping.Example
