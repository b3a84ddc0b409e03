/-
The types that values are converted into.

Besides the built-in types there are enumerations, described by the names of
their variants, and the application's own types, which are known by name only.
Options and lists are formed over any type. A type is this description: there is
nothing else that two targets could differ in.
-/
import RowMapping.Text.Blank

set_option autoImplicit false

namespace RowMapping

/-- The integer types, by width and sign. The word types are 64 bits wide. -/
inductive IntegerType where
  | i8
  | i16
  | i32
  | i64
  | isize
  | u8
  | u16
  | u32
  | u64
  | usize
deriving DecidableEq, Repr

namespace IntegerType

/-- The name of an integer type. -/
def name : IntegerType → String
  | i8 => "i8"
  | i16 => "i16"
  | i32 => "i32"
  | i64 => "i64"
  | isize => "isize"
  | u8 => "u8"
  | u16 => "u16"
  | u32 => "u32"
  | u64 => "u64"
  | usize => "usize"

/-- The least number of an integer type. -/
def least : IntegerType → Int
  | i8 => -0x80
  | i16 => -0x8000
  | i32 => -0x80000000
  | i64 | isize => -0x8000000000000000
  | u8 | u16 | u32 | u64 | usize => 0

/-- The greatest number of an integer type. -/
def greatest : IntegerType → Int
  | i8 => 0x7f
  | i16 => 0x7fff
  | i32 => 0x7fffffff
  | i64 | isize => 0x7fffffffffffffff
  | u8 => 0xff
  | u16 => 0xffff
  | u32 => 0xffffffff
  | u64 | usize => 0xffffffffffffffff

/-- Whether a number is one of the type. -/
def contains (t : IntegerType) (i : Int) : Bool := t.least ≤ i && i ≤ t.greatest

theorem contains_iff (t : IntegerType) (i : Int) :
    t.contains i = true ↔ t.least ≤ i ∧ i ≤ t.greatest := by
  simp [contains]

/-- All integer types, signed ones first. -/
def all : List IntegerType := [i8, i16, i32, i64, isize, u8, u16, u32, u64, usize]

end IntegerType

/-- An enumeration: its name and the names of its variants in order. -/
structure EnumType where
  name : String
  variants : List String
deriving DecidableEq, Repr

/-- A type of the application. Types of one name are told apart by a tag. -/
structure CustomType where
  name : String
  tag : Nat := 0
deriving DecidableEq, Repr

/-- A type that values are converted into. -/
inductive TargetType where
  | boolean
  | integer (t : IntegerType)
  | double
  | single
  | string
  | date
  | time
  | dateTime
  | timestamp
  | json
  | uuid
  | url
  | value
  | enumeration (e : EnumType)
  | custom (t : CustomType)
  | option (inner : TargetType)
  | list (element : TargetType)
deriving DecidableEq, Repr

namespace TargetType

/-- Bytes are a list of small integers. -/
def bytes : TargetType := .list (.integer .u8)

/-- The name shown for a type. -/
def name : TargetType → String
  | boolean => "bool"
  | integer t => t.name
  | double => "f64"
  | single => "f32"
  | string => "String"
  | date => "Date"
  | time => "Time"
  | dateTime => "PlainDateTime"
  | timestamp => "OffsetDateTime"
  | json => "Value"
  | uuid => "Uuid"
  | url => "Url"
  | value => "Value"
  | enumeration e => e.name
  | custom t => t.name
  | option inner => "Option<" ++ inner.name ++ ">"
  | list element => "Vec<" ++ element.name ++ ">"

end TargetType

/-- A named constructor parameter and its type. -/
structure Parameter where
  name : String
  target : TargetType
deriving DecidableEq, Repr

/-- A parameter as it is listed in messages. -/
def Parameter.describe (p : Parameter) : String := p.name ++ ": " ++ p.target.name

end RowMapping
