/-
Instances of target types.

Conversions are found while a program runs, so what they produce is an object
that carries its own type, and a reader has to check that the type is the one it
expects. An object of an application's type carries data of a type `α` that this
library knows nothing about.
-/
import RowMapping.Target.Type
import RowMapping.Url.Basic
import RowMapping.Value.Basic

set_option autoImplicit false

namespace RowMapping

/-- An instance of a target type, over the data `α` of the application's own types. -/
inductive Object (α : Type) where
  | boolean (b : Bool)
  | integer (t : IntegerType) (i : Int)
  | double (x : Floating)
  | single (x : Floating)
  | string (s : String)
  | date (d : Date)
  | time (t : Time)
  | dateTime (t : DateTime)
  | timestamp (t : Timestamp)
  | json (j : Json)
  | uuid (u : Uuid)
  | url (u : Url)
  | value (v : Value)
  | variant (e : EnumType) (name : String)
  | custom (t : CustomType) (data : α)
  | missing (inner : TargetType)
  | present (x : Object α)
  | list (element : TargetType) (items : List (Object α))

namespace Object

variable {α : Type}

/-- The type of an object. -/
def type : Object α → TargetType
  | boolean _ => .boolean
  | integer t _ => .integer t
  | double _ => .double
  | single _ => .single
  | string _ => .string
  | date _ => .date
  | time _ => .time
  | dateTime _ => .dateTime
  | timestamp _ => .timestamp
  | json _ => .json
  | uuid _ => .uuid
  | url _ => .url
  | value _ => .value
  | variant e _ => .enumeration e
  | custom t _ => .custom t
  | missing inner => .option inner
  | present x => .option x.type
  | list element _ => .list element

/-- Bytes as an object. -/
def ofBytes (bytes : List UInt8) : Object α :=
  list (.integer .u8) (bytes.map fun b => integer .u8 b.toNat)

mutual

/-- Whether two objects are the same key. Timestamps are when they are the same
instant; objects that cannot be keys never are. -/
def sameKey [BEq α] : Object α → Object α → Bool
  | boolean a, boolean b => a == b
  | integer t a, integer u b => t == u && a == b
  | string a, string b => a == b
  | date a, date b => a == b
  | time a, time b => a == b
  | dateTime a, dateTime b => a == b
  | timestamp a, timestamp b => a.sameInstant b
  | uuid a, uuid b => a == b
  | url a, url b => a == b
  | variant e a, variant f b => e == f && a == b
  | custom t a, custom u b => t == u && a == b
  | missing t, missing u => t == u
  | present a, present b => sameKey a b
  | list t as, list u bs => t == u && sameKeys as bs
  | _, _ => false

/-- Whether two lists of objects are the same keys in the same order. -/
def sameKeys [BEq α] : List (Object α) → List (Object α) → Bool
  | [], [] => true
  | a :: as, b :: bs => sameKey a b && sameKeys as bs
  | _, _ => false

end

/-- Bytes are a list of small integers. -/
@[simp] theorem type_ofBytes (bytes : List UInt8) :
    (ofBytes bytes : Object α).type = .bytes := rfl

end Object

end RowMapping
