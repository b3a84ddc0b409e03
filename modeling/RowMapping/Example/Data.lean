/-
An example application: the types of its own that it reads from a database.

There are e-mail addresses, amounts of money, texts with a tag, sealed texts, pairs
built by a constructor, and records described as the application likes, with
properties of their own and of the parts in their slots. A record remembers how it
was built and everything that was assigned to it.
-/
import RowMapping.Target.Object

set_option autoImplicit false

namespace RowMapping.Example

/-! ## Types -/

/-- Colours. -/
def color : EnumType := ⟨"Color", ["RED", "GREEN", "BLUE"]⟩

/-- Every colour, also the one that is not among the variants. -/
def colors : List String := color.variants ++ ["HIDDEN"]

/-- Levels. -/
def level : EnumType := ⟨"Level", ["Low", "High level"]⟩

/-- Levels are written as tens. -/
def levelOrdinal (name : String) : Int64 := if name = "Low" then 10 else 20

/-- E-mail addresses. -/
def emailType : CustomType := { name := "Email" }

/-- Amounts of money. -/
def centsType : CustomType := { name := "Cents" }

/-- Texts with a tag. -/
def taggedType : CustomType := { name := "Tagged" }

/-- Sealed texts. -/
def sealedType : CustomType := { name := "Opaque" }

/-- Pairs. -/
def pairType : CustomType := { name := "Pair" }

/-- Records. -/
def recordType : CustomType := { name := "Rec" }

/-- The parts in the slots of records. -/
def partType : CustomType := { name := "Part" }

/-! ## Data -/

/-- How a record was built. -/
inductive Origin where
  | byDefault
  | byConstructor (index : Nat)
  | byConversion
deriving DecidableEq, Repr

/-- An instance of one of the application's own types. What is assigned to a record or
to a part is kept in order, with the slots it was reached through and the name of
the property. -/
inductive Sample where
  | email (address : String)
  | cents (amount : Int)
  | tagged (tag content : String)
  | sealed (text : String)
  | pair (id : Int) (firstName : String) (rank : Option Int)
  | record (origin : Origin) (arguments : List (Object Sample))
      (assignments : List (List String × String × Object Sample))
  | part (assignments : List (List String × String × Object Sample))

/-- A property that was assigned: the slots, the name and the object. -/
abbrev Assignment := List String × String × Object Sample

/-- Only plain data can be a key. -/
instance : BEq Sample where
  beq
    | .email a, .email b => a == b
    | .cents a, .cents b => a == b
    | .tagged s a, .tagged t b => s == t && a == b
    | .sealed a, .sealed b => a == b
    | _, _ => false

/-- The text shown for an instance. -/
def Sample.describe : Sample → String
  | email address => address
  | tagged tag content => tag ++ "/" ++ content
  | sealed text => text
  | _ => ""

/-- What was assigned to an object. -/
def assignments : Object Sample → List Assignment
  | .custom _ (.record _ _ made) => made
  | .custom _ (.part made) => made
  | _ => []

/-- An object with other assignments. -/
def withAssignments (made : List Assignment) : Object Sample → Object Sample
  | .custom t (.record origin arguments _) => .custom t (.record origin arguments made)
  | .custom t (.part _) => .custom t (.part made)
  | x => x

/-- What was assigned through a slot, as seen from the slot. -/
def assignedThrough (slot : String) (made : List Assignment) : List Assignment :=
  made.filterMap fun
    | (s :: slots, name, x) => if s == slot then some (slots, name, x) else none
    | _ => none

/-- What was not assigned through a slot. -/
def assignedElsewhere (slot : String) (made : List Assignment) : List Assignment :=
  made.filter fun a => a.1.head? != some slot

end RowMapping.Example
