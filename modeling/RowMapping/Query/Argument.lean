/-
Arguments of queries.

An argument is a value, an object that is converted when the query runs, a
variant of an enumeration, an array of arguments, or an argument whose value must
not be shown. What is shown for an argument never depends on what stands inside
a confidential one.
-/
import RowMapping.Conversion.Registry

set_option autoImplicit false

namespace RowMapping

variable {α : Type}

/-- How variants of enumerations are written. -/
inductive EnumMode where
  /-- As text, by name. -/
  | name
  /-- As an integer, by place. -/
  | ordinal
deriving DecidableEq, Repr

/-- A value bound to a parameter of a query. -/
inductive Argument (α : Type) where
  | value (v : Value)
  | object (x : Object α) (description : String)
  | enumeration (name : String) (ordinal : Int64)
  | array (items : List (Argument α))
  | confidential (inner : Argument α)

namespace Argument

/-! ## Making arguments -/

/-- The argument of a missing value. -/
def null : Argument α := .value .null

/-- An integer as a value. One too large for 64 bits becomes a real and loses
precision rather than wrap. -/
def integerValue (i : Int) : Value :=
  match int64Of? i with
  | some i => .integer i
  | none => .real (Floating.ofInt .double i)

/-- The place of a variant in its enumeration, or minus one. -/
def ordinalOf (e : EnumType) (name : String) : Int64 :=
  match e.variants.idxOf? name with
  | some i => Int64.ofNat i
  | none => -1

/-- How an application's objects are shown, and the numbers its variants are
written as. -/
structure Style (α : Type) where
  describe : α → String
  ordinal : EnumType → String → Int64 := ordinalOf

mutual

/-- The argument of an object. -/
def ofObject (style : Style α) : Object α → Argument α
  | .boolean b => .value (.boolean b)
  | .integer _ i => .value (integerValue i)
  | .double x => .value (.real x)
  | .single x => .value (.real x)
  | .string s => .value (.text s)
  | .date d => .value (.date d)
  | .time t => .value (.time t)
  | .dateTime t => .value (.dateTime t)
  | .timestamp t => .value (.timestamp t)
  | .json j => .value (.json j)
  | .uuid u => .object (.uuid u) u.text
  | .url u => .object (.url u) u.text
  | .value v => .value v
  | .variant e name => .enumeration name (style.ordinal e name)
  | .custom t data => .object (.custom t data) (style.describe data)
  | .missing _ => null
  | .present x => ofObject style x
  | .list _ items => .array (ofObjects style items)

/-- The arguments of several objects. -/
def ofObjects (style : Style α) : List (Object α) → List (Argument α)
  | [] => []
  | x :: rest => ofObject style x :: ofObjects style rest

end

/-! ## Display -/

mutual

/-- The text shown for an argument. -/
def display : Argument α → String
  | value v => v.display
  | object _ description => "'" ++ description ++ "'"
  | enumeration name _ => name
  | array items => Text.bracketed (displayAll items)
  | confidential _ => "****"

/-- The texts shown for several arguments. -/
def displayAll : List (Argument α) → List String
  | [] => []
  | a :: rest => display a :: displayAll rest

end

/-- An argument as it is listed for debugging. -/
def describe (a : Argument α) : String := "Argument(" ++ a.display ++ ")"

/-! ## Resolution -/

/-- The value written for a variant. -/
def variantValue (mode : EnumMode) (name : String) (ordinal : Int64) : Value :=
  match mode with
  | .name => .text name
  | .ordinal => .integer ordinal

/-- The value of an object, by the conversion registered for its type. -/
def writeObject (r : Registry α) (x : Object α) : Except Error Value :=
  match r.findWriter? x.type with
  | some write => write x
  | none => .error (.conversion (.unregistered x.type))

mutual

/-- The value of an argument. -/
def resolve (r : Registry α) (mode : EnumMode) : Argument α → Except Error Value
  | value v => .ok v
  | object x _ => writeObject r x
  | enumeration name ordinal => .ok (variantValue mode name ordinal)
  | array items => (resolveAll r mode items).map Value.array
  | confidential inner => resolve r mode inner

/-- The values of several arguments. The first failure counts. -/
def resolveAll (r : Registry α) (mode : EnumMode) : List (Argument α) → Except Error (List Value)
  | [] => .ok []
  | a :: rest => do
    let v ← resolve r mode a
    let vs ← resolveAll r mode rest
    pure (v :: vs)

end

end Argument

end RowMapping
