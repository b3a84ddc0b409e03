/-
Descriptions of types that are built from several columns.

A description lists the constructors of a type and its members: the properties
that can be set after construction, and the nested objects whose own members are
reached through them. A nested object is reached by an accessor, a pair of
functions that take it out of its owner and put it back.

A path such as `address.street` names a property. At each of its steps exactly
one member of the right sort may match; two are a conflict, none means that the
path leads nowhere.
-/
import RowMapping.Conversion.Basic
import RowMapping.Instantiation.Name
import RowMapping.Text.Split

set_option autoImplicit false

namespace RowMapping

variable {α : Type}

/-! ## Constructors -/

/-- Work on the arguments of a constructor that are not yet read. -/
abbrev ArgumentReader (α β : Type) := StateT (List (Object α)) (Except Error) β

/-- Read the next argument, which must have the expected type. -/
def nextArgument (expected : TargetType) : ArgumentReader α (Object α) := fun arguments =>
  match arguments with
  | [] => .error (.instantiation .argumentsExhausted)
  | x :: rest => (x.expect expected).map (·, rest)

/-- A constructor: its parameters, and how it builds an object from its arguments. -/
structure Constructor (α : Type) where
  parameters : List Parameter
  build : ArgumentReader α (Object α)

/-- Build an object from arguments. Arguments left unread are dropped. -/
def Constructor.construct (c : Constructor α) (arguments : List (Object α)) :
    Except Error (Object α) :=
  (c.build arguments).map Prod.fst

/-! ## Members -/

/-- How an object is taken out of its owner and put back. -/
structure Accessor (α : Type) where
  get : Object α → Object α
  put : Object α → Object α → Object α

/-- Change the object an accessor reaches. -/
def Accessor.modify (a : Accessor α) (f : Object α → Except Error (Object α)) (owner : Object α) :
    Except Error (Object α) :=
  (f (a.get owner)).map fun part => a.put part owner

/-- A member of a type: a property with what assigning to it does to its owner, or
a nested object with members of its own. -/
inductive Member (α : Type) where
  | property (name : String) (target : TargetType) (assign : Object α → Object α → Object α)
  | nested (name : String) (access : Accessor α) (members : List (Member α))

/-- The description of a type. -/
structure TypeDescription (α : Type) where
  constructors : List (Constructor α) := []
  members : List (Member α) := []

/-- A target type together with its description. -/
structure Target (α : Type) where
  type : TargetType
  description : TypeDescription α := {}

/-! ## Paths -/

/-- A property found by its path: its type, and how it is set. -/
structure PropertyBinding (α : Type) where
  target : TargetType
  set : Object α → Object α → Except Error (Object α)

/-- The binding of a property of the owner itself. -/
def PropertyBinding.own (target : TargetType) (assign : Object α → Object α → Object α) :
    PropertyBinding α :=
  ⟨target, fun x owner => (x.expect target).map fun x => assign x owner⟩

/-- The binding of a property of a nested object. -/
def PropertyBinding.through (access : Accessor α) (b : PropertyBinding α) : PropertyBinding α :=
  ⟨b.target, fun x owner => access.modify (b.set x) owner⟩

namespace Member

/-- The name of a member. -/
def name : Member α → String
  | property name _ _ => name
  | nested name _ _ => name

/-- Whether a member is a nested object. -/
def isNested : Member α → Bool
  | property .. => false
  | nested .. => true

/-- The members of one sort whose name matches. -/
def matching (members : List (Member α)) (wanted : Bool) (name : String) : List (Member α) :=
  members.filter fun m => m.isNested == wanted && namesMatch m.name name

end Member

/-- The steps of a path, which points divide. -/
def pathSteps (path : String) : List (List Char) := Text.split '.' path.toList

/-- The steps of a path written with points between them. -/
def pathText (steps : List (List Char)) : String :=
  String.ofList (['.'].intercalate steps)

/-- The only one of some members, none if there is none, a conflict if there are several. -/
def onlyMember (path : String) : List (Member α) → Except PropertyConflict (Option (Member α))
  | [] => .ok none
  | [m] => .ok (some m)
  | first :: second :: _ => .error ⟨path, first.name, second.name⟩

/-- The property that the steps of a path lead to. -/
def findPropertyAt (members : List (Member α)) :
    List (List Char) → Except PropertyConflict (Option (PropertyBinding α))
  | [] => .ok none
  | [step] => do
    let found ← onlyMember (pathText [step]) (Member.matching members false (String.ofList step))
    match found with
    | some (.property _ target assign) => pure (some (.own target assign))
    | _ => pure none
  | step :: next :: rest => do
    let found ← onlyMember (pathText (step :: next :: rest))
      (Member.matching members true (String.ofList step))
    match found with
    | some (.nested _ access members) =>
      let binding ← findPropertyAt members (next :: rest)
      pure (binding.map (·.through access))
    | _ => pure none

/-- The property that a path leads to. -/
def TypeDescription.findProperty (d : TypeDescription α) (path : String) :
    Except PropertyConflict (Option (PropertyBinding α)) :=
  findPropertyAt d.members (pathSteps path)

end RowMapping
