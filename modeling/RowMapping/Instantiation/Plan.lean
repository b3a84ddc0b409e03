/-
How instances of a type are built from the columns of a result.

A single column is converted directly if a conversion to the type exists.
Otherwise every constructor is evaluated against the columns. Its parameters are
bound to columns of their names, or else to the first columns in order; each
column left over has to match a property. The constructor with the most
parameters wins, then one bound by name, then the one whose conversions fit best;
a tie at the top is an error.

The values of a row stand in the places of their columns. Taking a value empties
its place, so no value can be taken twice.
-/
import RowMapping.Conversion.Find
import RowMapping.Instantiation.Description

set_option autoImplicit false

namespace RowMapping

variable {α : Type}

/-! ## Binding parameters -/

/-- The first column whose name matches and whose place is not in use. -/
def firstUnused (columns : List Column) (used : List Nat) (name : String) : Option Nat :=
  (List.range columns.length).find? fun i =>
    !used.contains i && (columns[i]?).any fun c => namesMatch name c.name

/-- Bind every parameter to a column of its name that no parameter before it took. -/
def bindByName (columns : List Column) : List Parameter → List Nat → Option (List Nat)
  | [], _ => some []
  | p :: rest, used =>
    match firstUnused columns used p.name with
    | none => none
    | some i => (bindByName columns rest (i :: used)).map (i :: ·)

/-! ## Evaluating constructors -/

/-- A parameter bound to a column, with the conversion of the column. -/
structure BoundParameter (α : Type) where
  index : Nat
  conversion : ColumnConversion α

/-- A column bound to a property, with its conversion and how the property is set. -/
structure BoundProperty (α : Type) where
  index : Nat
  conversion : ColumnConversion α
  set : Object α → Object α → Except Error (Object α)

/-- A constructor that can be used for some columns, and everything about how. -/
structure Candidate (α : Type) where
  constructor : Constructor α
  named : Bool
  parameters : List (BoundParameter α)
  properties : List (BoundProperty α)

namespace Candidate

/-- The points of all conversions of a candidate. -/
def score (c : Candidate α) : Nat :=
  (c.parameters.map (·.conversion.compatibility.points)).foldl (· + ·) 0
    + (c.properties.map (·.conversion.compatibility.points)).foldl (· + ·) 0

/-- Whether a candidate ranks at most as high as another: by the number of
parameters, then by being bound by name, then by score. -/
def ranksAtMost (a b : Candidate α) : Bool :=
  let m := a.constructor.parameters.length
  let n := b.constructor.parameters.length
  m < n || (m == n && ((!a.named && b.named) || (a.named == b.named && a.score ≤ b.score)))

/-- Whether two candidates have the same rank. -/
def sameRank (a b : Candidate α) : Bool := a.ranksAtMost b && b.ranksAtMost a

/-- Some candidates from the greatest rank to the least; those of the same rank keep
their order. -/
def ranked (cs : List (Candidate α)) : List (Candidate α) :=
  cs.mergeSort fun a b => b.ranksAtMost a

end Candidate

/-- Bind one parameter to the column at a place. -/
def bindParameter (r : Registry α) (columns : List Column) (p : Parameter) (i : Nat) :
    Except Rejection (BoundParameter α) :=
  match columns[i]? with
  | none => .error (.tooManyParameters (i + 1) columns.length)
  | some column =>
    match ColumnConversion.find? r column p.target with
    | some conversion => .ok ⟨i, conversion⟩
    | none => .error (.parameter column p)

/-- Bind one column to the property its name leads to. -/
def bindProperty (r : Registry α) (d : TypeDescription α) (column : Column) (i : Nat) :
    Except Rejection (BoundProperty α) :=
  match d.findProperty column.name with
  | .error conflict => .error (.conflict conflict)
  | .ok none => .error (.unmatched column)
  | .ok (some binding) =>
    match ColumnConversion.find? r column binding.target with
    | some conversion => .ok ⟨i, conversion, binding.set⟩
    | none => .error (.property column binding.target)

/-- The columns no parameter is bound to, with their places. -/
def leftOver (columns : List Column) (used : List Nat) : List (Column × Nat) :=
  columns.zipIdx.filter fun (_, i) => !used.contains i

/-- Evaluate a constructor against some columns. -/
def evaluate (r : Registry α) (d : TypeDescription α) (columns : List Column)
    (c : Constructor α) : Except Rejection (Candidate α) :=
  if columns.length < c.parameters.length then
    .error (.tooManyParameters c.parameters.length columns.length)
  else do
    let named := bindByName columns c.parameters []
    let places := named.getD (List.range c.parameters.length)
    let parameters ← (c.parameters.zip places).mapM fun (p, i) => bindParameter r columns p i
    let properties ← (leftOver columns places).mapM fun (column, i) => bindProperty r d column i
    pure ⟨c, named.isSome, parameters, properties⟩

/-- The constructors that can be used, in the order of their declaration. -/
def candidates (r : Registry α) (d : TypeDescription α) (columns : List Column) :
    List (Candidate α) :=
  d.constructors.filterMap fun c => (evaluate r d columns c).toOption

/-- The constructors that cannot be used, each with its reason. -/
def rejections (r : Registry α) (d : TypeDescription α) (columns : List Column) :
    List (List Parameter × Rejection) :=
  d.constructors.filterMap fun c =>
    match evaluate r d columns c with
    | .error reason => some (c.parameters, reason)
    | .ok _ => none

/-! ## Instantiators -/

/-- How instances are built from a row: by converting its only column, or by a
constructor. -/
inductive Plan (α : Type) where
  | direct (conversion : ColumnConversion α)
  | reflective (candidate : Candidate α)

/-- The direct conversion of a single column, if it applies. A column of unknown
kind converts directly only if the type has no constructors. -/
def directPlan? (r : Registry α) (t : Target α) : List Column → Option (ColumnConversion α)
  | [column] =>
    if column.kind = .null ∧ !t.description.constructors.isEmpty then none
    else ColumnConversion.find? r column t.type
  | _ => none

/-- How instances of a type are built from some columns. -/
def findPlan (r : Registry α) (t : Target α) (columns : List Column) : Except Error (Plan α) :=
  match directPlan? r t columns with
  | some conversion => .ok (.direct conversion)
  | none =>
    if t.description.constructors.isEmpty then
      .error (.instantiation (.noConstructors t.type columns))
    else match Candidate.ranked (candidates r t.description columns) with
      | [] =>
        .error (.instantiation
          (.allRejected t.type columns (rejections r t.description columns)))
      | [candidate] => .ok (.reflective candidate)
      | first :: second :: _ =>
        if second.sameRank first then
          .error (.instantiation (.ambiguous t.type columns first.constructor.parameters
            second.constructor.parameters first.score))
        else .ok (.reflective first)

/-! ## Rows -/

/-- Work on the values of a row that are not yet taken, each in the place of its
column. -/
abbrev RowReader (β : Type) := StateT (List (Option Value)) (Except Error) β

/-- Take the value of a column, which leaves its place empty. -/
def takeValue (index : Nat) : RowReader Value := fun places =>
  match places[index]?.join with
  | some v => .ok (v, places.set index none)
  | none => .error (.unexpectedResult (.shortRow index))

/-- Take the value of a column and convert it. -/
def takeConverted (r : Registry α) (index : Nat) (conversion : ColumnConversion α) :
    RowReader (Object α) := do
  let v ← takeValue index
  conversion.convert r v

/-- Set the bound properties of an object, in the order of their columns. -/
def setProperties (r : Registry α) : List (BoundProperty α) → Object α → RowReader (Object α)
  | [], x => pure x
  | p :: rest, x => do
    let y ← takeConverted r p.index p.conversion
    let x ← p.set y x
    setProperties r rest x

/-- Build an instance from the values that a row has. -/
def Plan.build (r : Registry α) (t : TargetType) : Plan α → RowReader (Object α)
  | direct conversion => do
    let x ← takeConverted r 0 conversion
    x.expect t
  | reflective candidate => do
    let arguments ← candidate.parameters.mapM fun p => takeConverted r p.index p.conversion
    let x ← candidate.constructor.construct arguments
    setProperties r candidate.properties x

/-- Build an instance from the values of a row. -/
def Plan.instantiate (r : Registry α) (t : TargetType) (values : List Value) (plan : Plan α) :
    Except Error (Object α) :=
  (plan.build r t (values.map some)).map Prod.fst

end RowMapping
