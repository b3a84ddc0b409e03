/-
Finding the conversion from a kind of values to a target type.

A target that is a value takes every value as it is. A kind whose native type is
the target is taken without conversion. Then come the registered conversions, and
last those composed from the shape of the target: an option converts what is not
missing by the conversion of its inner type, a list converts the items of an
array by their own kinds, and an enumeration finds its variant by name or by
place.

How well a conversion fits is graded, so that the constructors of a type can be
compared.
-/
import RowMapping.Conversion.Registry

set_option autoImplicit false

namespace RowMapping

variable {α : Type}

/-! ## Grades -/

/-- How well a conversion fits its source. -/
inductive Compatibility where
  /-- A registered or composed conversion. -/
  | registered
  /-- The value is taken as it is or wrapped, or its kind is known per row only. -/
  | assignable
  /-- The target is the native type of the source. -/
  | exact
deriving DecidableEq, Repr

namespace Compatibility

/-- The points a grade counts. -/
def points : Compatibility → Nat
  | registered => 1
  | assignable => 2
  | exact => 3

/-- The grade of a conversion whose result is wrapped. -/
def wrapped : Compatibility → Compatibility
  | registered => registered
  | _ => assignable

end Compatibility

/-- A conversion that was found: how well it fits, and what it does. -/
structure Conversion (α : Type) where
  compatibility : Compatibility
  run : Value → Except Error (Object α)

namespace Conversion

/-! ## Native conversions -/

/-- A native conversion of a value of another kind than announced. -/
def mismatch (expected : ValueKind) (v : Value) : Except Error (Object α) :=
  .error (.conversion (.kindMismatch expected v.kind))

/-- The conversion of a kind to its native type. -/
def native? (source : ValueKind) (target : TargetType) :
    Option (Value → Except Error (Object α)) :=
  match source, target with
  | .boolean, .boolean => some fun
    | .boolean b => .ok (.boolean b)
    | v => mismatch .boolean v
  | .integer, .integer .i64 => some fun
    | .integer i => .ok (.integer .i64 i.toInt)
    | v => mismatch .integer v
  | .real, .double => some fun
    | .real x => .ok (.double x)
    | v => mismatch .real v
  | .text, .string => some fun
    | .text s => .ok (.string s)
    | v => mismatch .text v
  | .blob, .list (.integer .u8) => some fun
    | .blob bytes => .ok (.ofBytes bytes)
    | v => mismatch .blob v
  | .date, .date => some fun
    | .date d => .ok (.date d)
    | v => mismatch .date v
  | .time, .time => some fun
    | .time t => .ok (.time t)
    | v => mismatch .time v
  | .dateTime, .dateTime => some fun
    | .dateTime t => .ok (.dateTime t)
    | v => mismatch .dateTime v
  | .timestamp, .timestamp => some fun
    | .timestamp t => .ok (.timestamp t)
    | v => mismatch .timestamp v
  | .json, .json => some fun
    | .json j => .ok (.json j)
    | v => mismatch .json v
  | _, _ => none

/-! ## Shapes -/

/-- The items of a value that is a list: an array, a JSON array, or text holding one. -/
def listItems : Value → Except Error (List Value)
  | .array items => .ok items
  | .json (.array items) => .ok (Value.ofJsonItems items)
  | v => match v.asText?.bind Json.ofText? with
    | some (.array items) => .ok (Value.ofJsonItems items)
    | _ => .error (.conversion (.notList v))

/-- Whether values of a kind can be lists. -/
def canBeList (source : ValueKind) : Bool :=
  source == .array || source == .json || ValueKind.text.assignableFrom source

/-- Whether values of a kind can name a variant. -/
def canBeVariant (source : ValueKind) : Bool :=
  ValueKind.text.assignableFrom source || ValueKind.integer.assignableFrom source

/-- The name of the variant at a place. -/
def variantAt? (e : EnumType) (place : Int) : Option String :=
  if 0 ≤ place then e.variants[place.toNat]? else none

/-- The name of the variant a value stands for: integers and booleans give its
place, text its name. -/
def variantOf? (e : EnumType) : Value → Option String
  | .integer i => variantAt? e i.toInt
  | .boolean b => variantAt? e (if b then 1 else 0)
  | v => v.asText?.bind fun s => e.variants.find? (· == s)

/-- A value as a variant of an enumeration. -/
def readVariant (e : EnumType) (v : Value) : Except Error (Object α) :=
  match variantOf? e v with
  | some name => .ok (.variant e name)
  | none => .error (.conversion (.notVariant v e))

/-- A value as an option: missing, or converted to the inner type. -/
def readOption (inner : TargetType) (run : Value → Except Error (Object α)) (v : Value) :
    Except Error (Object α) :=
  if v.isNull then .ok (.missing inner)
  else (run v).bind fun x => (x.expect inner).map Object.present

/-- A value as a list, each item converted by the conversion of its own kind. -/
def readList (element : TargetType) (convert : Value → Except Error (Object α)) (v : Value) :
    Except Error (Object α) := do
  let items ← listItems v
  let objects ← items.mapM convert
  let objects ← objects.mapM (·.expect element)
  pure (.list element objects)

/-- Convert a value by the conversion found for its own kind. -/
def dynamicBy (find : ValueKind → Option (Conversion α)) (target : TargetType) (v : Value) :
    Except Error (Object α) :=
  match find v.kind with
  | some c => c.run v
  | none =>
    if v.isNull then .error (.conversion (.null target))
    else .error (.conversion (.noConversion v target))

/-! ## The search -/

/-- The conversion a target has without its shape: as a value, natively, or registered. -/
def direct? (r : Registry α) (target : TargetType) (source : ValueKind) : Option (Conversion α) :=
  if target = .value then some ⟨.assignable, fun v => .ok (.value v)⟩
  else match native? source target with
    | some run => some ⟨.exact, run⟩
    | none => (r.find? source target).map fun c => ⟨.registered, c.convert⟩

/-- The conversion from a kind of values to a target type. -/
def find? (r : Registry α) : TargetType → ValueKind → Option (Conversion α)
  | .option inner, source =>
    match direct? r (.option inner) source with
    | some c => some c
    | none =>
      if source = .null then some ⟨.assignable, fun _ => .ok (.missing inner)⟩
      else (find? r inner source).map fun c =>
        ⟨c.compatibility.wrapped, readOption inner c.run⟩
  | .list element, source =>
    match direct? r (.list element) source with
    | some c => some c
    | none =>
      if canBeList source then
        some ⟨.registered, readList element (dynamicBy (fun kind => find? r element kind) element)⟩
      else none
  | .enumeration e, source =>
    match direct? r (.enumeration e) source with
    | some c => some c
    | none => if canBeVariant source then some ⟨.registered, readVariant e⟩ else none
  | target, source => direct? r target source

/-- Convert a value whose kind is known only now. -/
def dynamic (r : Registry α) (target : TargetType) (v : Value) : Except Error (Object α) :=
  dynamicBy (find? r target) target v

end Conversion

/-! ## Columns -/

/-- The conversion of one column into one target type. Without a known kind there
is no conversion for the column as a whole. -/
structure ColumnConversion (α : Type) where
  column : Column
  target : TargetType
  conversion : Option (Conversion α)

namespace ColumnConversion

/-- The conversion of a column, if there is one. -/
def find? (r : Registry α) (column : Column) (target : TargetType) :
    Option (ColumnConversion α) :=
  if column.kind = .null then some ⟨column, target, none⟩
  else (Conversion.find? r target column.kind).map fun c => ⟨column, target, some c⟩

/-- How well the conversion fits its column. -/
def compatibility (c : ColumnConversion α) : Compatibility :=
  match c.conversion with
  | some conversion => conversion.compatibility
  | none => .assignable

/-- Convert a cell. A value of another kind than its column's is converted by the
conversion of its own kind. -/
def convert (r : Registry α) (c : ColumnConversion α) (v : Value) : Except Error (Object α) :=
  let result := match c.conversion with
    | some conversion =>
      if v.kind = c.column.kind then conversion.run v else Conversion.dynamic r c.target v
    | none => Conversion.dynamic r c.target v
  result.mapError (Error.inColumn c.column.name)

/-- The conversion of a column, found for the kind of the column, does what the conversion found
for the kind of the cell does. -/
theorem convert_eq_dynamic {r : Registry α} {column : Column} {target : TargetType}
    {c : ColumnConversion α} (h : find? r column target = some c) (v : Value) :
    c.convert r v = (Conversion.dynamic r target v).mapError (Error.inColumn column.name) := by
  unfold find? at h
  split at h
  · cases h
    rfl
  · obtain ⟨found, hfound, rfl⟩ := Option.map_eq_some_iff.mp h
    by_cases hkind : v.kind = column.kind
    · simp [convert, Conversion.dynamic, Conversion.dynamicBy, hkind, hfound]
    · simp [convert, hkind]

end ColumnConversion

end RowMapping
