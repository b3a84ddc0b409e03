/-
Stored tables with one column.

Reading such a table and building instances of a type from it comes down to the cells: each is
read as a value, refined by the kind of the column, and converted by the conversion for the kind
it has then. All that is asked of the column is that there is some conversion for it.
-/
import RowMapping.Proofs.Conversion.Outcomes
import RowMapping.Proofs.Instantiation.DirectColumns
import RowMapping.Proofs.Instantiation.Moved
import RowMapping.Storage.Decode
import RowMapping.Table.Instances

set_option autoImplicit false

namespace RowMapping

variable {α : Type} {r : Registry α} {t : Target α}

/-! ## Results with one column -/

/-- A value that is converted by its own kind is of the type asked for. -/
theorem Conversion.expect_of_dynamic {v : Value} {x : Object α} {type : TargetType}
    (h : dynamic r type v = .ok x) : x.expect type = .ok x := by
  have haccounts := accounts_dynamic r type v
  rw [h] at haccounts
  exact Object.expect_of_type haccounts.1

/-- A conversion of a column reads a cell if and only if the conversion for the kind of the cell
does. -/
theorem instantiate_direct_eq_ok_iff {column : Column} {c : ColumnConversion α} {type : TargetType}
    (h : ColumnConversion.find? r column type = some c) (v : Value) (x : Object α) :
    (Plan.direct c).instantiate r type [v] = .ok x ↔ Conversion.dynamic r type v = .ok x := by
  rw [Plan.instantiate_direct, ColumnConversion.convert_eq_dynamic h, bind_eq_ok_iff]
  simp only [mapError_eq_ok_iff]
  constructor
  · rintro ⟨y, hread, hexpect⟩
    rw [Conversion.expect_of_dynamic hread] at hexpect
    exact Except.ok.inj hexpect ▸ hread
  · intro hread
    exact ⟨x, hread, Conversion.expect_of_dynamic hread⟩

/-- A result with one column. -/
def singleColumn (column : Column) (values : List Value) : ResultTable :=
  ⟨[column], values.map ([·])⟩

/-- A result whose column has a conversion is read if and only if each value is converted by its
own kind. -/
theorem instances_singleColumn_of_find? {column : Column}
    (hplain : column.kind = .null → t.description.constructors = [])
    (hfind : (ColumnConversion.find? r column t.type).isSome = true) (values : List Value)
    (xs : List (Object α)) :
    (singleColumn column values).instances r t = .ok xs ↔
      values.mapM (Conversion.dynamic r t.type) = .ok xs := by
  obtain ⟨c, hc⟩ := Option.isSome_iff_exists.mp hfind
  rcases values with _ | ⟨first, rest⟩
  · rfl
  rw [ResultTable.instances]
  show (findPlan r t [column] >>= fun plan =>
    ((first :: rest).map ([·])).mapM fun row => plan.instantiate r t.type row) = .ok xs ↔ _
  rw [findPlan_direct hplain hc]
  show ((first :: rest).map ([·])).mapM ((Plan.direct c).instantiate r t.type ·) = .ok xs ↔ _
  rw [List.mapM_map, mapM_eq_ok_iff, mapM_eq_ok_iff]
  simp only [Function.comp_apply, instantiate_direct_eq_ok_iff hc]

/-! ## Stored columns -/

/-- Instances from a stored table. -/
def StoredTable.instances (table : StoredTable) (r : Registry α) (t : Target α) :
    Except Error (List (Object α)) :=
  table.read.bind (·.instances r t)

/-- A stored table with one column. -/
def StoredTable.single (column : StoredColumn) (cells : List Cell) : StoredTable :=
  ⟨[column], cells.map ([·])⟩

/-- The cells of the only column are read as values, and these as the kind of the column. -/
theorem StoredTable.read_single (column : StoredColumn) (cells : List Cell) :
    (single column cells).read = (cells.mapM Cell.value).map fun values =>
      singleColumn (column.resultColumn (values.map ([·])) 0)
        (values.map (refine (column.resultColumn (values.map ([·])) 0).kind)) := by
  -- reading rows of one cell each is reading the cells
  have hrows : (cells.map ([·])).mapM (fun row => row.mapM Cell.value)
      = (cells.mapM Cell.value).map fun values => values.map ([·]) := by
    induction cells with
    | nil => rfl
    | cons cell rest ih =>
      rw [List.map_cons, List.mapM_cons, List.mapM_cons, ih, List.mapM_cons, List.mapM_nil]
      cases cell.value with
      | error e => rfl
      | ok v => cases rest.mapM Cell.value <;> rfl
  rw [read]
  show ((cells.map ([·])).mapM (fun row => row.mapM Cell.value) >>= _) = _
  rw [hrows]
  cases cells.mapM Cell.value with
  | error e => rfl
  | ok values =>
    show Except.ok (ResultTable.mk _ ((values.map ([·])).map (refineRow _)))
      = .ok (ResultTable.mk _ ((values.map (refine _)).map ([·])))
    rw [List.map_map, List.map_map]
    rfl

/-- Reading some cells and converting them is reading and converting one after the other, as long
as nothing fails. -/
theorem mapM_bind_eq_ok_iff {β γ δ ε : Type} {f : β → Except ε γ} {g : γ → Except ε δ} {xs : List β}
    {zs : List δ} :
    (xs.mapM f).bind (·.mapM g) = .ok zs ↔ xs.mapM (fun x => (f x).bind g) = .ok zs := by
  cases hys : xs.mapM f with
  | ok ys =>
    have hcomposed : xs.map (fun x => (f x).bind g) = ys.map g := by
      have hmap := congrArg (List.map (·.bind g)) (mapM_eq_ok_iff_map.mp hys)
      rwa [List.map_map, List.map_map] at hmap
    show ys.mapM g = .ok zs ↔ _
    rw [mapM_eq_ok_iff_map, mapM_eq_ok_iff_map, hcomposed]
  | error e =>
    obtain ⟨x, hx, hfails⟩ := exists_of_mapM_error hys
    constructor
    · rintro ⟨⟩
    · intro hall
      have hbound : (f x).bind g = .error e := by
        rw [hfails]
        rfl
      obtain ⟨e', he'⟩ := exists_mapM_error_iff (f := fun x => (f x).bind g).mpr ⟨x, hx, e, hbound⟩
      cases hall.symm.trans he'

/-- A column of a declared type is read if and only if each of its values is converted as the
column refines it. -/
theorem StoredTable.instances_declared_iff {declared : DeclaredType}
    (hfind : (Conversion.find? r t.type declared.kind).isSome = true) (name : String)
    (cells : List Cell) (xs : List (Object α)) :
    (single ⟨name, some declared⟩ cells).instances r t = .ok xs ↔
      cells.mapM (fun cell => cell.value.bind fun v =>
        Conversion.dynamic r t.type (refine declared.kind v)) = .ok xs := by
  rw [instances, read_single, ← mapM_bind_eq_ok_iff]
  cases cells.mapM Cell.value with
  | error e => rfl
  | ok values =>
    -- the kind of the column is known, so that the constructors of the type do not matter
    have hknown : declared.kind ≠ .null := by cases declared <;> nofun
    show (singleColumn _ _).instances r t = .ok xs ↔ _
    rw [instances_singleColumn_of_find? (fun hnull => absurd hnull hknown)
      (ColumnConversion.isSome_find? (.inr hfind)), List.mapM_map]
    rfl

end RowMapping
