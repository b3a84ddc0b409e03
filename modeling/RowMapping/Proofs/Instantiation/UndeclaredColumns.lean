/-
Single columns that are declared with no type.

The first value of such a column that is not missing gives the column its kind, and the plan for
all rows is found for this kind. The cells of the other rows can be of any other kind. For a type
without constructors this makes no difference: a cell is read by the conversion for its own kind,
whether or not this is the kind of the column, and if there is no conversion for the kind of the
column, then there is none for the cell it comes from. So a table is read if and only if each of
its cells is, and the order of the rows does not matter.
-/
import RowMapping.Example.Data
import RowMapping.Proofs.Instantiation.StoredColumns

set_option autoImplicit false

namespace RowMapping

variable {α : Type} {r : Registry α} {t : Target α}

/-! ## The kind of the first value -/

/-- The kind of a column is that of one of its values, or not known. -/
theorem firstKind_cases (values : List Value) :
    firstKind (values.map ([·])) 0 = .null ∨
      ∃ v ∈ values, firstKind (values.map ([·])) 0 = v.kind := by
  rw [firstKind]
  cases hfirst : (values.map ([·])).findSome? fun row : Row => row[0]?.filter (!·.isNull) with
  | none => exact .inl rfl
  | some v =>
    obtain ⟨row, hrow, hv⟩ := List.exists_of_findSome?_eq_some hfirst
    obtain ⟨w, hw, rfl⟩ := List.mem_map.mp hrow
    obtain ⟨hcell, -⟩ := Option.filter_eq_some_iff.mp hv
    cases hcell
    exact .inr ⟨v, hw, rfl⟩

/-! ## Cells -/

/-- Values of a kind that no conversion is found for are not converted. -/
theorem Conversion.dynamic_of_find?_eq_none {v : Value} {type : TargetType}
    (h : find? r type v.kind = none) : ∃ e, dynamic r type v = .error e := by
  rw [dynamic, dynamicBy, h]
  dsimp only
  split
  · exact ⟨_, rfl⟩
  · exact ⟨_, rfl⟩

/-- A result with one column of the kind of its first value is read if and only if each value is
converted by its own kind. -/
theorem instances_singleColumn_iff (hplain : t.description.constructors = []) {column : Column}
    {values : List Value} (hkind : column.kind = firstKind (values.map ([·])) 0)
    (xs : List (Object α)) :
    (singleColumn column values).instances r t = .ok xs ↔
      values.mapM (Conversion.dynamic r t.type) = .ok xs := by
  cases hfind : ColumnConversion.find? r column t.type with
  | some c =>
    exact instances_singleColumn_of_find? (fun _ => hplain) (Option.isSome_of_eq_some hfind)
      values xs
  | none =>
    -- a plan is only looked for if there are rows
    rcases hvalues : values with _ | ⟨first, rest⟩
    · rfl
    have hfails : (singleColumn column (first :: rest)).instances r t
        = .error (.instantiation (.noConstructors t.type [column])) := by
      show (findPlan r t [column] >>= _) = _
      rw [findPlan_undirected hplain hfind]
      rfl
    rw [hfails, ← hvalues]
    constructor
    · rintro ⟨⟩
    intro hall
    -- the kind of the column is known, so it is that of a value, which is not converted
    obtain ⟨hknown, hnone⟩ :
        column.kind ≠ .null ∧ Conversion.find? r t.type column.kind = none := by
      unfold ColumnConversion.find? at hfind
      split at hfind
      · cases hfind
      · next hknown => exact ⟨hknown, Option.map_eq_none_iff.mp hfind⟩
    obtain ⟨v, hv, hsame⟩ := (firstKind_cases values).resolve_left (hkind ▸ hknown)
    rw [hkind, hsame] at hnone
    obtain ⟨e, he⟩ := Conversion.dynamic_of_find?_eq_none hnone
    have hmem : Conversion.dynamic r t.type v ∈ xs.map .ok :=
      mapM_eq_ok_iff_map.mp hall ▸ List.mem_map_of_mem hv
    obtain ⟨x, -, hx⟩ := List.mem_map.mp hmem
    rw [he] at hx
    cases hx

/-! ## Stored columns -/

/-- A stored table with one column that is declared with no type. -/
def StoredTable.undeclared (name : String) (cells : List Cell) : StoredTable :=
  single ⟨name, none⟩ cells

/-- The kinds of values as they are stored refine nothing. -/
theorem Cell.refine_kind {cell : Cell} {v : Value} (h : cell.value = .ok v) (w : Value) :
    refine v.kind w = w := by
  cases cell with
  | malformedText fault => cases h
  | _ =>
    cases h
    cases w <;> rfl

/-- The only column has the kind of the first value, and the values stay as they are stored. -/
theorem StoredTable.read_undeclared (name : String) (cells : List Cell) :
    (undeclared name cells).read = (cells.mapM Cell.value).map fun values =>
      singleColumn ⟨0, name, firstKind (values.map ([·])) 0, none⟩ values := by
  rw [undeclared, read_single]
  cases hvalues : cells.mapM Cell.value with
  | error e => rfl
  | ok values =>
    -- the kind is that of a stored value, and no stored value is of a kind that refines
    have hkept : ∀ v : Value, refine (firstKind (values.map ([·])) 0) v = v := by
      intro v
      rcases firstKind_cases values with hnull | ⟨w, hw, hkind⟩
      · rw [hnull]
        cases v <;> rfl
      · obtain ⟨cell, -, hcell⟩ := exists_of_forall₂ (mapM_eq_ok_iff.mp hvalues) hw
        rw [hkind]
        exact Cell.refine_kind hcell v
    have hrefined : values.map (refine (firstKind (values.map ([·])) 0)) = values :=
      List.map_id'' hkept values
    show Except.ok (singleColumn _ (values.map (refine (firstKind (values.map ([·])) 0)))) = .ok _
    rw [hrefined]
    rfl

/-- **Columns of no declared type.** A type without constructors is read from a single column that
has the kind of its first value if and only if each value is converted on its own, by the
conversion for its own kind, and the instances are what the values are converted to. This holds
for the cells of a stored column that is declared with no type, and so in another order of the
rows the column is read as well, and the instances are in the same order as the rows. -/
theorem instances_undeclared (hplain : t.description.constructors = []) (name : String)
    (cells : List Cell) :
    (∀ (column : Column) (values : List Value) (xs : List (Object α)),
      column.kind = firstKind (values.map ([·])) 0 →
      ((singleColumn column values).instances r t = .ok xs ↔
        values.mapM (Conversion.dynamic r t.type) = .ok xs)) ∧
    (∀ xs, (StoredTable.undeclared name cells).instances r t = .ok xs ↔
      cells.mapM (fun cell => cell.value.bind (Conversion.dynamic r t.type)) = .ok xs) ∧
    ∀ (e : Equiv.Perm ℕ) (cells' : List Cell), Moved e cells cells' →
      ((∃ xs, (StoredTable.undeclared name cells).instances r t = .ok xs) ↔
        ∃ xs', (StoredTable.undeclared name cells').instances r t = .ok xs') ∧
      ∀ xs xs', (StoredTable.undeclared name cells).instances r t = .ok xs →
        (StoredTable.undeclared name cells').instances r t = .ok xs' → Moved e xs xs' := by
  have hcells : ∀ (cells : List Cell) xs,
      (StoredTable.undeclared name cells).instances r t = .ok xs ↔
        cells.mapM (fun cell => cell.value.bind (Conversion.dynamic r t.type)) = .ok xs := by
    intro cells xs
    rw [StoredTable.instances, StoredTable.read_undeclared, ← mapM_bind_eq_ok_iff]
    cases cells.mapM Cell.value with
    | error e => rfl
    | ok values => exact instances_singleColumn_iff hplain rfl xs
  refine ⟨fun column values xs hkind => instances_singleColumn_iff hplain hkind xs, hcells cells,
    fun e cells' hmoved => ?_⟩
  simp only [hcells]
  refine ⟨⟨?_, ?_⟩, ?_⟩
  · rintro ⟨xs, hxs⟩
    obtain ⟨xs', hxs', -⟩ := hmoved.mapM hxs
    exact ⟨xs', hxs'⟩
  · rintro ⟨xs', hxs'⟩
    obtain ⟨xs, hxs, -⟩ := hmoved.symm.mapM hxs'
    exact ⟨xs, hxs⟩
  · intro xs xs' hxs hxs'
    obtain ⟨ys, hys, hback⟩ := hmoved.mapM hxs
    rw [hxs'] at hys
    exact Except.ok.inj hys ▸ hback

/-- A missing cell, a place and a name are read as optional colours in both orders of the rows,
although the column is one of numbers in the first, and one of texts in the second. -/
theorem instances_undeclared_reversed :
    let t : Target Empty := ⟨.option (.enumeration Example.color), {}⟩
    let cells : List Cell := [.null, .integer 1, .text "RED"]
    ∃ xs xs', (StoredTable.undeclared "c" cells).instances .withDefaults t = .ok xs ∧
      (StoredTable.undeclared "c" cells.reverse).instances .withDefaults t = .ok xs' ∧
      xs = [.missing (.enumeration Example.color), .present (.variant Example.color "GREEN"),
        .present (.variant Example.color "RED")] ∧
      Moved (Equiv.swap 0 2) xs xs' := by
  intro t cells
  obtain ⟨-, hcells, horder⟩ := instances_undeclared (r := .withDefaults) (t := t) rfl "c" cells
  have hread := (hcells [.missing (.enumeration Example.color),
    .present (.variant Example.color "GREEN"), .present (.variant Example.color "RED")]).mpr rfl
  obtain ⟨hboth, hmoved⟩ := horder (Equiv.swap 0 2) cells.reverse (moved_reverse _ _ _)
  obtain ⟨xs', hxs'⟩ := hboth.mp ⟨_, hread⟩
  exact ⟨_, xs', hread, hxs', rfl, hmoved _ xs' hread hxs'⟩

end RowMapping
