/-
Single columns of types that are not described.

A type without constructors is built from a single column by converting its cells. The plan is
found for the kind of the column, but what a cell is read as depends on the kind of the cell
alone. So it is enough to know that there is some conversion for the column, and what the
conversion for the cell does.
-/
import RowMapping.Proofs.Instantiation.MissingCells

set_option autoImplicit false

namespace RowMapping

variable {α : Type}

/-- A conversion of a column is the plan, unless the kind of the column is not known and the type
has constructors. -/
theorem findPlan_direct {r : Registry α} {t : Target α} {column : Column}
    (hplain : column.kind = .null → t.description.constructors = []) {c : ColumnConversion α}
    (h : ColumnConversion.find? r column t.type = some c) :
    findPlan r t [column] = .ok (.direct c) := by
  have hdirect : directPlan? r t [column] = some c := by
    rw [directPlan?, if_neg, h]
    rintro ⟨hnull, hconstructors⟩
    simp [hplain hnull] at hconstructors
  rw [findPlan, hdirect]

/-- Without a conversion of the column there is no plan for it. -/
theorem findPlan_undirected {r : Registry α} {t : Target α}
    (hplain : t.description.constructors = []) {column : Column}
    (h : ColumnConversion.find? r column t.type = none) :
    findPlan r t [column] = .error (.instantiation (.noConstructors t.type [column])) := by
  have hdirect : directPlan? r t [column] = none := by
    simp [directPlan?, hplain, h]
  rw [findPlan, hdirect, hplain]
  rfl

/-- A conversion of a column is a plan, which reads each cell by the conversion for its kind. -/
theorem exists_directPlan {r : Registry α} {t : TargetType} {column : Column}
    (h : (ColumnConversion.find? r column t).isSome = true) :
    ∃ plan, findPlan r ⟨t, {}⟩ [column] = .ok plan ∧ ∀ v,
      plan.instantiate r t [v]
        = ((Conversion.dynamic r t v).mapError (Error.inColumn column.name)).bind (·.expect t) := by
  obtain ⟨c, hfind⟩ := Option.isSome_iff_exists.mp h
  refine ⟨.direct c, findPlan_direct (t := ⟨t, {}⟩) (fun _ => rfl) hfind, fun v => ?_⟩
  rw [Plan.instantiate_direct, ColumnConversion.convert_eq_dynamic hfind]

/-- A column has a conversion if its kind is not known or has one. -/
theorem ColumnConversion.isSome_find? {r : Registry α} {t : TargetType} {column : Column}
    (h : column.kind = .null ∨ (Conversion.find? r t column.kind).isSome = true) :
    (find? r column t).isSome = true := by
  unfold find?
  split
  · rfl
  · rename_i hknown
    rw [Option.isSome_map]
    exact h.resolve_left hknown

/-- A plan for a single column reads each cell by the conversion for its kind. -/
theorem instantiate_of_findPlan {r : Registry α} {t : TargetType} {column : Column} {plan : Plan α}
    (h : findPlan r ⟨t, {}⟩ [column] = .ok plan) (v : Value) :
    plan.instantiate r t [v]
      = ((Conversion.dynamic r t v).mapError (Error.inColumn column.name)).bind (·.expect t) := by
  -- a type that is not described has no other plan than the direct one
  cases hfind : ColumnConversion.find? r column t with
  | none =>
    rw [findPlan_undirected (t := ⟨t, {}⟩) rfl hfind] at h
    cases h
  | some c =>
    obtain ⟨direct, hdirect, hreads⟩ := exists_directPlan (Option.isSome_of_eq_some hfind)
    obtain rfl := Except.ok.inj (hdirect.symm.trans h)
    exact hreads v

end RowMapping
