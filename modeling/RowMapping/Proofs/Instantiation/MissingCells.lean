/-
Missing cells in columns that are read as options.

A registered conversion is not made for missing values: asked for one, it refuses. They belong
to the options, which read them as missing options. But a registered conversion is looked for
before the shape of the type, and the kind of missing values has an ancestor as every kind has.
So a conversion to the very type of an option that is registered for one of these kinds takes
the missing cells away from the option, and refuses them. All other registrations, also those
that convert what is there in the column, leave the missing cells to the option.
-/
import RowMapping.Conversion.Defaults
import RowMapping.Proofs.Instantiation.Choice
import RowMapping.Proofs.Instantiation.Places

set_option autoImplicit false

namespace RowMapping

variable {α : Type}

/-! ## Registrations in the way -/

namespace Registry

/-- No conversion to exactly this type is registered for a kind that missing values are of. -/
def LeavesMissing (r : Registry α) (t : TargetType) : Prop :=
  ∀ c ∈ r.fromDatabase, c.source ∈ ValueKind.null.ancestors → c.conversion.target ≠ t

instance (r : Registry α) (t : TargetType) : Decidable (r.LeavesMissing t) :=
  inferInstanceAs (Decidable (∀ c ∈ r.fromDatabase, _))

/-- Nothing is found for a kind if and only if nothing is registered for its ancestors. -/
theorem find?_eq_none_iff {r : Registry α} {source : ValueKind} {t : TargetType} :
    r.find? source t = none ↔
      ∀ c ∈ r.fromDatabase, c.source ∈ source.ancestors → c.conversion.target ≠ t := by
  simp only [find?, latest?, List.findSome?_eq_none_iff, Option.map_eq_none_iff,
    List.find?_eq_none, isFor, Bool.and_eq_true, beq_iff_eq, not_and]
  constructor
  · intro h c hc hsource
    exact h c.source hsource c hc rfl
  · rintro h kind hkind c hc rfl
    exact h c hc hkind

theorem leavesMissing_iff {r : Registry α} {t : TargetType} :
    r.LeavesMissing t ↔ r.find? .null t = none :=
  find?_eq_none_iff.symm

end Registry

/-! ## Missing values -/

namespace Conversion

variable {r : Registry α} {inner : TargetType}

/-- The search for missing values ends with the option itself, if no registration is in the
way. -/
theorem find?_missing (h : r.LeavesMissing (.option inner)) :
    find? r (.option inner) .null = some ⟨.assignable, fun _ => .ok (.missing inner)⟩ := by
  have hdirect : direct? r (.option inner) .null = none := by
    simp [direct?, native?, Registry.leavesMissing_iff.mp h]
  rw [find?, hdirect]
  rfl

/-- A missing value is read as a missing option, or refused by a registration in the way. -/
theorem dynamic_missing (r : Registry α) (inner : TargetType) :
    dynamic r (.option inner) .null
      = if r.LeavesMissing (.option inner) then .ok (.missing inner)
        else .error (.conversion (.null (.option inner))) := by
  by_cases h : r.LeavesMissing (.option inner)
  · rw [if_pos h, dynamic, dynamicBy, Value.kind, find?_missing h]
  · rw [if_neg h]
    -- what is registered is found first, is to this type, and takes no missing value
    obtain ⟨c, hfound⟩ := Option.ne_none_iff_exists'.mp (mt Registry.leavesMissing_iff.mpr h)
    have hdirect : direct? r (.option inner) .null = some ⟨.registered, c.convert⟩ := by
      simp [direct?, native?, hfound]
    rw [dynamic, dynamicBy, Value.kind, find?, hdirect]
    have hrefused : c.convert .null = .error (.conversion (.null c.target)) := rfl
    rw [← Registry.target_of_find? hfound]
    exact hrefused

end Conversion

/-! ## Missing cells -/

/-- A single column that is converted directly is read by its conversion. -/
theorem Plan.instantiate_direct {r : Registry α} {t : TargetType} {c : ColumnConversion α}
    {v : Value} (rest : List Value) :
    (Plan.direct c).instantiate r t (v :: rest) = (c.convert r v).bind (·.expect t) := by
  rw [instantiate_eq_read r t (v :: rest) (.direct c) (List.nodup_singleton 0)]
  rfl

/-- A missing cell of a column that is converted directly to an option is read as a missing
option, by the option itself, as long as no conversion to the type of the option is registered
for the kind of missing values or an ancestor of it. If one is, the cell is an error, whatever
the kind of the column is. -/
theorem instantiate_missing {r : Registry α} {t : Target α} {inner : TargetType}
    (htype : t.type = .option inner) {column : Column} {c : ColumnConversion α}
    (hplan : findPlan r t [column] = .ok (.direct c)) (rest : List Value) :
    (r.LeavesMissing t.type →
      Conversion.find? r t.type .null = some ⟨.assignable, fun _ => .ok (.missing inner)⟩ ∧
        (Plan.direct c).instantiate r t.type (.null :: rest) = .ok (.missing inner)) ∧
    (¬ r.LeavesMissing t.type →
      (Plan.direct c).instantiate r t.type (.null :: rest)
        = .error (.inColumn column.name (.conversion (.null t.type)))) := by
  have hfound : ColumnConversion.find? r column t.type = some c := by
    rcases findPlan_ok_cases hplan with ⟨_, _, hcolumn, hdirect, hfound⟩ | ⟨_, -, _, -, hne⟩
    · cases hcolumn
      cases hdirect
      exact hfound
    · cases hne
  rw [Plan.instantiate_direct, ColumnConversion.convert_eq_dynamic hfound, htype,
    Conversion.dynamic_missing]
  constructor
  · intro h
    refine ⟨Conversion.find?_missing h, ?_⟩
    rw [if_pos h]
    exact Object.expect_of_type rfl
  · intro h
    rw [if_neg h]
    rfl

/-- The length of a value as it is shown, as an option. -/
def optionalLength : TypeConversion Empty :=
  .ofFunction (.option (.integer .i64)) (fun n : Int => .present (.integer .i64 n)) (fun _ => rfl)
    fun v => .ok v.display.length

/-- Conversions to options that are registered for other kinds, and one of the inner type that
is registered for all, leave a missing cell to the option. -/
theorem instantiate_missing_otherKinds :
    let r := ((Registry.withDefaults.register .integer optionalLength).register .text
      optionalLength).register .any (Conversion.integer .i64)
    let t : Target Empty := ⟨.option (.integer .i64), {}⟩
    r.LeavesMissing t.type ∧ ∃ c, findPlan r t [⟨0, "size", .integer, none⟩] = .ok (.direct c) ∧
      (Plan.direct c).instantiate r t.type [.integer 42]
        = .ok (.present (.integer .i64 2)) ∧
      (Plan.direct c).instantiate r t.type [.null] = .ok (.missing (.integer .i64)) := by
  intro r t
  have hleaves : r.LeavesMissing t.type := by decide
  have hplan : ∃ c, findPlan r t [⟨0, "size", .integer, none⟩] = .ok (.direct c) := ⟨_, rfl⟩
  obtain ⟨c, hc⟩ := hplan
  refine ⟨hleaves, c, hc, ?_, ((instantiate_missing rfl hc []).1 hleaves).2⟩
  cases hc
  rfl

/-- A conversion to the type of an option that is registered for all values makes every missing
cell of the type an error. -/
theorem instantiate_missing_anyKind :
    let r := Registry.withDefaults.register .any optionalLength
    let t : Target Empty := ⟨.option (.integer .i64), {}⟩
    ∃ c, findPlan r t [⟨0, "size", .integer, none⟩] = .ok (.direct c) ∧
      (Plan.direct c).instantiate r t.type [.null]
        = .error (.conversion (.inColumn (.null (.option (.integer .i64))) "size")) :=
  ⟨_, rfl, rfl⟩

end RowMapping
