/-
Rows are used up.

A plan uses every column once. So for a row with a value for each column, no value is missing when
it is taken, and once an instance is built none is left: the instance is what the conversions make
of the values of their columns, and the constructor is handed one object for each of its
parameters, in order and of its type.
-/
import RowMapping.Proofs.Instantiation.Rows

set_option autoImplicit false

namespace RowMapping

variable {α : Type}

/-! ## Rows with a value for every column -/

/-- The instance that a plan builds if every column has a value. -/
def Plan.assemble (r : Registry α) (t : TargetType) (cell : Nat → Value) :
    Plan α → Except Error (Object α)
  | direct conversion => do
    let x ← conversion.convert r (cell 0)
    x.expect t
  | reflective c => do
    let arguments ← c.parameters.mapM fun p => p.conversion.convert r (cell p.index)
    let x ← c.constructor.construct arguments
    c.properties.foldlM (fun x p => do
      let y ← p.conversion.convert r (cell p.index)
      p.set y x) x

section Assemble

variable {r : Registry α} {row : List Value} {cell : Nat → Value}

theorem readConverted_eq_convert {index : Nat} (h : row[index]? = some (cell index))
    (conversion : ColumnConversion α) :
    readConverted r row index conversion = conversion.convert r (cell index) := by
  rw [readConverted, rowValue, h]
  rfl

/-- Functions that agree on the items of a list agree on the list. -/
theorem mapM_congr_of_mem {β γ ε : Type} {f g : β → Except ε γ} {xs : List β}
    (h : ∀ x ∈ xs, f x = g x) : xs.mapM f = xs.mapM g := by
  induction xs with
  | nil => rfl
  | cons x rest ih =>
    rw [List.mapM_cons, List.mapM_cons, h x List.mem_cons_self,
      ih fun y hy => h y (List.mem_cons_of_mem x hy)]

theorem readProperties_eq_foldlM {ps : List (BoundProperty α)}
    (h : ∀ p ∈ ps, row[p.index]? = some (cell p.index)) (x : Object α) :
    readProperties r row ps x = ps.foldlM (fun x p => do
      let y ← p.conversion.convert r (cell p.index)
      p.set y x) x := by
  induction ps generalizing x with
  | nil => rfl
  | cons p rest ih =>
    rw [readProperties, readConverted_eq_convert (h p List.mem_cons_self), List.foldlM_cons]
    simp only [bind, Except.bind]
    cases p.conversion.convert r (cell p.index) with
    | error e => rfl
    | ok y =>
      simp only []
      cases p.set y x with
      | error e => rfl
      | ok x' => exact ih (fun q hq => h q (List.mem_cons_of_mem p hq)) x'

theorem Plan.read_eq_assemble (t : TargetType) {plan : Plan α}
    (h : ∀ i ∈ plan.indices, row[i]? = some (cell i)) :
    plan.read r t row = plan.assemble r t cell := by
  cases plan with
  | direct conversion =>
    rw [Plan.read, Plan.assemble, readConverted_eq_convert (h 0 List.mem_cons_self)]
  | reflective c =>
    have hparameters : ∀ p ∈ c.parameters, readConverted r row p.index p.conversion =
        p.conversion.convert r (cell p.index) := fun p hp =>
      readConverted_eq_convert
        (h p.index (List.mem_append_left _ (List.mem_map_of_mem hp))) p.conversion
    have hproperties : ∀ p ∈ c.properties, row[p.index]? = some (cell p.index) := fun p hp =>
      h p.index (List.mem_append_right _ (List.mem_map_of_mem hp))
    rw [Plan.read, Plan.assemble, mapM_congr_of_mem hparameters]
    simp only [readProperties_eq_foldlM hproperties]

end Assemble

/-- If all values are taken, no place has one. -/
theorem placesWithout_eq_replicate {row : List Value} {taken : List Nat}
    (h : ∀ i < row.length, i ∈ taken) :
    placesWithout row taken = List.replicate row.length none := by
  refine List.ext_getElem (by simp [placesWithout]) fun i hi _ => ?_
  have hrow : i < row.length := by simpa [placesWithout] using hi
  simp [placesWithout, h i hrow]

/-! ## Plans that are found -/

/-- The plan that is found for some columns uses every column once. -/
theorem perm_indices_of_findPlan {r : Registry α} {t : Target α} {columns : List Column}
    {plan : Plan α} (h : findPlan r t columns = .ok plan) :
    plan.indices.Perm (List.range columns.length) := by
  rcases findPlan_ok_cases h with ⟨column, c, rfl, rfl, -⟩ | ⟨c, -, candidate, hevaluate, rfl⟩
  · exact .refl [0]
  · exact (usesColumns_of_evaluate hevaluate).perm

/-- The plan that is found for some columns uses every one of them once: the parameters have
different columns, one for each, and the properties have the others in order. So a row with as
many values as there are columns is never too short; nothing is left of it once an instance is
built, which is made of the converted values of all its columns; and the constructor is handed
one object for each parameter, in order and of the type of the parameter. -/
theorem findPlan_usesColumnsOnce {r : Registry α} {t : Target α} {columns : List Column}
    {plan : Plan α} (h : findPlan r t columns = .ok plan) :
    plan.indices.Perm (List.range columns.length) ∧
    (∀ c, plan = .direct c → ∃ column, columns = [column] ∧
      ColumnConversion.find? r column t.type = some c) ∧
    (∀ c, plan = .reflective c → c.constructor ∈ t.description.constructors ∧
      c.UsesColumns r t.description columns) ∧
    ∀ row : List Value, row.length = columns.length →
      (∀ e, plan.instantiate r t.type row = .error e → r.RaisesForRow t e) ∧
      (∀ x places, plan.build r t.type (row.map some) = .ok (x, places) →
        places = List.replicate columns.length none) ∧
      plan.instantiate r t.type row = plan.assemble r t.type (fun i => row.getD i .null) ∧
      ∀ c arguments, plan = .reflective c →
        c.parameters.mapM (fun p => p.conversion.convert r (row.getD p.index .null))
          = .ok arguments →
        arguments.map Object.type = c.constructor.parameters.map Parameter.target := by
  have hbound := bound_of_findPlan h
  have hperm := perm_indices_of_findPlan h
  refine ⟨hperm, fun c hc => ?_, fun c hc => ?_, fun row hrow => ?_⟩
  · subst hc
    rcases findPlan_ok_cases h with ⟨column, c', rfl, hc, hfind⟩ | ⟨c', -, candidate, -, hc⟩
    · cases hc
      exact ⟨column, rfl, hfind⟩
    · cases hc
  · subst hc
    rcases findPlan_ok_cases h with ⟨column, c', -, hc, -⟩ | ⟨c', -, candidate, hevaluate, hc⟩
    · cases hc
    · cases hc
      exact ⟨hbound.constructor, usesColumns_of_evaluate hevaluate⟩
  · have hindices : ∀ i ∈ plan.indices, i < row.length := fun i hi => by
      rw [hrow]
      exact List.mem_range.mp (hperm.mem_iff.mp hi)
    have hcell : ∀ i ∈ plan.indices, row[i]? = some (row.getD i .null) := fun i hi => by
      rw [List.getD_eq_getElem?_getD, List.getElem?_eq_getElem (hindices i hi), Option.getD_some]
    refine ⟨fun e he => (explainsRead_of_instantiate hbound he).raises hindices,
      fun x places hbuild => ?_, ?_, fun c arguments hc harguments => ?_⟩
    · rw [Plan.build_eq_read r t.type row plan hbound.nodup] at hbuild
      cases hread : plan.read r t.type row with
      | error e => simp [hread, Except.map] at hbuild
      | ok y =>
        simp only [hread, Except.map, Except.ok.injEq, Prod.mk.injEq] at hbuild
        rw [← hbuild.2, ← hrow]
        exact placesWithout_eq_replicate fun i hi =>
          hperm.mem_iff.mpr (List.mem_range.mpr (hrow ▸ hi))
    · rw [Plan.instantiate_eq_read r t.type row plan hbound.nodup,
        Plan.read_eq_assemble t.type hcell]
    · subst hc
      have hread : c.parameters.mapM (fun p => readConverted r row p.index p.conversion)
          = .ok arguments := by
        rw [← harguments]
        refine mapM_congr_of_mem fun p hp => ?_
        have hp := hcell p.index (List.mem_append_left _ (List.mem_map_of_mem hp))
        rw [readConverted, rowValue, hp]
        rfl
      exact types_of_parameters hbound.parameters (mapM_eq_ok_iff.mp hread)

/-- A target whose constructor takes the second column before the first, and leaves the third to
a property. -/
def crossedTarget : Target Empty where
  type := .string
  description :=
    { constructors := [⟨[⟨"right", .string⟩, ⟨"left", .string⟩], nextArgument .string⟩]
      members := [.property "rest" .string fun _ owner => owner] }

/-- Three columns of unknown kind. -/
def crossedColumns : List Column :=
  [⟨0, "left", .null, none⟩, ⟨1, "right", .null, none⟩, ⟨2, "rest", .null, none⟩]

/-- The first two columns are used in the order of the parameters, and with the third one all are
used. -/
theorem findPlan_usesColumnsOnce_crossed :
    ∃ c, findPlan Registry.empty crossedTarget crossedColumns = .ok (.reflective c) ∧
      c.parameters.map (·.index) = [1, 0] ∧ c.properties.map (·.index) = [2] ∧
      (Plan.reflective c).indices.Perm (List.range 3) ∧
      c.UsesColumns Registry.empty crossedTarget.description crossedColumns := by
  obtain ⟨c, hevaluate, hparameters, hproperties⟩ : ∃ c,
      evaluate Registry.empty crossedTarget.description crossedColumns
        ⟨[⟨"right", .string⟩, ⟨"left", .string⟩], nextArgument .string⟩ = .ok c ∧
      c.parameters.map (·.index) = [1, 0] ∧ c.properties.map (·.index) = [2] := ⟨_, rfl, rfl, rfl⟩
  have hplan : findPlan Registry.empty crossedTarget crossedColumns = .ok (.reflective c) :=
    (findPlan_eq_ok_iff (List.cons_ne_nil _ _) rfl).mpr
      ⟨[], _, [], c, rfl, hevaluate, rfl, fun _ hmem => absurd hmem List.not_mem_nil⟩
  obtain ⟨hperm, -, hcolumns, -⟩ := findPlan_usesColumnsOnce hplan
  exact ⟨c, hplan, hparameters, hproperties, hperm, (hcolumns c rfl).2⟩

end RowMapping
