/-
Which columns a constructor uses.

Parameters that are bound by name take columns no parameter before them took, and otherwise the
parameters take the first columns. The properties take what is left over, in order. So every
column is used exactly once.

Taking a value empties its place. As long as no column is taken twice, that comes to the same as
reading the values of the row: what stands in the places is the row without the columns that are
taken already, and a value that is taken next is still there.
-/
import RowMapping.Instantiation.Plan
import RowMapping.Proofs.Conversion.Outcomes
import Mathlib.Data.List.Nodup
import Mathlib.Data.List.Perm.Basic

set_option autoImplicit false

namespace RowMapping

variable {α : Type}

/-! ## Binding by name -/

/-- A column that is found by name is there and not in use. -/
theorem firstUnused_eq_some {columns : List Column} {used : List Nat} {name : String} {i : Nat}
    (h : firstUnused columns used name = some i) : i < columns.length ∧ i ∉ used := by
  have hmem := List.mem_of_find?_eq_some h
  have hunused := List.find?_some h
  simp only [Bool.and_eq_true, Bool.not_eq_true', List.contains_eq_mem, decide_eq_false_iff_not]
    at hunused
  exact ⟨List.mem_range.mp hmem, hunused.1⟩

theorem length_bindByName {columns : List Column} {ps : List Parameter} {used places : List Nat}
    (h : bindByName columns ps used = some places) : places.length = ps.length := by
  induction ps generalizing used places with
  | nil =>
    cases h
    rfl
  | cons p rest ih =>
    rw [bindByName] at h
    split at h
    · cases h
    · obtain ⟨tail, htail, rfl⟩ := Option.map_eq_some_iff.mp h
      simp [ih htail]

/-- Columns that are found by name are different from each other and from those in use. -/
theorem bindByName_distinct {columns : List Column} {ps : List Parameter} {used places : List Nat}
    (h : bindByName columns ps used = some places) :
    places.Nodup ∧ ∀ i ∈ places, i < columns.length ∧ i ∉ used := by
  induction ps generalizing used places with
  | nil =>
    cases h
    exact ⟨List.nodup_nil, by simp⟩
  | cons p rest ih =>
    rw [bindByName] at h
    split at h
    · cases h
    · next i hi =>
      obtain ⟨tail, htail, rfl⟩ := Option.map_eq_some_iff.mp h
      obtain ⟨hnodup, htail⟩ := ih htail
      refine ⟨List.nodup_cons.mpr ⟨fun hmem => (htail i hmem).2 List.mem_cons_self, hnodup⟩, ?_⟩
      rintro j (_ | ⟨_, hj⟩)
      · exact firstUnused_eq_some hi
      · exact ⟨(htail j hj).1, fun hused => (htail j hj).2 (List.mem_cons_of_mem i hused)⟩

/-- The columns of the parameters of a constructor: by name if that is possible, or else the first
ones. -/
def parameterPlaces (columns : List Column) (ps : List Parameter) : List Nat :=
  (bindByName columns ps []).getD (List.range ps.length)

theorem length_parameterPlaces (columns : List Column) (ps : List Parameter) :
    (parameterPlaces columns ps).length = ps.length := by
  unfold parameterPlaces
  cases hnamed : bindByName columns ps [] with
  | none => simp
  | some named => exact length_bindByName hnamed

/-- The columns of the parameters are different, and there if there are enough columns. -/
theorem parameterPlaces_distinct {columns : List Column} {ps : List Parameter}
    (h : ps.length ≤ columns.length) :
    (parameterPlaces columns ps).Nodup ∧ ∀ i ∈ parameterPlaces columns ps, i < columns.length := by
  unfold parameterPlaces
  cases hnamed : bindByName columns ps [] with
  | none => exact ⟨List.nodup_range, fun i hi => Nat.lt_of_lt_of_le (List.mem_range.mp hi) h⟩
  | some named =>
    obtain ⟨hnodup, hplaces⟩ := bindByName_distinct hnamed
    exact ⟨hnodup, fun i hi => (hplaces i hi).1⟩

/-- A column left over is the one of its place. -/
theorem getElem?_of_mem_leftOver {columns : List Column} {used : List Nat} {column : Column}
    {i : Nat} (h : (column, i) ∈ leftOver columns used) : columns[i]? = some column :=
  List.mem_zipIdx_iff_getElem?.mp (List.mem_of_mem_filter h)

/-- The columns left over keep their order. -/
theorem leftOver_places (columns : List Column) (used : List Nat) :
    (leftOver columns used).map Prod.snd =
      (List.range columns.length).filter fun i => decide (i ∉ used) := by
  have hplaces : columns.zipIdx.map Prod.snd = List.range columns.length := by
    rw [List.zipIdx_map_snd, List.range_eq_range']
  rw [← hplaces, List.filter_map]
  congr 1
  refine List.filter_congr fun entry _ => ?_
  simp

/-- Some different places and those left over are all places. -/
theorem perm_range_of_leftOver {n : Nat} {used : List Nat} (hnodup : used.Nodup)
    (hused : ∀ i ∈ used, i < n) :
    (used ++ (List.range n).filter fun i => decide (i ∉ used)).Perm (List.range n) := by
  refine (List.perm_ext_iff_of_nodup ?_ List.nodup_range).mpr fun i => ?_
  · refine List.nodup_append.mpr ⟨hnodup, List.nodup_range.filter _, ?_⟩
    rintro i hi j hj rfl
    exact of_decide_eq_true (List.mem_filter.mp hj).2 hi
  · by_cases hi : i ∈ used
    · simp [hi, hused i hi]
    · simp [hi]

/-! ## Plans -/

/-- A constructor and properties that are bound to all columns, each of them to one: the
parameters to different columns, with the conversions of these columns, and the properties to
what is left over, in order. -/
structure Candidate.UsesColumns (r : Registry α) (d : TypeDescription α) (columns : List Column)
    (c : Candidate α) : Prop where
  distinct : (c.parameters.map (·.index)).Nodup
  parameters : List.Forall₂ (fun p b => ∃ column, columns[b.index]? = some column ∧
    ColumnConversion.find? r column p.target = some b.conversion)
    c.constructor.parameters c.parameters
  rest : c.properties.map (·.index) = (List.range columns.length).filter fun i =>
    decide (i ∉ c.parameters.map (·.index))
  properties : ∀ p ∈ c.properties, ∃ column b, columns[p.index]? = some column ∧
    d.findProperty column.name = .ok (some b) ∧
    ColumnConversion.find? r column b.target = some p.conversion ∧ p.set = b.set

theorem bindParameter_eq_ok {r : Registry α} {columns : List Column} {p : Parameter} {i : Nat}
    {b : BoundParameter α} (h : bindParameter r columns p i = .ok b) :
    b.index = i ∧ ∃ column, columns[i]? = some column ∧
      ColumnConversion.find? r column p.target = some b.conversion := by
  unfold bindParameter at h
  split at h
  · cases h
  · next column hcolumn =>
    split at h
    · next conversion hfind =>
      cases h
      exact ⟨rfl, column, hcolumn, hfind⟩
    · cases h

theorem bindProperty_eq_ok {r : Registry α} {d : TypeDescription α} {column : Column} {i : Nat}
    {p : BoundProperty α} (h : bindProperty r d column i = .ok p) :
    p.index = i ∧ ∃ b, d.findProperty column.name = .ok (some b) ∧
      ColumnConversion.find? r column b.target = some p.conversion ∧ p.set = b.set := by
  unfold bindProperty at h
  split at h
  · cases h
  · cases h
  · next b hb =>
    split at h
    · next conversion hfind =>
      cases h
      exact ⟨rfl, b, hb, hfind, rfl⟩
    · cases h

/-- What an accepted constructor is bound to: its parameters to their columns, and the columns
left over to properties. -/
theorem evaluate_eq_ok {r : Registry α} {d : TypeDescription α} {columns : List Column}
    {c : Constructor α} {candidate : Candidate α} (h : evaluate r d columns c = .ok candidate) :
    c.parameters.length ≤ columns.length ∧ candidate.constructor = c ∧
      List.Forall₂ (fun entry b => bindParameter r columns entry.1 entry.2 = .ok b)
        (c.parameters.zip (parameterPlaces columns c.parameters)) candidate.parameters ∧
      List.Forall₂ (fun entry p => bindProperty r d entry.1 entry.2 = .ok p)
        (leftOver columns (parameterPlaces columns c.parameters)) candidate.properties := by
  unfold evaluate at h
  split at h
  · cases h
  · next hcolumns =>
    simp only [bind, Except.bind] at h
    split at h
    · cases h
    · next parameters hparameters =>
      split at h
      · cases h
      · next properties hproperties =>
        cases h
        exact ⟨Nat.le_of_not_lt hcolumns, rfl, mapM_eq_ok_iff.mp hparameters,
          mapM_eq_ok_iff.mp hproperties⟩

/-- Related lists agree in what the relation preserves. -/
theorem map_eq_of_forall₂ {β γ δ : Type} {R : β → γ → Prop} {f : β → δ} {g : γ → δ}
    (hR : ∀ x y, R x y → g y = f x) {xs : List β} {ys : List γ} (h : List.Forall₂ R xs ys) :
    ys.map g = xs.map f := by
  induction h with
  | nil => rfl
  | cons hxy _ ih => rw [List.map_cons, List.map_cons, hR _ _ hxy, ih]

/-- A constructor that is accepted uses every column once. -/
theorem usesColumns_of_evaluate {r : Registry α} {d : TypeDescription α} {columns : List Column}
    {c : Constructor α} {candidate : Candidate α} (h : evaluate r d columns c = .ok candidate) :
    candidate.UsesColumns r d columns := by
  obtain ⟨hcolumns, hconstructor, hparameters, hproperties⟩ := evaluate_eq_ok h
  have hlength := length_parameterPlaces columns c.parameters
  have hplaces : candidate.parameters.map (·.index) = parameterPlaces columns c.parameters := by
    have hindices := map_eq_of_forall₂ (f := Prod.snd) (g := BoundParameter.index)
      (fun _ _ hbind => (bindParameter_eq_ok hbind).1) hparameters
    rwa [List.map_snd_zip (by omega)] at hindices
  refine ⟨hplaces ▸ (parameterPlaces_distinct hcolumns).1, ?_, ?_, fun p hp => ?_⟩
  · have hbound : List.Forall₂ (fun p b => ∃ column, columns[b.index]? = some column ∧
        ColumnConversion.find? r column p.target = some b.conversion)
        ((c.parameters.zip (parameterPlaces columns c.parameters)).map Prod.fst)
        candidate.parameters := by
      refine List.forall₂_map_left_iff.mpr (hparameters.imp fun _ b hbind => ?_)
      obtain ⟨hindex, hcolumn⟩ := bindParameter_eq_ok hbind
      rw [hindex]
      exact hcolumn
    rwa [List.map_fst_zip (by omega), ← hconstructor] at hbound
  · have hindices := map_eq_of_forall₂ (f := Prod.snd) (g := BoundProperty.index)
      (fun _ _ hbind => (bindProperty_eq_ok hbind).1) hproperties
    rw [hplaces, ← leftOver_places]
    exact hindices
  · obtain ⟨⟨column, i⟩, hentry, hbind⟩ := exists_of_forall₂ hproperties hp
    obtain ⟨hindex, b, hb⟩ := bindProperty_eq_ok hbind
    exact ⟨column, b, hindex ▸ getElem?_of_mem_leftOver hentry, hb⟩

namespace Candidate.UsesColumns

variable {r : Registry α} {d : TypeDescription α} {columns : List Column} {c : Candidate α}

/-- Together, the parameters and the properties are bound to every column once. -/
theorem perm (h : c.UsesColumns r d columns) :
    (c.parameters.map (·.index) ++ c.properties.map (·.index)).Perm
      (List.range columns.length) := by
  rw [h.rest]
  refine perm_range_of_leftOver h.distinct fun i hi => ?_
  obtain ⟨b, hb, rfl⟩ := List.mem_map.mp hi
  obtain ⟨_, -, _, hcolumn, -⟩ := exists_of_forall₂ h.parameters hb
  exact (List.getElem?_eq_some_iff.mp hcolumn).1

end Candidate.UsesColumns

/-! ## Taking values -/

/-- The columns a plan uses, in the order in which it takes their values. -/
def Plan.indices : Plan α → List Nat
  | .direct _ => [0]
  | .reflective c => c.parameters.map (·.index) ++ c.properties.map (·.index)

/-- The value of a row for a column. -/
def rowValue (values : List Value) (index : Nat) : Except Error Value :=
  match values[index]? with
  | some v => .ok v
  | none => .error (.unexpectedResult (.shortRow index))

/-- The converted value of a row for a column. -/
def readConverted (r : Registry α) (values : List Value) (index : Nat)
    (conversion : ColumnConversion α) : Except Error (Object α) := do
  let v ← rowValue values index
  conversion.convert r v

/-- Set the bound properties of an object to values of a row. -/
def readProperties (r : Registry α) (values : List Value) :
    List (BoundProperty α) → Object α → Except Error (Object α)
  | [], x => .ok x
  | p :: rest, x => do
    let y ← readConverted r values p.index p.conversion
    let x ← p.set y x
    readProperties r values rest x

/-- Build an instance from values that are read, and stay where they are. -/
def Plan.read (r : Registry α) (t : TargetType) (values : List Value) :
    Plan α → Except Error (Object α)
  | direct conversion => do
    let x ← readConverted r values 0 conversion
    x.expect t
  | reflective candidate => do
    let arguments ← candidate.parameters.mapM fun p => readConverted r values p.index p.conversion
    let x ← candidate.constructor.construct arguments
    readProperties r values candidate.properties x

/-- The places of a row of which some values are taken. -/
def placesWithout (row : List Value) (taken : List Nat) : List (Option Value) :=
  row.mapIdx fun i v => if i ∈ taken then none else some v

@[simp] theorem placesWithout_nil (row : List Value) : placesWithout row [] = row.map some := by
  simp [placesWithout, List.mapIdx_eq_iff]

/-- Emptying a place is taking its value. -/
theorem set_placesWithout (row : List Value) (taken : List Nat) (index : Nat) :
    (placesWithout row taken).set index none = placesWithout row (taken ++ [index]) := by
  refine List.ext_getElem? fun i => ?_
  rw [List.getElem?_set, placesWithout, placesWithout, List.getElem?_mapIdx, List.getElem?_mapIdx,
    List.length_mapIdx]
  by_cases hi : i = index
  · subst hi
    by_cases hthere : i < row.length
    · simp [hthere]
    · simp [hthere]
  · simp [hi, Ne.symm hi]

/-- A value that is not taken yet is in its place, and then it is taken. -/
theorem takeValue_placesWithout {row : List Value} {taken : List Nat} {index : Nat}
    (h : index ∉ taken) : takeValue index (placesWithout row taken) =
      (rowValue row index).map fun v => (v, placesWithout row (taken ++ [index])) := by
  have hplace : (placesWithout row taken)[index]? = row[index]?.map some := by
    rw [placesWithout, List.getElem?_mapIdx]
    simp [h]
  rw [takeValue, hplace, rowValue, set_placesWithout]
  cases row[index]? <;> rfl

theorem takeConverted_placesWithout (r : Registry α) {row : List Value} {taken : List Nat}
    {index : Nat} (h : index ∉ taken) (conversion : ColumnConversion α) :
    takeConverted r index conversion (placesWithout row taken) =
      (readConverted r row index conversion).map fun x =>
        (x, placesWithout row (taken ++ [index])) := by
  simp only [takeConverted, readConverted, bind, StateT.bind, takeValue_placesWithout h]
  cases rowValue row index with
  | error e => rfl
  | ok v =>
    simp only [Except.map, Except.bind]
    cases conversion.convert r v <;> rfl

/-- The first of different indices is not taken yet, and the others are different from it. -/
theorem new_of_nodup {taken rest : List Nat} {index : Nat} (h : (taken ++ index :: rest).Nodup) :
    index ∉ taken ∧ ((taken ++ [index]) ++ rest).Nodup := by
  have hmiddle := (List.nodup_cons.mp (List.nodup_middle.mp h)).1
  exact ⟨fun hmem => hmiddle (List.mem_append_left rest hmem), by simpa using h⟩

/-- Taking the values of different parameters is reading them. -/
theorem takeParameters_placesWithout (r : Registry α) {row : List Value}
    {ps : List (BoundParameter α)} {taken : List Nat}
    (h : (taken ++ ps.map (·.index)).Nodup) :
    ps.mapM (fun p => takeConverted r p.index p.conversion) (placesWithout row taken) =
      (ps.mapM fun p => readConverted r row p.index p.conversion).map fun xs =>
        (xs, placesWithout row (taken ++ ps.map (·.index))) := by
  induction ps generalizing taken with
  | nil =>
    rw [List.mapM_nil, List.mapM_nil, List.map_nil, List.append_nil]
    rfl
  | cons p rest ih =>
    obtain ⟨hnew, hrest⟩ := new_of_nodup h
    rw [List.mapM_cons, List.mapM_cons]
    simp only [bind, StateT.bind, takeConverted_placesWithout r hnew]
    cases readConverted r row p.index p.conversion with
    | error e => rfl
    | ok x =>
      simp only [Except.map, Except.bind, ih hrest]
      cases rest.mapM fun p => readConverted r row p.index p.conversion with
      | error e => rfl
      | ok xs =>
        show Except.ok (x :: xs, placesWithout row ((taken ++ [p.index]) ++ rest.map (·.index))) = _
        rw [List.append_assoc]
        rfl

/-- Setting different properties to values that are taken is setting them to values that are
read. -/
theorem setProperties_placesWithout (r : Registry α) {row : List Value}
    {ps : List (BoundProperty α)} {taken : List Nat} (x : Object α)
    (h : (taken ++ ps.map (·.index)).Nodup) :
    setProperties r ps x (placesWithout row taken) =
      (readProperties r row ps x).map fun y =>
        (y, placesWithout row (taken ++ ps.map (·.index))) := by
  induction ps generalizing taken x with
  | nil =>
    rw [List.map_nil, List.append_nil]
    rfl
  | cons p rest ih =>
    obtain ⟨hnew, hrest⟩ := new_of_nodup h
    simp only [setProperties, readProperties, bind, StateT.bind,
      takeConverted_placesWithout r hnew]
    cases readConverted r row p.index p.conversion with
    | error e => rfl
    | ok y =>
      simp only [Except.map, Except.bind]
      cases p.set y x with
      | error e => rfl
      | ok x' =>
        have hlater := ih x' hrest
        rw [List.append_assoc] at hlater
        exact hlater

/-- Taking the values of a row is reading them if the plan uses no column twice. -/
theorem Plan.build_eq_read (r : Registry α) (t : TargetType) (row : List Value) (plan : Plan α)
    (h : plan.indices.Nodup) :
    plan.build r t (row.map some) =
      (plan.read r t row).map fun x => (x, placesWithout row plan.indices) := by
  rw [← placesWithout_nil]
  cases plan with
  | direct conversion =>
    simp only [Plan.build, Plan.read, bind, StateT.bind,
      takeConverted_placesWithout r List.not_mem_nil]
    cases readConverted r row 0 conversion with
    | error e => rfl
    | ok x =>
      simp only [Except.map, Except.bind]
      cases x.expect t <;> rfl
  | reflective c =>
    have hparameters : (([] : List Nat) ++ c.parameters.map (·.index)).Nodup := (List.nodup_append.mp h).1
    -- each place is used once, so the values of the properties are still there after the parameters
    simp only [Plan.build, Plan.read, bind, StateT.bind,
      takeParameters_placesWithout r hparameters]
    cases c.parameters.mapM fun p : BoundParameter α => readConverted r row p.index p.conversion with
    | error e => rfl
    | ok arguments =>
      simp only [Except.map, Except.bind]
      cases c.constructor.construct arguments with
      | error e => rfl
      | ok x => exact setProperties_placesWithout r x h

/-- Building an instance from a row is reading the row if the plan uses no column twice. -/
theorem Plan.instantiate_eq_read (r : Registry α) (t : TargetType) (row : List Value)
    (plan : Plan α) (h : plan.indices.Nodup) : plan.instantiate r t row = plan.read r t row := by
  rw [Plan.instantiate, Plan.build_eq_read r t row plan h]
  cases plan.read r t row <;> rfl

end RowMapping
