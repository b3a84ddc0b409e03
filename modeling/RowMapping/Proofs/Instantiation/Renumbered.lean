/-
Columns that are numbered anew.

When some columns of a result are taken, they keep the numbers they had in it. Nothing that builds
instances reads these numbers: what is looked for is the name and the kind of a column, and a
value is taken by the place of its column in the list at hand. So for columns that have the same
names and kinds in the same order, a plan is found in the same cases, and it builds the same
instance from each row.
-/
import RowMapping.Proofs.Instantiation.ColumnOrder
import RowMapping.Table.Instances

set_option autoImplicit false

namespace RowMapping

variable {α : Type} {r : Registry α} {columns columns' : List Column}

/-! ## The same labels -/

/-- Columns of the same names and kinds, in the same order. -/
def SameLabels (columns columns' : List Column) : Prop :=
  columns'.map Column.label = columns.map Column.label

namespace SameLabels

theorem symm (h : SameLabels columns columns') : SameLabels columns' columns := Eq.symm h

/-- Columns of the same labels have not moved. -/
theorem moved (h : SameLabels columns columns') :
    ColumnsMoved (Equiv.refl ℕ) columns columns' := fun i =>
  congrArg (fun labels => labels[i]?) h

/-- A parameter finds the same place. -/
theorem firstUnused_eq (h : SameLabels columns columns') (used : List ℕ) (name : String) :
    firstUnused columns' used name = firstUnused columns used name := by
  have hnames : ∀ i : ℕ, (columns'[i]?).any (fun c : Column => namesMatch name c.name)
      = (columns[i]?).any (fun c : Column => namesMatch name c.name) := by
    intro i
    have hlabel := congrArg (Option.any fun label => namesMatch name label.1) (h.moved i)
    rwa [List.getElem?_map, List.getElem?_map, Option.any_map, Option.any_map] at hlabel
  simp only [firstUnused, h.moved.length_eq, hnames]

theorem bindByName_eq (h : SameLabels columns columns') (ps : List Parameter) (used : List ℕ) :
    bindByName columns' ps used = bindByName columns ps used := by
  induction ps generalizing used with
  | nil => rfl
  | cons p rest ih => simp only [bindByName, h.firstUnused_eq, ih]

theorem parameterPlaces_eq (h : SameLabels columns columns') (ps : List Parameter) :
    parameterPlaces columns' ps = parameterPlaces columns ps := by
  rw [parameterPlaces, parameterPlaces, h.bindByName_eq]

/-- The same columns are left over, in the same order. -/
theorem forall₂_leftOver (h : SameLabels columns columns') (used : List ℕ) :
    List.Forall₂ (fun entry entry' => entry'.2 = entry.2 ∧ entry'.1.label = entry.1.label)
      (leftOver columns used) (leftOver columns' used) := by
  refine List.rel_filter (fun entry entry' hentry => ?_) ?_
  · show (!used.contains entry.2) = true ↔ (!used.contains entry'.2) = true
    rw [hentry.1]
  · refine List.forall₂_iff_get.mpr ⟨by simp [h.moved.length_eq], fun i hi hi' => ?_⟩
    rw [List.length_zipIdx] at hi hi'
    obtain ⟨column', hcolumn', hlabel⟩ := h.moved.column (List.getElem?_eq_getElem hi)
    obtain ⟨_, rfl⟩ := List.getElem?_eq_some_iff.mp hcolumn'
    simpa using hlabel

end SameLabels

/-! ## Plans that do the same -/

/-- Candidates with the same places and the same conversions. -/
structure Candidate.Alike (c c' : Candidate α) : Prop where
  constructor : c'.constructor = c.constructor
  named : c'.named = c.named
  parameters : List.Forall₂ (BoundParameter.Follows (Equiv.refl ℕ)) c.parameters c'.parameters
  properties : List.Forall₂ (BoundProperty.Follows (Equiv.refl ℕ)) c.properties c'.properties

theorem Candidate.Alike.follows {c c' : Candidate α} (h : c.Alike c') :
    c.Follows (Equiv.refl ℕ) c' :=
  ⟨h.constructor, h.named, h.parameters, c.properties, .refl _, h.properties⟩

/-- Plans with the same conversions of the same places. -/
inductive Plan.Alike : Plan α → Plan α → Prop
  | direct {c c' : ColumnConversion α} : c.Alike c' → Alike (.direct c) (.direct c')
  | reflective {c c' : Candidate α} : c.Alike c' → Alike (.reflective c) (.reflective c')

/-- The conversion of a place does the same to every row. -/
theorem takeConverted_eq {c c' : ColumnConversion α} (h : c.Alike c') (i : ℕ) :
    takeConverted r i c' = takeConverted r i c := by
  simp only [takeConverted, h.convert]

theorem takeParameters_eq {ps ps' : List (BoundParameter α)}
    (h : List.Forall₂ (BoundParameter.Follows (Equiv.refl ℕ)) ps ps') :
    ps'.mapM (fun p => takeConverted r p.index p.conversion)
      = ps.mapM fun p => takeConverted r p.index p.conversion := by
  induction h with
  | nil => rfl
  | cons hp _ ih => rw [List.mapM_cons, List.mapM_cons, ih, takeConverted_eq hp.conversion, hp.index,
      Equiv.refl_apply]

theorem setProperties_eq {ps ps' : List (BoundProperty α)}
    (h : List.Forall₂ (BoundProperty.Follows (Equiv.refl ℕ)) ps ps') (x : Object α) :
    setProperties r ps' x = setProperties r ps x := by
  induction h generalizing x with
  | nil => rfl
  | cons hp _ ih =>
    simp only [setProperties, ih, takeConverted_eq hp.conversion, hp.index, hp.set,
      Equiv.refl_apply]

/-- Plans that are alike build the same instances. -/
theorem Plan.Alike.instantiate_eq {plan plan' : Plan α} (h : plan.Alike plan') (t : TargetType)
    (row : List Value) : plan'.instantiate r t row = plan.instantiate r t row := by
  have hbuild : plan'.build r t = plan.build r t := by
    cases h with
    | direct hc => simp only [Plan.build, takeConverted_eq hc]
    | reflective hc =>
      simp only [Plan.build, takeParameters_eq hc.parameters, hc.constructor,
        setProperties_eq hc.properties]
  rw [Plan.instantiate, Plan.instantiate, hbuild]

/-! ## The search -/

namespace SameLabels

variable {t : Target α}

/-- The same constructors are accepted. -/
theorem exists_evaluate (h : SameLabels columns columns') {d : TypeDescription α}
    {c : Constructor α} {candidate : Candidate α} (hc : evaluate r d columns c = .ok candidate) :
    ∃ candidate', evaluate r d columns' c = .ok candidate' ∧ candidate.Alike candidate' := by
  obtain ⟨hcolumns, hconstructor, hnamed, hparameters, hproperties⟩ := evaluate_eq_ok_iff.mp hc
  obtain ⟨ps, hps, hpsAlike⟩ := forall₂_transport (A := BoundParameter.Follows (Equiv.refl ℕ))
    (C := fun entry b => bindParameter r columns' entry.1 entry.2 = .ok b)
    (List.forall₂_same.mpr fun entry _ => rfl) hparameters
    fun entry entry' b hentry hb => hentry ▸ bindParameter_moved h.moved hb
  obtain ⟨qs, hqs, hqsAlike⟩ := forall₂_transport (A := BoundProperty.Follows (Equiv.refl ℕ))
    (C := fun entry p => bindProperty r d entry.1 entry.2 = .ok p)
    (h.forall₂_leftOver (parameterPlaces columns c.parameters)) hproperties
    fun entry entry' p hentry hp => hentry.1 ▸ bindProperty_moved (e := Equiv.refl ℕ) hentry.2 hp
  refine ⟨⟨c, candidate.named, ps, qs⟩, evaluate_eq_ok_iff.mpr ⟨?_, rfl, ?_, ?_, ?_⟩,
    hconstructor.symm, rfl, hpsAlike, hqsAlike⟩
  · rwa [h.moved.length_eq]
  · rw [hnamed, h.bindByName_eq]
  · rwa [h.parameterPlaces_eq]
  · rwa [h.parameterPlaces_eq]

theorem forall₂_candidates (h : SameLabels columns columns') (d : TypeDescription α) :
    List.Forall₂ Candidate.Alike (candidates r d columns) (candidates r d columns') := by
  refine forall₂_accepted (fun c _ candidate => h.exists_evaluate) fun c _ candidate' hc => ?_
  obtain ⟨candidate, hback, -⟩ := h.symm.exists_evaluate hc
  exact ⟨candidate, hback⟩

/-- A single column is converted directly under any number. -/
theorem exists_directPlan? (h : SameLabels columns columns') {c : ColumnConversion α}
    (hc : directPlan? r t columns = some c) :
    ∃ c', directPlan? r t columns' = some c' ∧ c.Alike c' := by
  unfold directPlan? at hc
  split at hc
  · next column =>
    obtain ⟨column', rfl, hlabel⟩ := List.map_eq_singleton_iff.mp h
    have hkind : column'.kind = column.kind := congrArg Prod.snd hlabel
    split at hc
    · cases hc
    · next hallowed =>
      obtain ⟨c', hfind, halike⟩ := ColumnConversion.Alike.exists_of_find? hlabel hc
      refine ⟨c', ?_, halike⟩
      rw [directPlan?, hkind, if_neg hallowed, hfind]
  · cases hc

theorem directPlan?_eq_none (h : SameLabels columns columns')
    (hnone : directPlan? r t columns = none) : directPlan? r t columns' = none := by
  cases hdirect : directPlan? r t columns' with
  | none => rfl
  | some c' =>
    obtain ⟨c, hc, -⟩ := h.symm.exists_directPlan? hdirect
    rw [hnone] at hc
    cases hc

/-- A plan is found for columns of the same labels, and it does the same. -/
theorem exists_findPlan (h : SameLabels columns columns') {plan : Plan α}
    (hplan : findPlan r t columns = .ok plan) :
    ∃ plan', findPlan r t columns' = .ok plan' ∧ plan.Alike plan' := by
  cases hdirect : directPlan? r t columns with
  | some c =>
    obtain ⟨c', hdirect', halike⟩ := h.exists_directPlan? hdirect
    rw [findPlan, hdirect] at hplan
    cases hplan
    exact ⟨_, by rw [findPlan, hdirect'], .direct halike⟩
  | none =>
    have hsome : t.description.constructors ≠ [] := by
      intro hempty
      simp [findPlan, hdirect, hempty] at hplan
    -- candidates are ranked by their conversions, so the same ones are the best
    have hbest := Candidate.forall₂_best (fun _ _ hc => hc.follows.rank_eq)
      (h.forall₂_candidates (r := r) t.description)
    rw [findPlan_eq_best hsome hdirect] at hplan
    rw [findPlan_eq_best hsome (h.directPlan?_eq_none hdirect)]
    generalize Candidate.best (candidates r t.description columns) = best at hbest hplan
    generalize Candidate.best (candidates r t.description columns') = best' at hbest
    rcases hbest with _ | ⟨hfirst, _ | ⟨hsecond, hmore⟩⟩
    · cases hplan
    · cases hplan
      exact ⟨_, rfl, .reflective hfirst⟩
    · cases hplan

end SameLabels

/-! ## Results -/

/-- A result with rows has instances if a plan is found and builds one from each row. -/
theorem ResultTable.instances_eq_ok_iff {target : Target α} {t : ResultTable} (hrows : t.rows ≠ [])
    {xs : List (Object α)} : t.instances r target = .ok xs ↔
      ∃ plan, findPlan r target t.columns = .ok plan ∧
        t.rows.mapM (plan.instantiate r target.type) = .ok xs := by
  have hnonempty : t.rows.isEmpty = false := by simpa using hrows
  rw [instances, hnonempty]
  exact bind_eq_ok_iff

/-- Columns of the same labels give the same instances. -/
theorem SameLabels.instances_eq_ok_iff {target : Target α} (h : SameLabels columns columns')
    (rows : List Row) (xs : List (Object α)) :
    (⟨columns', rows⟩ : ResultTable).instances r target = .ok xs ↔
      (⟨columns, rows⟩ : ResultTable).instances r target = .ok xs := by
  by_cases hrows : rows = []
  · subst hrows
    rfl
  · have hthere {columns columns' : List Column} (h : SameLabels columns columns') :
        (⟨columns, rows⟩ : ResultTable).instances r target = .ok xs →
          (⟨columns', rows⟩ : ResultTable).instances r target = .ok xs := by
      rw [ResultTable.instances_eq_ok_iff hrows, ResultTable.instances_eq_ok_iff hrows]
      rintro ⟨plan, hplan, hall⟩
      obtain ⟨plan', hplan', halike⟩ := h.exists_findPlan hplan
      have hsame : plan'.instantiate r target.type = plan.instantiate r target.type :=
        funext (halike.instantiate_eq target.type)
      exact ⟨plan', hplan', by rw [hsame]; exact hall⟩
    exact ⟨hthere h.symm, hthere h⟩

end RowMapping
