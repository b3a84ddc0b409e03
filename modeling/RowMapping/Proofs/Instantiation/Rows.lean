/-
What building an instance from a row comes to.

Every conversion of a plan was found for a column and for the type of the parameter or property
that it is bound to. The constructor is handed objects of exactly the types of its parameters, a
property is set to objects of exactly its type, and a single column that is converted directly
gives an object of the type of the instance. So a reader that checks types finds what it expects,
and a row fails because of a conversion of one of its cells, because of the constructor, or
because it is too short.
-/
import RowMapping.Proofs.Conversion.Calls
import RowMapping.Proofs.Instantiation.Choice
import RowMapping.Proofs.Instantiation.Places

set_option autoImplicit false

namespace RowMapping

variable {α : Type}

/-! ## Properties -/

/-- A property is set to any object of its type. -/
def PropertyBinding.Settable (b : PropertyBinding α) : Prop :=
  ∀ x owner : Object α, x.type = b.target → ∃ owner', b.set x owner = .ok owner'

theorem settable_own (t : TargetType) (assign : Object α → Object α → Object α) :
    (PropertyBinding.own t assign).Settable := by
  intro x owner hx
  have hexpect : x.expect t = .ok x := Object.expect_of_type hx
  exact ⟨assign x owner, by simp [PropertyBinding.own, hexpect, Except.map]⟩

theorem PropertyBinding.Settable.through {b : PropertyBinding α} (h : b.Settable)
    (access : Accessor α) : (b.through access).Settable := by
  intro x owner hx
  obtain ⟨part, hpart⟩ := h x (access.get owner) hx
  exact ⟨access.put part owner, by simp [PropertyBinding.through, Accessor.modify, hpart, Except.map]⟩

/-- What a path leads to is a property that can be set. -/
theorem settable_of_findPropertyAt {members : List (Member α)} {steps : List (List Char)}
    {b : PropertyBinding α} (h : findPropertyAt members steps = .ok (some b)) : b.Settable := by
  induction steps generalizing members b with
  | nil => cases h
  | cons step rest ih =>
    cases rest with
    | nil =>
      simp only [findPropertyAt, bind, Except.bind] at h
      split at h
      · cases h
      · split at h
        · cases h
          exact settable_own _ _
        · cases h
    | cons next rest =>
      simp only [findPropertyAt, bind, Except.bind] at h
      split at h
      · cases h
      · split at h
        · split at h
          · cases h
          · rename_i access members' _ _ found hfound
            obtain ⟨inner, rfl, rfl⟩ := Option.map_eq_some_iff.mp (Except.ok.inj h)
            exact (ih hfound).through access
        · cases h

/-! ## Plans -/

/-- The conversion bound to a column is one found for it and for a type. -/
def ColumnConversion.FoundFor (r : Registry α) (t : TargetType) (c : ColumnConversion α) : Prop :=
  ∃ column, ColumnConversion.find? r column t = some c

/-- A constructor and properties are bound to conversions found for their types, each to a column
of its own. -/
structure Candidate.Bound (r : Registry α) (t : Target α) (c : Candidate α) : Prop where
  constructor : c.constructor ∈ t.description.constructors
  parameters : List.Forall₂ (fun p b => b.conversion.FoundFor r p.target)
    c.constructor.parameters c.parameters
  properties : ∀ p ∈ c.properties, ∃ b : PropertyBinding α,
    p.conversion.FoundFor r b.target ∧ p.set = b.set ∧ b.Settable
  distinct : (Plan.reflective c).indices.Nodup

/-- A plan converts to the types that are asked for. -/
def Plan.Bound (r : Registry α) (t : Target α) : Plan α → Prop
  | .direct c => c.FoundFor r t.type
  | .reflective c => c.Bound r t

/-- A plan takes no value twice. -/
theorem Plan.Bound.nodup {r : Registry α} {t : Target α} {plan : Plan α} (h : plan.Bound r t) :
    plan.indices.Nodup := by
  cases plan with
  | direct c => exact List.nodup_singleton 0
  | reflective c => exact h.distinct

/-- A constructor that uses the columns is bound to conversions found for them. -/
theorem Candidate.UsesColumns.bound {r : Registry α} {t : Target α} {columns : List Column}
    {c : Candidate α} (h : c.UsesColumns r t.description columns)
    (hc : c.constructor ∈ t.description.constructors) : c.Bound r t where
  constructor := hc
  parameters := h.parameters.imp fun _ _ ⟨column, _, hfind⟩ => ⟨column, hfind⟩
  properties p hp := by
    obtain ⟨column, b, -, hb, hfind, hset⟩ := h.properties p hp
    exact ⟨b, ⟨column, hfind⟩, hset, settable_of_findPropertyAt hb⟩
  distinct := h.perm.nodup_iff.mpr List.nodup_range

/-- The plan found for some columns converts to the types that are asked for. -/
theorem bound_of_findPlan {r : Registry α} {t : Target α} {columns : List Column} {plan : Plan α}
    (h : findPlan r t columns = .ok plan) : plan.Bound r t := by
  rcases findPlan_ok_cases h with ⟨column, c, -, rfl, hfind⟩ | ⟨c, hc, candidate, hevaluate, rfl⟩
  · exact ⟨column, hfind⟩
  · exact (usesColumns_of_evaluate hevaluate).bound (constructor_of_evaluate hevaluate ▸ hc)

/-! ## Rows -/

/-- The errors of building an instance from a row. -/
inductive Registry.ExplainsRow (r : Registry α) (t : Target α) (row : List Value) : Error → Prop where
  | cell {e : Error} (column : String) (h : r.Explains e) : ExplainsRow r t row (e.inColumn column)
  | short (index : Nat) (h : row.length ≤ index) :
      ExplainsRow r t row (.unexpectedResult (.shortRow index))
  | construct {c : Constructor α} {arguments : List (Object α)} {e : Error}
      (hmem : c ∈ t.description.constructors)
      (htypes : arguments.map Object.type = c.parameters.map Parameter.target)
      (h : c.construct arguments = .error e) : ExplainsRow r t row e

/-- The errors of the calls that are made for a row. -/
inductive Registry.RaisesForRow (r : Registry α) (t : Target α) : Error → Prop where
  | cell {e : Error} (column : String) (h : r.Explains e) : RaisesForRow r t (e.inColumn column)
  | construct {c : Constructor α} {arguments : List (Object α)} {e : Error}
      (hmem : c ∈ t.description.constructors)
      (htypes : arguments.map Object.type = c.parameters.map Parameter.target)
      (h : c.construct arguments = .error e) : RaisesForRow r t e

/-- An error of reading some columns of a row, which may be too short for one of them. -/
def Registry.ExplainsRead (r : Registry α) (t : Target α) (row : List Value) (indices : List Nat)
    (e : Error) : Prop :=
  (∃ index ∈ indices, row.length ≤ index ∧ e = .unexpectedResult (.shortRow index)) ∨
    r.RaisesForRow t e

namespace Registry.ExplainsRead

variable {r : Registry α} {t : Target α} {row : List Value} {indices indices' : List Nat} {e : Error}

theorem mono (h : r.ExplainsRead t row indices e) (hsubset : indices ⊆ indices') :
    r.ExplainsRead t row indices' e :=
  h.imp_left fun ⟨index, hmem, hindex⟩ => ⟨index, hsubset hmem, hindex⟩

theorem explainsRow (h : r.ExplainsRead t row indices e) : r.ExplainsRow t row e := by
  rcases h with ⟨index, -, hshort, rfl⟩ | ⟨column, hcell⟩ | ⟨hmem, htypes, hconstruct⟩
  · exact .short index hshort
  · exact .cell column hcell
  · exact .construct hmem htypes hconstruct

/-- A row with a value for every column is not too short. -/
theorem raises (h : r.ExplainsRead t row indices e) (hrow : ∀ i ∈ indices, i < row.length) :
    r.RaisesForRow t e := by
  rcases h with ⟨index, hmem, hshort, -⟩ | h
  · exact absurd hshort (Nat.not_le_of_lt (hrow index hmem))
  · exact h

end Registry.ExplainsRead

namespace ColumnConversion.FoundFor

variable {r : Registry α} {t : TargetType} {c : ColumnConversion α}

/-- A conversion gives objects of the type it was found for. -/
theorem type_of_ok (h : c.FoundFor r t) {v : Value} {x : Object α} (hx : c.convert r v = .ok x) :
    x.type = t ∧ (r.Fitting → x.Fits t) := by
  obtain ⟨column, hfind⟩ := h
  obtain ⟨result, hconvert, haccounts⟩ := accounts_convert hfind v
  rw [hconvert] at hx
  cases result with
  | error e => cases hx
  | ok y => exact Except.ok.inj hx ▸ haccounts

/-- A conversion fails for one of its own reasons. -/
theorem raises (h : c.FoundFor r t) {v : Value} {e : Error} (he : c.convert r v = .error e)
    (target : Target α) : r.RaisesForRow target e := by
  obtain ⟨column, hfind⟩ := h
  obtain ⟨result, hconvert, haccounts⟩ := accounts_convert hfind v
  rw [hconvert] at he
  cases result with
  | error cause => exact Except.error.inj he ▸ .cell column.name haccounts
  | ok y => cases he

/-- A cell that is read has the type of its conversion. -/
theorem type_of_read (h : c.FoundFor r t) {row : List Value} {index : Nat} {x : Object α}
    (hx : readConverted r row index c = .ok x) : x.type = t ∧ (r.Fitting → x.Fits t) := by
  simp only [readConverted, bind, Except.bind] at hx
  split at hx
  · cases hx
  · exact h.type_of_ok hx

/-- A cell that cannot be read is missing or cannot be converted. -/
theorem explainsRead (h : c.FoundFor r t) {row : List Value} {index : Nat} {e : Error}
    (he : readConverted r row index c = .error e) (target : Target α) :
    r.ExplainsRead target row [index] e := by
  simp only [readConverted, bind, Except.bind] at he
  split at he
  · next hvalue =>
    cases he
    unfold rowValue at hvalue
    split at hvalue
    · cases hvalue
    · next hnone =>
      cases hvalue
      exact .inl ⟨index, List.mem_singleton_self index, List.getElem?_eq_none_iff.mp hnone, rfl⟩
  · exact .inr (h.raises he target)

end ColumnConversion.FoundFor

/-- Converting the cells of the parameters gives objects of their types. -/
theorem types_of_parameters {r : Registry α} {row : List Value} {ps : List Parameter}
    {bs : List (BoundParameter α)}
    (hbound : List.Forall₂ (fun p b => b.conversion.FoundFor r p.target) ps bs)
    {arguments : List (Object α)}
    (harguments : List.Forall₂ (fun b x => readConverted r row b.index b.conversion = .ok x)
      bs arguments) :
    arguments.map Object.type = ps.map Parameter.target := by
  induction hbound generalizing arguments with
  | nil =>
    cases harguments
    rfl
  | cons hfound _ ih =>
    cases harguments with
    | cons hx hrest => rw [List.map_cons, List.map_cons, ih hrest, (hfound.type_of_read hx).1]

/-- Setting properties to objects of their types fails only for a cell. -/
theorem explainsRead_of_readProperties {r : Registry α} {t : Target α} {row : List Value}
    {ps : List (BoundProperty α)}
    (hps : ∀ p ∈ ps, ∃ b : PropertyBinding α,
      p.conversion.FoundFor r b.target ∧ p.set = b.set ∧ b.Settable)
    {x : Object α} {e : Error} (h : readProperties r row ps x = .error e) :
    r.ExplainsRead t row (ps.map (·.index)) e := by
  induction ps generalizing x with
  | nil => cases h
  | cons p rest ih =>
    obtain ⟨b, hfound, hset, hsettable⟩ := hps p List.mem_cons_self
    simp only [readProperties, bind, Except.bind] at h
    split at h
    · next hcell =>
      cases h
      exact (hfound.explainsRead hcell t).mono (by simp)
    · next y hcell =>
      obtain ⟨x', hx'⟩ := hsettable y x (hfound.type_of_read hcell).1
      rw [hset, hx'] at h
      exact (ih (fun p hp => hps p (List.mem_cons_of_mem _ hp)) h).mono (by simp)

/-- A row fails because of a cell, because of the constructor, or because it is too short. -/
theorem explainsRead_of_instantiate {r : Registry α} {t : Target α} {plan : Plan α}
    (hplan : plan.Bound r t) {row : List Value} {e : Error}
    (h : plan.instantiate r t.type row = .error e) : r.ExplainsRead t row plan.indices e := by
  rw [Plan.instantiate_eq_read r t.type row plan hplan.nodup] at h
  cases plan with
  | direct c =>
    simp only [Plan.read, bind, Except.bind] at h
    split at h
    · next hcell =>
      cases h
      exact hplan.explainsRead hcell t
    · next x hcell =>
      rw [Object.expect_of_type (hplan.type_of_read hcell).1] at h
      cases h
  | reflective c =>
    simp only [Plan.read, bind, Except.bind] at h
    split at h
    · next hparameters =>
      -- a cell that a parameter needs cannot be read
      cases h
      obtain ⟨p, hp, hcell⟩ := exists_of_mapM_error hparameters
      obtain ⟨q, -, hfound⟩ := exists_of_forall₂ hplan.parameters hp
      refine (hfound.explainsRead hcell t).mono fun index hindex => ?_
      rw [List.mem_singleton.mp hindex]
      exact List.mem_append_left _ (List.mem_map_of_mem hp)
    · next arguments harguments =>
      -- all parameters are read, and have the types that the constructor asks for
      have htypes := types_of_parameters hplan.parameters (mapM_eq_ok_iff.mp harguments)
      split at h
      · next hconstruct =>
        cases h
        exact .inr (.construct hplan.constructor htypes hconstruct)
      · exact (explainsRead_of_readProperties hplan.properties h).mono
          (List.subset_append_right _ _)

theorem explainsRow_of_instantiate {r : Registry α} {t : Target α} {plan : Plan α}
    (hplan : plan.Bound r t) {row : List Value} {e : Error}
    (h : plan.instantiate r t.type row = .error e) : r.ExplainsRow t row e :=
  (explainsRead_of_instantiate hplan h).explainsRow

/-- A row with a single cell that is converted directly gives an object of the type. -/
theorem type_of_instantiate_direct {r : Registry α} {t : Target α} {c : ColumnConversion α}
    (hc : c.FoundFor r t.type) {row : List Value} {x : Object α}
    (h : (Plan.direct c).instantiate r t.type row = .ok x) :
    x.type = t.type ∧ (r.Fitting → x.Fits t.type) := by
  rw [Plan.instantiate_eq_read r t.type row (.direct c) (List.nodup_singleton 0)] at h
  simp only [Plan.read, bind, Except.bind] at h
  split at h
  · cases h
  · next y hcell =>
    have htype := hc.type_of_read hcell
    rw [Object.expect_of_type htype.1] at h
    exact Except.ok.inj h ▸ htype

/-! ## Soundness -/

/-- Conversions of any registry keep to the kinds and the types they are made for. Guarding the
registered functions against the values they do not take changes no cell; a cell is converted to
an object of exactly the type asked for, or fails for a reason of the registered functions or of
the search, which no mismatch of kinds or types is; and neither a direct conversion nor a
property of a row meets an object of another type than its own. -/
theorem Registry.conversions_keepTypes (r : Registry α) :
    (∀ (e : Error) (column : Column) (t : TargetType) (v : Value),
      (ColumnConversion.find? (r.guarded e) column t).map (·.convert (r.guarded e) v)
        = (ColumnConversion.find? r column t).map (·.convert r v)) ∧
    (∀ (column : Column) (t : TargetType) (c : ColumnConversion α),
      ColumnConversion.find? r column t = some c → ∀ v : Value,
        ∃ result, c.convert r v = result.mapError (Error.inColumn column.name) ∧
          r.Accounts t result ∧
          ∀ cause, IsMismatch cause → result = .error (.conversion cause) →
            ∃ registered ∈ r.fromDatabase, ∃ w, registered.source.Takes w ∧
              registered.conversion.run w = .error (.conversion cause)) ∧
    (∀ (t : Target α) (columns : List Column) (plan : Plan α),
      findPlan r t columns = .ok plan → ∀ row : List Value,
        (∀ e, plan.instantiate r t.type row = .error e → r.ExplainsRow t row e) ∧
        ∀ c x, plan = .direct c → plan.instantiate r t.type row = .ok x →
          x.type = t.type ∧ (r.Fitting → x.Fits t.type)) := by
  refine ⟨fun e column t v => ColumnConversion.convert_guarded r e column t v,
    fun column t c hfind v => ?_, fun t columns plan hplan row => ⟨fun e he => ?_, ?_⟩⟩
  · obtain ⟨result, hconvert, haccounts⟩ := ColumnConversion.accounts_convert hfind v
    refine ⟨result, hconvert, haccounts, fun cause hcause hresult => ?_⟩
    subst hresult
    exact haccounts.returned_of_mismatch hcause
  · exact explainsRow_of_instantiate (bound_of_findPlan hplan) he
  · rintro c x rfl hx
    exact type_of_instantiate_direct (bound_of_findPlan hplan) hx

/-- Numbers are all there is to convert to. -/
def smallNumbers : Registry Empty := Registry.empty.register .numeric (Conversion.integer .i8)

/-- A cell of a text column that holds an array, read as a list of options: the items are
converted by kinds of their own, a boolean as a number. -/
theorem Registry.conversions_keepTypes_smallNumbers :
    ∃ c, ColumnConversion.find? smallNumbers ⟨0, "xs", .text, none⟩ (.list (.option (.integer .i8)))
        = some c ∧
      c.convert smallNumbers (.array [.boolean true, .null])
        = .ok (.list (.option (.integer .i8)) [.present (.integer .i8 1), .missing (.integer .i8)]) ∧
      ∃ result, c.convert smallNumbers (.array [.boolean true, .null])
          = result.mapError (Error.inColumn "xs") ∧
        smallNumbers.Accounts (.list (.option (.integer .i8))) result := by
  obtain ⟨-, hcells, -⟩ := Registry.conversions_keepTypes smallNumbers
  refine ⟨_, rfl, rfl, ?_⟩
  obtain ⟨result, hconvert, haccounts, -⟩ := hcells ⟨0, "xs", .text, none⟩
    (.list (.option (.integer .i8))) _ rfl (.array [.boolean true, .null])
  exact ⟨result, hconvert, haccounts⟩

end RowMapping
