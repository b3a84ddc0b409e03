/-
Parameters that are bound to columns by name.

Each parameter takes the first column of its name that is not in use, and no choice is ever taken
back. For names that match each other in any way this would miss bindings. But matching is an
equivalence: a parameter takes a column of its own class, and what another parameter could have
done with this column, it can do with any other column of the class. So whenever there is a
binding at all, there is one that agrees with the choice just made, and after it is put right by
exchanging two columns, the rest of it binds the parameters that are left.
-/
import RowMapping.Proofs.Instantiation.ColumnOrder
import Mathlib.Data.List.FinRange

set_option autoImplicit false

namespace RowMapping

variable {columns : List Column} {used places : List ℕ} {i j k : ℕ}

/-! ## Columns of a name -/

/-- A name that matches one column of a class matches every other column of it. -/
theorem NamedAt.other {p q : String} (hi : NamedAt columns p i) (hj : NamedAt columns p j)
    (h : NamedAt columns q i) : NamedAt columns q j := by
  obtain ⟨a, ha, hpa⟩ := hi
  obtain ⟨b, hb, hpb⟩ := hj
  obtain ⟨a', ha', hqa⟩ := h
  obtain rfl : a' = a := Option.some.inj (ha'.symm.trans ha)
  exact ⟨b, hb, namesMatch_trans (namesMatch_trans hqa (namesMatch_symm hpa)) hpb⟩

/-- Two columns of one class can be exchanged. -/
theorem NamedAt.swap {p q : String} (hi : NamedAt columns p i) (hj : NamedAt columns p j)
    (h : NamedAt columns q k) : NamedAt columns q (Equiv.swap i j k) := by
  rw [Equiv.swap_apply_def]
  split_ifs with hki hkj
  · subst hki
    exact hi.other hj h
  · subst hkj
    exact hj.other hi h
  · exact h

/-- The first unused column of a name: every column of the name before it is in use. -/
theorem firstUnused_eq_some_iff_first {name : String} :
    firstUnused columns used name = some i ↔
      (i ∉ used ∧ NamedAt columns name i) ∧ ∀ j < i, NamedAt columns name j → j ∈ used := by
  have haccepts : ∀ j, (!used.contains j && (columns[j]?).any fun c => namesMatch name c.name)
      = true ↔ j ∉ used ∧ NamedAt columns name j := by
    intro j
    simp [NamedAt, Option.any_eq_true]
  rw [firstUnused, List.find?_range_eq_some, haccepts]
  constructor
  · rintro ⟨hfound, -, hbefore⟩
    refine ⟨hfound, fun j hj hnamed => ?_⟩
    by_contra hfree
    have hrefused := hbefore j hj
    rw [(haccepts j).mpr ⟨hfree, hnamed⟩] at hrefused
    cases hrefused
  · rintro ⟨hfound, hbefore⟩
    obtain ⟨column, hcolumn, -⟩ := hfound.2
    refine ⟨hfound, List.mem_range.mpr (List.getElem?_eq_some_iff.mp hcolumn).1,
      fun j hj => ?_⟩
    rw [Bool.not_eq_true', Bool.eq_false_iff, ne_eq, haccepts]
    exact fun h => h.1 (hbefore j hj h.2)

theorem exists_firstUnused {name : String} (hfree : i ∉ used) (hnamed : NamedAt columns name i) :
    ∃ first, firstUnused columns used name = some first := by
  cases hfirst : firstUnused columns used name with
  | some first => exact ⟨first, rfl⟩
  | none =>
    obtain ⟨column, hcolumn, hname⟩ := hnamed
    have hi := List.mem_range.mpr (List.getElem?_eq_some_iff.mp hcolumn).1
    refine absurd ?_ (List.find?_eq_none.mp hfirst i hi)
    simp [hfree, hcolumn, hname]

/-! ## Bindings -/

/-- A column of its name for each parameter, another one for each, and none that is in use. -/
structure NamedPlaces (columns : List Column) (ps : List Parameter) (used places : List ℕ) :
    Prop where
  named : List.Forall₂ (fun p i => NamedAt columns p.name i) ps places
  distinct : places.Nodup
  free : ∀ i ∈ places, i ∉ used

/-- If there is a binding, there is one in which the first parameter has any column of its name
that is free: the column it had goes to the parameter that had this one. -/
theorem NamedPlaces.exchange {p : Parameter} {rest : List Parameter}
    (h : NamedPlaces columns (p :: rest) used places) (hfree : i ∉ used)
    (hnamed : NamedAt columns p.name i) :
    ∃ others, NamedPlaces columns rest (i :: used) others := by
  obtain ⟨j, others, hj, hothers, rfl⟩ := List.forall₂_cons_left_iff.mp h.named
  obtain ⟨hnew, hdistinct⟩ := List.nodup_cons.mp h.distinct
  refine ⟨others.map (Equiv.swap i j), ?_, hdistinct.map (Equiv.swap i j).injective, ?_⟩
  · exact List.forall₂_map_right_iff.mpr (hothers.imp fun _ _ hq => hnamed.swap hj hq)
  · rintro _ hmem
    obtain ⟨k, hk, rfl⟩ := List.mem_map.mp hmem
    have hkj : k ≠ j := fun heq => hnew (heq ▸ hk)
    rw [List.mem_cons, not_or]
    by_cases hki : k = i
    · -- the parameter that had the column now has that of the first one, which is given up
      subst hki
      rw [Equiv.swap_apply_left]
      exact ⟨hkj.symm, h.free j List.mem_cons_self⟩
    · rw [Equiv.swap_apply_of_ne_of_ne hki hkj]
      exact ⟨hki, h.free k (List.mem_cons_of_mem j hk)⟩

/-- If there is a binding, one is found. -/
theorem NamedPlaces.exists_bindByName {ps : List Parameter}
    (h : NamedPlaces columns ps used places) :
    ∃ found, bindByName columns ps used = some found := by
  induction ps generalizing used places with
  | nil => exact ⟨[], rfl⟩
  | cons p rest ih =>
    obtain ⟨j, others, hj, -, rfl⟩ := List.forall₂_cons_left_iff.mp h.named
    obtain ⟨first, hfirst⟩ := exists_firstUnused (h.free j List.mem_cons_self) hj
    obtain ⟨⟨hfree, hnamed⟩, -⟩ := firstUnused_eq_some_iff_first.mp hfirst
    -- the binding need not use the column that is found first, but another one does
    obtain ⟨others', hothers'⟩ := h.exchange hfree hnamed
    obtain ⟨found, hfound⟩ := ih hothers'
    exact ⟨first :: found, by simp [bindByName, hfirst, hfound]⟩

/-- Each parameter has a column of its name, the first one that neither was in use nor is that of
a parameter before it. -/
theorem first_of_bindByName {ps : List Parameter} (h : bindByName columns ps used = some places) :
    List.Forall₂ (fun p i => NamedAt columns p.name i) ps places ∧
      ∀ k p i, ps[k]? = some p → places[k]? = some i → ∀ j < i, NamedAt columns p.name j →
        j ∈ used ∨ j ∈ places.take k := by
  induction ps generalizing used places with
  | nil =>
    cases h
    exact ⟨.nil, by simp⟩
  | cons p rest ih =>
    rw [bindByName] at h
    split at h
    · cases h
    · next first hfirst =>
      obtain ⟨found, hfound, rfl⟩ := Option.map_eq_some_iff.mp h
      obtain ⟨⟨-, hnamed⟩, hbefore⟩ := firstUnused_eq_some_iff_first.mp hfirst
      obtain ⟨hrest, hfirsts⟩ := ih hfound
      refine ⟨.cons hnamed hrest, fun k q i hq hi j hj hj' => ?_⟩
      cases k with
      | zero =>
        cases hq
        cases hi
        exact .inl (hbefore j hj hj')
      | succ k =>
        -- what is in use for the others is the first column, too
        have hlater := hfirsts k q i hq hi j hj hj'
        rw [List.mem_cons] at hlater
        rw [List.take_succ_cons, List.mem_cons]
        tauto

/-- What is found is a binding. -/
theorem namedPlaces_of_bindByName {ps : List Parameter}
    (h : bindByName columns ps used = some places) : NamedPlaces columns ps used places where
  named := (first_of_bindByName h).1
  distinct := (bindByName_distinct h).1
  free i hi := ((bindByName_distinct h).2 i hi).2

/-! ## Assignments -/

/-- Parameters are assigned to columns of their names, and no two of them to the same column. -/
structure AssignedByName (columns : List Column) (ps : List Parameter)
    (f : Fin ps.length → Fin columns.length) : Prop where
  injective : Function.Injective f
  matching : ∀ k, namesMatch ps[k].name columns[f k].name = true

theorem namedAt_iff {name : String} :
    NamedAt columns name i ↔ ∃ h : i < columns.length, namesMatch name columns[i].name = true := by
  simp only [NamedAt, List.getElem?_eq_some_iff]
  constructor
  · rintro ⟨_, ⟨h, rfl⟩, hname⟩
    exact ⟨h, hname⟩
  · rintro ⟨h, hname⟩
    exact ⟨_, ⟨h, rfl⟩, hname⟩

/-- The places of an assignment are a binding. -/
theorem AssignedByName.namedPlaces {ps : List Parameter} {f : Fin ps.length → Fin columns.length}
    (h : AssignedByName columns ps f) :
    NamedPlaces columns ps [] (List.ofFn fun k => (f k : ℕ)) where
  named := by
    refine List.forall₂_iff_get.mpr ⟨by simp, fun k hk _ => ?_⟩
    rw [List.get_ofFn]
    exact namedAt_iff.mpr ⟨(f ⟨k, hk⟩).isLt, h.matching ⟨k, hk⟩⟩
  distinct := List.nodup_ofFn_ofInjective (Fin.val_injective.comp h.injective)
  free _ _ := List.not_mem_nil

/-- The places of a binding are those of an assignment. -/
theorem NamedPlaces.assignedByName {ps : List Parameter} (h : NamedPlaces columns ps used places) :
    ∃ f : Fin ps.length → Fin columns.length, AssignedByName columns ps f ∧
      places = List.ofFn fun k => (f k : ℕ) := by
  obtain ⟨hlength, hnamed⟩ := List.forall₂_iff_get.mp h.named
  have hplace (k : Fin ps.length) := namedAt_iff.mp (hnamed k k.isLt (hlength ▸ k.isLt))
  refine ⟨fun k => ⟨_, (hplace k).1⟩, ⟨fun k l hkl => ?_, fun k => (hplace k).2⟩, ?_⟩
  · exact Fin.ext ((h.distinct.getElem_inj_iff).mp (Fin.val_eq_of_eq hkl))
  · exact List.ext_getElem (by simp [hlength]) fun k hk _ => by simp

/-- **Binding by name.** Parameters are bound to columns by name if and only if they can be: if
there is any assignment that gives every parameter a column of its name, and no two of them the
same one. What is found is such an assignment, and in it each parameter has the first column of
its name that none of the parameters before it has. -/
theorem bindByName_missesNothing (columns : List Column) (ps : List Parameter) :
    ((bindByName columns ps []).isSome = true ↔ ∃ f, AssignedByName columns ps f) ∧
    ∀ places, bindByName columns ps [] = some places →
      ∃ f, AssignedByName columns ps f ∧ places = (List.ofFn fun k => (f k : ℕ)) ∧
        ∀ k i, i < f k → namesMatch ps[k].name columns[i].name = true → ∃ l < k, f l = i := by
  have hfound : ∀ places, bindByName columns ps [] = some places →
      ∃ f, AssignedByName columns ps f ∧ places = (List.ofFn fun k => (f k : ℕ)) ∧
        ∀ k i, i < f k → namesMatch ps[k].name columns[i].name = true → ∃ l < k, f l = i := by
    intro places hplaces
    have hfirst := (first_of_bindByName hplaces).2
    obtain ⟨f, hf, rfl⟩ := (namedPlaces_of_bindByName hplaces).assignedByName
    refine ⟨f, hf, rfl, fun k i hi hname => ?_⟩
    have hbefore := (hfirst k ps[k] (f k) (by simp) (by simp) i hi
      (namedAt_iff.mpr ⟨i.isLt, hname⟩)).resolve_left List.not_mem_nil
    obtain ⟨l, hl, hli⟩ := List.mem_iff_getElem.mp hbefore
    rw [List.length_take, List.length_ofFn, lt_min_iff] at hl
    refine ⟨⟨l, hl.2⟩, hl.1, Fin.ext ?_⟩
    simpa using hli
  refine ⟨⟨fun h => ?_, fun ⟨f, hf⟩ => ?_⟩, hfound⟩
  · obtain ⟨places, hplaces⟩ := Option.isSome_iff_exists.mp h
    obtain ⟨f, hf, -⟩ := hfound places hplaces
    exact ⟨f, hf⟩
  · obtain ⟨places, hplaces⟩ := hf.namedPlaces.exists_bindByName
    rw [hplaces]
    rfl

/-- Two parameters of one name take the two columns of the name, in order. -/
example : bindByName [⟨0, "i_d", .null, none⟩, ⟨1, "name", .null, none⟩, ⟨2, "Id", .null, none⟩]
    [⟨"ID", .string⟩, ⟨"id", .string⟩] [] = some [0, 2] := by decide

end RowMapping
