/-
What a conversion comes to.

A conversion that the search finds is only run on values of the kind it was found for. Its
registered functions are called on values that are there and whose kind has the registered one
among its ancestors; an error comes from such a call, or says that something is missing, that no
conversion leads to the type, or that a value is no list or no variant. An object has exactly
the type that was asked for, and so have the objects inside it, as far as the registered
functions keep to their types themselves.

The proofs go by the type, as the search does: one lemma for each shape, and one for what needs
no shape.
-/
import RowMapping.Conversion.Defaults
import RowMapping.Conversion.Find
import Mathlib.Data.List.Forall2

set_option autoImplicit false

namespace RowMapping

variable {α : Type}

/-! ## Functions that may fail -/

theorem bind_eq_ok_iff {β γ ε : Type} {x : Except ε β} {f : β → Except ε γ} {z : γ} :
    x.bind f = .ok z ↔ ∃ y, x = .ok y ∧ f y = .ok z := by
  cases x with
  | error e => simp [Except.bind]
  | ok y => simp [Except.bind]

theorem map_eq_ok_iff {β γ ε : Type} {x : Except ε β} {f : β → γ} {z : γ} :
    x.map f = .ok z ↔ ∃ y, x = .ok y ∧ f y = z := by
  cases x with
  | error e => simp [Except.map]
  | ok y => simp [Except.map]

theorem mapError_eq_ok_iff {β ε ε' : Type} {x : Except ε β} {f : ε → ε'} {y : β} :
    x.mapError f = .ok y ↔ x = .ok y := by
  cases x with
  | error e => simp [Except.mapError]
  | ok y => simp [Except.mapError]

/-! ## Functions that may fail, on lists -/

/-- A function gives results for a list if it gives them one by one. -/
theorem mapM_eq_ok_iff {β γ ε : Type} {f : β → Except ε γ} {xs : List β} {ys : List γ} :
    xs.mapM f = .ok ys ↔ List.Forall₂ (fun x y => f x = .ok y) xs ys := by
  induction xs generalizing ys with
  | nil => cases ys <;> simp [pure, Except.pure]
  | cons x rest ih =>
    rw [List.mapM_cons, List.forall₂_cons_left_iff]
    cases hfirst : f x with
    | error e => simp [bind, Except.bind]
    | ok y =>
      cases hrest : rest.mapM f with
      | error e => simp [bind, Except.bind, ← ih, hrest]
      | ok zs => simp [bind, Except.bind, pure, Except.pure, ← ih, hrest, eq_comm]

/-- Every item of the second of two related lists has one of the first. -/
theorem exists_of_forall₂ {β γ : Type} {R : β → γ → Prop} {xs : List β} {ys : List γ}
    (h : List.Forall₂ R xs ys) {y : γ} (hy : y ∈ ys) : ∃ x ∈ xs, R x y := by
  induction h with
  | nil => cases hy
  | cons hfirst _ ih =>
    rcases List.mem_cons.mp hy with rfl | hy
    · exact ⟨_, List.mem_cons_self, hfirst⟩
    · obtain ⟨x, hmem, hx⟩ := ih hy
      exact ⟨x, List.mem_cons_of_mem _ hmem, hx⟩

/-- A function fails on a list if it fails on an item and gives results for those before it. -/
theorem mapM_eq_error_iff {β γ ε : Type} {f : β → Except ε γ} {xs : List β} {e : ε} :
    xs.mapM f = .error e ↔ ∃ before x after, xs = before ++ x :: after ∧
      (∀ b ∈ before, ∃ y, f b = .ok y) ∧ f x = .error e := by
  induction xs with
  | nil => simp [pure, Except.pure]
  | cons x rest ih =>
    rw [List.mapM_cons]
    cases hfirst : f x with
    | error e' =>
      -- it fails at the first one, and nothing stands before that
      simp only [bind, Except.bind, Except.error.injEq]
      constructor
      · rintro rfl
        exact ⟨[], x, rest, rfl, by simp, hfirst⟩
      · rintro ⟨before, z, after, hsplit, hbefore, hz⟩
        cases before with
        | nil =>
          obtain ⟨rfl, -⟩ := List.cons.inj hsplit
          exact Except.error.inj (hfirst.symm.trans hz)
        | cons b before =>
          obtain ⟨rfl, -⟩ := List.cons.inj hsplit
          obtain ⟨y, hy⟩ := hbefore x List.mem_cons_self
          cases hfirst.symm.trans hy
    | ok y =>
      -- the first one stands before the one that fails
      have hrest : rest.mapM f = .error e ↔
          ((rest.mapM f).bind fun ys => Except.ok (y :: ys)) = .error e := by
        cases rest.mapM f <;> simp [Except.bind]
      refine hrest.symm.trans (ih.trans ⟨?_, ?_⟩)
      · rintro ⟨before, z, after, rfl, hbefore, hz⟩
        exact ⟨x :: before, z, after, rfl,
          List.forall_mem_cons.mpr ⟨⟨y, hfirst⟩, hbefore⟩, hz⟩
      · rintro ⟨before, z, after, hsplit, hbefore, hz⟩
        cases before with
        | nil =>
          obtain ⟨rfl, -⟩ := List.cons.inj hsplit
          cases hfirst.symm.trans hz
        | cons b before =>
          obtain ⟨rfl, rfl⟩ := List.cons.inj hsplit
          exact ⟨before, z, after, rfl, (List.forall_mem_cons.mp hbefore).2, hz⟩

/-- A function that failed on a list failed on one of the items. -/
theorem exists_of_mapM_error {β γ ε : Type} {f : β → Except ε γ} {xs : List β} {e : ε}
    (h : xs.mapM f = .error e) : ∃ x ∈ xs, f x = .error e := by
  obtain ⟨before, x, after, rfl, -, hx⟩ := mapM_eq_error_iff.mp h
  exact ⟨x, by simp, hx⟩

/-- A function fails on a list if it fails on an item. -/
theorem exists_mapM_error_iff {β γ ε : Type} {f : β → Except ε γ} {xs : List β} :
    (∃ e, xs.mapM f = .error e) ↔ ∃ x ∈ xs, ∃ e, f x = .error e := by
  constructor
  · rintro ⟨e, he⟩
    obtain ⟨x, hx, hfails⟩ := exists_of_mapM_error he
    exact ⟨x, hx, e, hfails⟩
  · rintro ⟨x, hx, e, hfails⟩
    cases hall : xs.mapM f with
    | error e => exact ⟨e, rfl⟩
    | ok ys =>
      obtain ⟨y, -, hy⟩ := exists_of_forall₂ (mapM_eq_ok_iff.mp hall).flip hx
      rw [hfails] at hy
      cases hy

/-! ## Objects of a type -/

/-- An object has a type, and so have the objects inside it. -/
def Object.Fits : TargetType → Object α → Prop
  | .integer t, x => match x with
    | .integer u i => u = t ∧ t.contains i
    | _ => False
  | .enumeration e, x => match x with
    | .variant f name => f = e ∧ name ∈ e.variants
    | _ => False
  | .option inner, x => match x with
    | .missing t => t = inner
    | .present y => Fits inner y
    | _ => False
  | .list element, x => match x with
    | .list t items => t = element ∧ ∀ y ∈ items, Fits element y
    | _ => False
  | t, x => x.type = t

theorem Object.Fits.type_eq {t : TargetType} {x : Object α} (h : Fits t x) : x.type = t := by
  induction t generalizing x with
  | option inner ih =>
    cases x with
    | missing t => exact congrArg _ h
    | present y => exact congrArg _ (ih h)
    | _ => cases h
  | list element _ =>
    cases x with
    | list t items => exact congrArg _ h.1
    | _ => cases h
  | integer t =>
    cases x with
    | integer u i => exact congrArg _ h.1
    | _ => cases h
  | enumeration e =>
    cases x with
    | variant f name => exact congrArg _ h.1
    | _ => cases h
  | _ => exact h

theorem Object.fits_ofBytes (bytes : List UInt8) : Fits .bytes (ofBytes bytes : Object α) := by
  refine ⟨rfl, fun y hy => ?_⟩
  obtain ⟨b, -, rfl⟩ := List.mem_map.mp hy
  have hb := b.toNat_lt
  refine ⟨rfl, (IntegerType.contains_iff _ _).mpr ?_⟩
  simp only [IntegerType.least, IntegerType.greatest]
  omega

theorem Object.fits_int64 (i : Int64) : Fits (.integer .i64) (.integer .i64 i.toInt : Object α) := by
  have hleast := i.le_toInt
  have hgreatest := i.toInt_lt
  refine ⟨rfl, (IntegerType.contains_iff _ _).mpr ?_⟩
  simp only [IntegerType.least, IntegerType.greatest]
  omega

/-! ## Calls and errors -/

/-- Conversions registered for a kind take the values that are there and have the kind among
the ancestors of their own. -/
def ValueKind.Takes (source : ValueKind) (v : Value) : Prop :=
  v.isNull = false ∧ source ∈ v.kind.ancestors

namespace Registry

/-- The registered functions keep to the types they are registered for. -/
def Fitting (r : Registry α) : Prop :=
  ∀ c ∈ r.fromDatabase, ∀ v x, c.source.Takes v → c.conversion.run v = .ok x →
    x.Fits c.conversion.target

/-- The errors of conversions: those that a registered function gives for a value it takes, and
those of the search itself. No native conversion of another kind is among them, and no object
of another type. -/
inductive Explains (r : Registry α) : Error → Prop where
  | returned {c : RegisteredConversion α} {v : Value} {e : Error} (hmem : c ∈ r.fromDatabase)
      (htakes : c.source.Takes v) (hrun : c.conversion.run v = .error e) : Explains r e
  | null (t : TargetType) : Explains r (.conversion (.null t))
  | noConversion (v : Value) (t : TargetType) : Explains r (.conversion (.noConversion v t))
  | notList (v : Value) : Explains r (.conversion (.notList v))
  | notVariant (v : Value) (e : EnumType) : Explains r (.conversion (.notVariant v e))

/-- An object of another type than its reader expects, or a native conversion of a value of
another kind than its own. -/
def IsMismatch (cause : ConversionCause) : Prop :=
  (∃ t, cause = .wrongType t) ∨ ∃ expected found, cause = .kindMismatch expected found

/-- Only a registered function can complain of a mismatch, in an error of its own. -/
theorem Explains.returned_of_mismatch {r : Registry α} {cause : ConversionCause}
    (h : r.Explains (.conversion cause)) (hcause : IsMismatch cause) :
    ∃ c ∈ r.fromDatabase, ∃ v, c.source.Takes v ∧ c.conversion.run v = .error (.conversion cause) := by
  cases h with
  | returned hmem htakes hrun => exact ⟨_, hmem, _, htakes, hrun⟩
  | _ => obtain ⟨_, h⟩ | ⟨_, _, h⟩ := hcause <;> cases h

/-- What may come of converting a value to a type. -/
def Accounts (r : Registry α) (t : TargetType) : Except Error (Object α) → Prop
  | .ok x => x.type = t ∧ (r.Fitting → x.Fits t)
  | .error e => r.Explains e

theorem accounts_ok {r : Registry α} {t : TargetType} {x : Object α} (h : x.Fits t) :
    r.Accounts t (.ok x) :=
  ⟨h.type_eq, fun _ => h⟩

/-- A conversion that the registry finds for a kind is registered for an ancestor of it. -/
theorem exists_of_find? {r : Registry α} {source : ValueKind} {t : TargetType}
    {c : TypeConversion α} (h : r.find? source t = some c) :
    ∃ entry ∈ r.fromDatabase, entry.conversion = c ∧ entry.source ∈ source.ancestors := by
  obtain ⟨kind, hkind, hlatest⟩ := List.exists_of_findSome?_eq_some h
  obtain ⟨entry, hfind, hconversion⟩ := Option.map_eq_some_iff.mp hlatest
  have hfor := List.find?_some hfind
  simp only [isFor, Bool.and_eq_true, beq_iff_eq] at hfor
  exact ⟨entry, List.mem_of_find?_eq_some hfind, hconversion, hfor.1 ▸ hkind⟩

/-- Converting by what the registry finds. -/
theorem accounts_convert {r : Registry α} {t : TargetType} {c : TypeConversion α} {v : Value}
    (h : r.find? v.kind t = some c) : r.Accounts t (c.convert v) := by
  obtain ⟨entry, hmem, rfl, hsource⟩ := exists_of_find? h
  have htarget := target_of_find? h
  unfold TypeConversion.convert
  split
  · exact .null _
  · rename_i hnull
    have htakes : entry.source.Takes v := ⟨by simpa using hnull, hsource⟩
    cases hrun : entry.conversion.run v with
    | error e => exact .returned hmem htakes hrun
    | ok x =>
      refine ⟨htarget ▸ entry.conversion.typed v x hrun, fun hfitting => ?_⟩
      exact htarget ▸ hfitting entry hmem v x htakes hrun

/-- The built-in conversions keep to their types. -/
theorem fitting_withDefaults : (withDefaults : Registry α).Fitting := by
  intro c hc v x _ hrun
  rcases target_of_mem_withDefaults hc with ⟨t, rfl⟩ | htarget
  · simp only [Conversion.integer, TypeConversion.ofFunction] at hrun ⊢
    cases hread : Conversion.readInteger t v with
    | error e => simp [hread, Except.map] at hrun
    | ok i =>
      obtain rfl : Object.integer t i = x := by simpa [hread, Except.map] using hrun
      refine ⟨rfl, ?_⟩
      unfold Conversion.readInteger at hread
      split at hread
      · cases hread
      · split at hread
        · rename_i hcontains
          exact Except.ok.inj hread ▸ hcontains
        · cases hread
  · -- for all other targets the type is all there is to fit
    have htype := c.conversion.typed v x hrun
    simp only [List.mem_cons, List.not_mem_nil, or_false] at htarget
    rcases htarget with h | h | h | h | h | h | h | h | h | h | h <;>
    · rw [h] at htype ⊢
      exact htype

end Registry

namespace Conversion

variable {r : Registry α}

/-! ## Without a shape -/

/-- A native conversion never meets a value of another kind. -/
theorem native?_eq_some {t : TargetType} {v : Value} {run : Value → Except Error (Object α)}
    (h : native? v.kind t = some run) : ∃ x, run v = .ok x ∧ x.Fits t := by
  unfold native? at h
  split at h
  all_goals cases h
  all_goals cases v
  all_goals first
    | exact ⟨_, rfl, rfl⟩
    | exact ⟨_, rfl, Object.fits_int64 _⟩
    | exact ⟨_, rfl, Object.fits_ofBytes _⟩
    | rename_i hkind; cases hkind

/-- The conversion a type has without its shape. -/
theorem accounts_direct? {t : TargetType} {v : Value} {c : Conversion α}
    (h : direct? r t v.kind = some c) : r.Accounts t (c.run v) := by
  unfold direct? at h
  split at h
  · rename_i hvalue
    subst hvalue
    cases h
    exact Registry.accounts_ok rfl
  · split at h
    · rename_i run hrun
      cases h
      obtain ⟨x, hx, hfits⟩ := native?_eq_some hrun
      change r.Accounts t (run v)
      rw [hx]
      exact Registry.accounts_ok hfits
    · obtain ⟨registered, hfind, rfl⟩ := Option.map_eq_some_iff.mp h
      exact Registry.accounts_convert hfind

/-! ## Shapes -/

/-- An option of what converts. -/
theorem accounts_readOption {inner : TargetType} {run : Value → Except Error (Object α)} {v : Value}
    (h : v.isNull = false → r.Accounts inner (run v)) :
    r.Accounts (.option inner) (readOption inner run v) := by
  unfold readOption
  split
  · exact Registry.accounts_ok rfl
  · rename_i hnull
    have hinner := h (by simpa using hnull)
    cases hrun : run v with
    | error e =>
      rw [hrun] at hinner
      exact hinner
    | ok x =>
      rw [hrun] at hinner
      have hexpect := Object.expect_of_type hinner.1
      simp only [Except.bind, hexpect, Except.map]
      exact ⟨congrArg _ hinner.1, hinner.2⟩

theorem mem_of_variantAt? {e : EnumType} {place : Int} {name : String}
    (h : variantAt? e place = some name) : name ∈ e.variants := by
  unfold variantAt? at h
  split at h
  · exact List.mem_of_getElem? h
  · cases h

theorem mem_of_variantOf? {e : EnumType} {v : Value} {name : String}
    (h : variantOf? e v = some name) : name ∈ e.variants := by
  unfold variantOf? at h
  split at h
  · exact mem_of_variantAt? h
  · exact mem_of_variantAt? h
  · obtain ⟨s, -, hfind⟩ := Option.bind_eq_some_iff.mp h
    exact List.mem_of_find?_eq_some hfind

/-- The variant a value stands for. -/
theorem accounts_readVariant (e : EnumType) (v : Value) :
    r.Accounts (.enumeration e) (readVariant e v : Except Error (Object α)) := by
  unfold readVariant
  split
  · rename_i name hname
    exact Registry.accounts_ok ⟨rfl, mem_of_variantOf? hname⟩
  · exact .notVariant v e

/-- A value that is no list is reported as that. -/
theorem listItems_eq_error {v : Value} {e : Error} (h : listItems v = .error e) :
    e = .conversion (.notList v) := by
  unfold listItems at h
  split at h
  · cases h
  · cases h
  · split at h
    · cases h
    · exact (Except.error.inj h).symm

/-- A list of items that each convert. -/
theorem accounts_readList {element : TargetType} {convert : Value → Except Error (Object α)}
    (h : ∀ v, r.Accounts element (convert v)) (v : Value) :
    r.Accounts (.list element) (readList element convert v) := by
  unfold readList
  cases hitems : listItems v with
  | error e => exact listItems_eq_error hitems ▸ .notList v
  | ok items =>
    cases hobjects : items.mapM convert with
    | error e =>
      obtain ⟨w, -, hw⟩ := exists_of_mapM_error hobjects
      have hexplains := h w
      rw [hw] at hexplains
      simp only [bind, Except.bind, hobjects]
      exact hexplains
    | ok objects =>
      have hfits : ∀ x ∈ objects, x.type = element ∧ (r.Fitting → x.Fits element) := by
        intro x hx
        obtain ⟨w, -, hw⟩ := exists_of_forall₂ (mapM_eq_ok_iff.mp hobjects) hx
        have hw' := h w
        rw [hw] at hw'
        exact hw'
      have hexpect := Object.mapM_expect fun x hx => (hfits x hx).1
      simp only [bind, Except.bind, hobjects, hexpect]
      exact ⟨rfl, fun hfitting => ⟨rfl, fun x hx => (hfits x hx).2 hfitting⟩⟩

/-- Converting by what is found for the kind of a value. -/
theorem accounts_dynamicBy {find : ValueKind → Option (Conversion α)} {t : TargetType} {v : Value}
    (h : ∀ c, find v.kind = some c → r.Accounts t (c.run v)) :
    r.Accounts t (dynamicBy find t v) := by
  unfold dynamicBy
  split
  · rename_i c hc
    exact h c hc
  · split
    · exact .null t
    · exact .noConversion v t

/-! ## The search -/

/-- A conversion found for the kind of a value. -/
theorem accounts_find? {t : TargetType} {v : Value} {c : Conversion α}
    (h : find? r t v.kind = some c) : r.Accounts t (c.run v) := by
  -- for any value: the items of a list have kinds of their own
  induction t generalizing v c with
  | option inner ih =>
    rw [find?] at h
    split at h
    · rename_i direct hdirect
      exact accounts_direct? (Option.some.inj h ▸ hdirect)
    · split at h
      · cases h
        exact Registry.accounts_ok rfl
      · obtain ⟨found, hfound, rfl⟩ := Option.map_eq_some_iff.mp h
        exact accounts_readOption fun _ => ih hfound
  | list element ih =>
    rw [find?] at h
    split at h
    · rename_i direct hdirect
      exact accounts_direct? (Option.some.inj h ▸ hdirect)
    · split at h
      · cases h
        exact accounts_readList (fun w => accounts_dynamicBy fun found hfound => ih hfound) v
      · cases h
  | enumeration e =>
    rw [find?] at h
    split at h
    · rename_i direct hdirect
      exact accounts_direct? (Option.some.inj h ▸ hdirect)
    · split at h
      · cases h
        exact accounts_readVariant e v
      · cases h
  | _ =>
    rw [find?] at h
    · exact accounts_direct? h
    all_goals simp

/-- A value converted by its own kind. -/
theorem accounts_dynamic (r : Registry α) (t : TargetType) (v : Value) :
    r.Accounts t (dynamic r t v) :=
  accounts_dynamicBy fun _ h => accounts_find? h

end Conversion

/-! ## Cells -/

/-- What converting a cell comes to, its errors naming the column. -/
theorem ColumnConversion.accounts_convert {r : Registry α} {column : Column} {t : TargetType}
    {c : ColumnConversion α} (h : find? r column t = some c) (v : Value) :
    ∃ result, c.convert r v = result.mapError (Error.inColumn column.name) ∧ r.Accounts t result :=
  ⟨_, convert_eq_dynamic h v, Conversion.accounts_dynamic r t v⟩

end RowMapping
