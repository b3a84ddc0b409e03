/-
Which values the registered functions are called on.

A registered function may be guarded: asked for a value that it does not take, it gives an error
instead. A registry whose functions are all guarded converts every cell to the same object or
the same error as the registry itself, whatever the error of the guards, so no function is ever
called on a value outside of its kind, and none on a missing one.
-/
import RowMapping.Proofs.Conversion.Outcomes

set_option autoImplicit false

namespace RowMapping

variable {α : Type}

instance (source : ValueKind) (v : Value) : Decidable (source.Takes v) :=
  inferInstanceAs (Decidable (_ ∧ _))

/-- Two optional things that are related are both there or both missing. -/
theorem rel_cases {β γ : Type} {R : β → γ → Prop} {a : Option β} {b : Option γ}
    (h : Option.Rel R a b) : a = none ∧ b = none ∨ ∃ x y, a = some x ∧ b = some y ∧ R x y := by
  cases h with
  | none => exact .inl ⟨rfl, rfl⟩
  | some h => exact .inr ⟨_, _, rfl, rfl, h⟩

/-! ## Guards -/

/-- A registered conversion that gives an error for what it does not take. -/
def RegisteredConversion.guarded (c : RegisteredConversion α) (e : Error) : RegisteredConversion α where
  source := c.source
  conversion :=
    { target := c.conversion.target
      run := fun v => if c.source.Takes v then c.conversion.run v else .error e
      typed := fun v x h => by
        split at h
        · exact c.conversion.typed v x h
        · cases h }

/-- The registry whose conversions are all guarded. -/
def Registry.guarded (r : Registry α) (e : Error) : Registry α :=
  { r with fromDatabase := r.fromDatabase.map (·.guarded e) }

/-- Two conversions of values of one kind that cannot be told apart. -/
structure Conversion.Same (source : ValueKind) (c d : Conversion α) : Prop where
  compatibility : c.compatibility = d.compatibility
  run : ∀ v, v.kind = source → c.run v = d.run v

theorem Conversion.Same.refl (source : ValueKind) (c : Conversion α) : Same source c c :=
  ⟨rfl, fun _ _ => rfl⟩

namespace Registry

variable (r : Registry α) (e : Error)

theorem latest?_guarded (kind : ValueKind) (t : TargetType) :
    (r.guarded e).latest? kind t =
      (r.fromDatabase.find? (isFor kind t)).map fun c => (c.guarded e).conversion := by
  have hisFor : isFor kind t ∘ (·.guarded e) = isFor (α := α) kind t := rfl
  simp only [latest?, guarded, List.find?_map, hisFor, Option.map_map]
  rfl

/-- What is found for a kind does the same with the values of the kind, guarded or not. -/
theorem find?_guarded (source : ValueKind) (t : TargetType) :
    Option.Rel (fun c d => ∀ v, v.kind = source → c.convert v = d.convert v)
      ((r.guarded e).find? source t) (r.find? source t) := by
  have hkinds : ∀ kinds : List ValueKind, (∀ kind ∈ kinds, kind ∈ source.ancestors) →
      Option.Rel (fun c d => ∀ v, v.kind = source → c.convert v = d.convert v)
        (kinds.findSome? fun kind => (r.guarded e).latest? kind t)
        (kinds.findSome? fun kind => r.latest? kind t) := by
    -- the first kind with a conversion decides, on both sides
    intro kinds hkinds
    induction kinds with
    | nil => exact .none
    | cons kind rest ih =>
      rw [List.findSome?_cons, List.findSome?_cons, latest?_guarded, latest?]
      cases hfind : r.fromDatabase.find? (isFor kind t) with
      | none => exact ih fun k hk => hkinds k (List.mem_cons_of_mem kind hk)
      | some c =>
        refine .some fun v hv => ?_
        have hfor := List.find?_some hfind
        simp only [isFor, Bool.and_eq_true, beq_iff_eq] at hfor
        have hsource : c.source ∈ v.kind.ancestors :=
          hv ▸ hfor.1 ▸ hkinds kind List.mem_cons_self
        by_cases hnull : v.isNull
        · simp [TypeConversion.convert, hnull, RegisteredConversion.guarded]
        · simp [TypeConversion.convert, hnull, RegisteredConversion.guarded, ValueKind.Takes, hsource]
  exact hkinds _ fun _ hk => hk

end Registry

namespace Conversion

variable (r : Registry α) (e : Error)

theorem direct?_guarded (t : TargetType) (source : ValueKind) :
    Option.Rel (Same source) (direct? (r.guarded e) t source) (direct? r t source) := by
  unfold direct?
  split
  · exact .some (.refl _ _)
  · cases native? source t with
    | some run => exact .some (.refl _ _)
    | none =>
      obtain ⟨hf, hg⟩ | ⟨c, d, hf, hg, h⟩ := rel_cases (r.find?_guarded e source t)
      · simp only [hf, hg]
        exact .none
      · simp only [hf, hg]
        exact .some ⟨rfl, h⟩

theorem readOption_congr {inner : TargetType} {f g : Value → Except Error (Object α)} {v : Value}
    (h : f v = g v) : readOption inner f v = readOption inner g v := by
  simp [readOption, h]

theorem dynamicBy_congr {f g : ValueKind → Option (Conversion α)} (t : TargetType) (v : Value)
    (h : Option.Rel (Same v.kind) (f v.kind) (g v.kind)) : dynamicBy f t v = dynamicBy g t v := by
  unfold dynamicBy
  obtain ⟨hf, hg⟩ | ⟨c, d, hf, hg, hsame⟩ := rel_cases h
  · rw [hf, hg]
  · rw [hf, hg]
    exact hsame.run v rfl

/-- What is found for a kind is the same for the values of the kind, guarded or not. -/
theorem find?_guarded (t : TargetType) (source : ValueKind) :
    Option.Rel (Same source) (find? (r.guarded e) t source) (find? r t source) := by
  -- for every kind at once: the items of a list have kinds of their own
  induction t generalizing source with
  | option inner ih =>
    rw [find?, find?]
    obtain ⟨hf, hg⟩ | ⟨c, d, hf, hg, h⟩ := rel_cases (direct?_guarded r e (.option inner) source)
    · rw [hf, hg]
      dsimp only
      split
      · exact .some (.refl _ _)
      · obtain ⟨hf, hg⟩ | ⟨c, d, hf, hg, h⟩ := rel_cases (ih source)
        · rw [hf, hg]
          exact .none
        · rw [hf, hg]
          exact .some ⟨congrArg Compatibility.wrapped h.compatibility,
            fun v hv => readOption_congr (h.run v hv)⟩
    · rw [hf, hg]
      exact .some h
  | list element ih =>
    rw [find?, find?]
    obtain ⟨hf, hg⟩ | ⟨c, d, hf, hg, h⟩ := rel_cases (direct?_guarded r e (.list element) source)
    · rw [hf, hg]
      have hitems : dynamicBy (fun kind => find? (r.guarded e) element kind) element
          = dynamicBy (fun kind => find? r element kind) element :=
        funext fun v => dynamicBy_congr element v (ih v.kind)
      simp only [hitems]
      split
      · exact .some (.refl _ _)
      · exact .none
    · rw [hf, hg]
      exact .some h
  | enumeration f =>
    rw [find?, find?]
    obtain ⟨hf, hg⟩ | ⟨c, d, hf, hg, h⟩ := rel_cases (direct?_guarded r e (.enumeration f) source)
    · rw [hf, hg]
      dsimp only
      split
      · exact .some (.refl _ _)
      · exact .none
    · rw [hf, hg]
      exact .some h
  | _ =>
    rw [find?, find?]
    · exact direct?_guarded r e _ source
    all_goals simp

theorem dynamic_guarded (t : TargetType) (v : Value) : dynamic (r.guarded e) t v = dynamic r t v :=
  dynamicBy_congr t v (find?_guarded r e t v.kind)

end Conversion

/-! ## Cells -/

/-- Converting a cell is the same, guarded or not. -/
theorem ColumnConversion.convert_guarded (r : Registry α) (e : Error) (column : Column)
    (t : TargetType) (v : Value) :
    (find? (r.guarded e) column t).map (·.convert (r.guarded e) v)
      = (find? r column t).map (·.convert r v) := by
  have hconversions : Option.Rel (fun _ _ => True) (find? (r.guarded e) column t) (find? r column t) := by
    unfold find?
    split
    · exact .some trivial
    · obtain ⟨hf, hg⟩ | ⟨c, d, hf, hg, -⟩ := rel_cases (Conversion.find?_guarded r e t column.kind)
      · rw [hf, hg]
        exact .none
      · rw [hf, hg]
        exact .some trivial
  obtain ⟨hf, hg⟩ | ⟨c, d, hf, hg, -⟩ := rel_cases hconversions
  · rw [hf, hg]
    rfl
  · rw [hf, hg, Option.map_some, Option.map_some, convert_eq_dynamic hf, convert_eq_dynamic hg,
      Conversion.dynamic_guarded]

end RowMapping
