/-
Conversions from database values into one target type.

A conversion is a function together with the type of what it produces, and it
produces nothing else: this is part of the structure, so whoever registers a
conversion shows it once. Missing values never reach the function. They belong
to the options, and without one they are an error.
-/
import RowMapping.Error.Basic
import RowMapping.Target.Object

set_option autoImplicit false

namespace RowMapping

variable {α : Type}

/-- A function from values to objects of one type. -/
structure TypeConversion (α : Type) where
  target : TargetType
  run : Value → Except Error (Object α)
  typed : ∀ v x, run v = .ok x → x.type = target

namespace TypeConversion

/-- A conversion given by a function into some type of data and the objects that
stand for the data. -/
def ofFunction {β : Type} (target : TargetType) (embed : β → Object α)
    (hembed : ∀ b, (embed b).type = target) (f : Value → Except Error β) : TypeConversion α where
  target := target
  run v := (f v).map embed
  typed v x h := by
    cases hf : f v with
    | error e => simp [hf, Except.map] at h
    | ok b =>
      simp only [hf, Except.map, Except.ok.injEq] at h
      rw [← h]
      exact hembed b

/-- Convert a value. A missing one is no instance of the target. -/
def convert (c : TypeConversion α) (v : Value) : Except Error (Object α) :=
  if v.isNull then .error (.conversion (.null c.target)) else c.run v

/-- What a conversion produces has its target type. -/
theorem type_of_convert (c : TypeConversion α) {v : Value} {x : Object α}
    (h : c.convert v = .ok x) : x.type = c.target := by
  unfold convert at h
  split at h
  · cases h
  · exact c.typed v x h

/-- A conversion as it is listed in messages. -/
def describe (c : TypeConversion α) : String :=
  "TypeConversion \x7b target: " ++ c.target.name ++ ", .. \x7d"

end TypeConversion

/-- A value that cannot be read as the type of this name. -/
def unreadable (v : Value) (target : String) : Error := .conversion (.unreadable v target)

/-- An object read as one of an expected type. -/
def Object.expect (expected : TargetType) (x : Object α) : Except Error (Object α) :=
  if x.type = expected then .ok x else .error (.conversion (.wrongType expected))

/-- An object of the expected type is read as it is. -/
theorem Object.expect_of_type {t : TargetType} {x : Object α} (h : x.type = t) :
    x.expect t = .ok x := by
  simp [Object.expect, h]

/-- A function that does not fail on the items of a list does not fail on the list. -/
theorem mapM_eq_ok {β γ ε : Type} {f : β → Except ε γ} {g : β → γ} {xs : List β}
    (h : ∀ x ∈ xs, f x = .ok (g x)) : xs.mapM f = .ok (xs.map g) := by
  induction xs with
  | nil => rfl
  | cons x rest ih =>
    rw [List.mapM_cons, h x List.mem_cons_self, ih fun y hy => h y (List.mem_cons_of_mem x hy)]
    rfl

/-- Objects of the expected type are read as they are. -/
theorem Object.mapM_expect {t : TargetType} {xs : List (Object α)} (h : ∀ x ∈ xs, x.type = t) :
    xs.mapM (·.expect t) = .ok xs := by
  have hexpect : ∀ x ∈ xs, x.expect t = .ok (id x) := fun x hx => expect_of_type (h x hx)
  rw [mapM_eq_ok hexpect, List.map_id]

end RowMapping
