/-
What a look-up in a registry finds.

A registry is what was registered, one thing after the other. A conversion from the database is
looked up by the kind of a value, which asks for the kind itself and then for its ancestors, and
at each of these for the exact target. So three orders meet: the nearest kind counts first, then
the latest registration for that kind, and registrations for other targets do not count at all. A
late registration for a general kind therefore never hides an early one for a kind that is nearer.

Everything follows from what one registration does to one look-up. Look-ups after a whole history
are then described by the history alone, by induction on it from its end, where the latest
registration stands.
-/
import RowMapping.Conversion.Defaults
import Mathlib.Data.List.Basic
import Mathlib.Data.List.Induction
import Mathlib.Data.List.TakeWhile

set_option autoImplicit false

namespace RowMapping

variable {α : Type}

/-! ## Histories -/

/-- One thing that is registered: a conversion from values of a kind, or the writer of a type. -/
inductive Registration (α : Type) where
  | conversion (source : ValueKind) (c : TypeConversion α)
  | writer (target : TargetType) (write : Writer α)

namespace Registration

/-- A conversion for exactly this kind and this target. -/
def IsConversion (kind : ValueKind) (target : TargetType) : Registration α → Prop
  | conversion source c => source = kind ∧ c.target = target
  | writer .. => False

/-- A writer of exactly this type. -/
def IsWriter (target : TargetType) : Registration α → Prop
  | conversion .. => False
  | writer t _ => t = target

/-- An entry of a history that has a property, with no later one that has it. -/
def IsLatest (p : Registration α → Prop) (history : List (Registration α))
    (x : Registration α) : Prop :=
  p x ∧ ∃ before after, history = before ++ x :: after ∧ ∀ y ∈ after, ¬ p y

variable {p : Registration α → Prop} {history : List (Registration α)} {x y : Registration α}

/-- An entry of a history with one entry more is the new one, or stands before it. -/
theorem concat_eq_append_cons_iff {before after : List (Registration α)} :
    history ++ [x] = before ++ y :: after ↔
      (after = [] ∧ history = before ∧ x = y) ∨
        ∃ middle, after = middle ++ [x] ∧ history = before ++ y :: middle := by
  rcases List.eq_nil_or_concat' after with rfl | ⟨middle, z, rfl⟩
  · simp [List.append_singleton_inj]
  · rw [← List.cons_append, ← List.append_assoc, List.append_singleton_inj]
    constructor
    · rintro ⟨rfl, rfl⟩
      exact .inr ⟨middle, rfl, rfl⟩
    · rintro (⟨hempty, -⟩ | ⟨kept, hkept, rfl⟩)
      · simp at hempty
      · obtain ⟨rfl, rfl⟩ := List.append_singleton_inj.mp hkept
        exact ⟨rfl, rfl⟩

/-- An entry with the property that is added becomes the latest. -/
theorem isLatest_concat (hx : p x) : IsLatest p (history ++ [x]) y ↔ y = x := by
  constructor
  · rintro ⟨-, before, after, hsplit, hnone⟩
    rcases concat_eq_append_cons_iff.mp hsplit with ⟨-, -, hlast⟩ | ⟨middle, rfl, -⟩
    · exact hlast.symm
    · exact absurd hx (hnone x (by simp))
  · rintro rfl
    exact ⟨hx, history, [], rfl, nofun⟩

/-- An entry without the property that is added changes nothing. -/
theorem isLatest_concat_of_not (hx : ¬ p x) :
    IsLatest p (history ++ [x]) y ↔ IsLatest p history y := by
  constructor
  · rintro ⟨hy, before, after, hsplit, hnone⟩
    rcases concat_eq_append_cons_iff.mp hsplit with ⟨-, -, rfl⟩ | ⟨middle, rfl, rfl⟩
    · exact absurd hy hx
    · exact ⟨hy, before, middle, rfl, fun z hz => hnone z (List.mem_append_left [x] hz)⟩
  · rintro ⟨hy, before, after, rfl, hnone⟩
    refine ⟨hy, before, after ++ [x], by simp, fun z hz => ?_⟩
    rcases List.mem_append.mp hz with hz | hz
    · exact hnone z hz
    · rwa [List.mem_singleton.mp hz]

end Registration

namespace Registry

open Registration

/-- A registry with one thing more. -/
def add (r : Registry α) : Registration α → Registry α
  | .conversion source c => r.register source c
  | .writer target write => r.registerWriter target write

/-- The registry that a history of registrations leads to. -/
def ofHistory (history : List (Registration α)) : Registry α := history.foldl add empty

theorem ofHistory_concat (history : List (Registration α)) (x : Registration α) :
    ofHistory (history ++ [x]) = (ofHistory history).add x := by
  simp [ofHistory]

/-- The built-in conversions are registered like all others. -/
theorem withDefaults_eq_ofHistory :
    (withDefaults : Registry α) = ofHistory (defaultConversions.map (fun c =>
      .conversion c.source c.conversion) ++
        [.writer .uuid Conversion.writeUuid, .writer .url Conversion.writeUrl]) :=
  rfl

/-- A look-up tells the latest registration that has a property: one that has it is found once it
is registered, and all others change nothing. -/
structure TellsLatest {β : Type} (p : Registration α → Prop) (entry : β → Registration α)
    (lookUp : Registry α → Option β) : Prop where
  empty : lookUp Registry.empty = none
  new : ∀ (r : Registry α) x, p x → ∃ y, x = entry y ∧ lookUp (r.add x) = some y
  other : ∀ (r : Registry α) x, ¬ p x → lookUp (r.add x) = lookUp r
  injective : Function.Injective entry

namespace TellsLatest

variable {β : Type} {p : Registration α → Prop} {entry : β → Registration α}
  {lookUp : Registry α → Option β}

theorem eq_some_iff (h : TellsLatest p entry lookUp) (history : List (Registration α)) (y : β) :
    lookUp (ofHistory history) = some y ↔ IsLatest p history (entry y) := by
  induction history using List.reverseRecOn with
  | nil =>
    rw [ofHistory, List.foldl_nil, h.empty]
    constructor
    · rintro ⟨⟩
    · rintro ⟨-, before, after, hsplit, -⟩
      simp at hsplit
  | append_singleton history x ih =>
    rw [ofHistory_concat]
    by_cases hx : p x
    · obtain ⟨z, rfl, hfound⟩ := h.new (ofHistory history) x hx
      rw [isLatest_concat hx, hfound, Option.some_inj, h.injective.eq_iff, eq_comm]
    · rw [isLatest_concat_of_not hx, ← ih, h.other _ x hx]

theorem eq_none_iff (h : TellsLatest p entry lookUp) (history : List (Registration α)) :
    lookUp (ofHistory history) = none ↔ ∀ x ∈ history, ¬ p x := by
  induction history using List.reverseRecOn with
  | nil => simp [ofHistory, h.empty]
  | append_singleton history x ih =>
    rw [ofHistory_concat, List.forall_mem_append, ← ih, List.forall_mem_singleton]
    by_cases hx : p x
    · obtain ⟨y, -, hfound⟩ := h.new (ofHistory history) x hx
      simp [hfound, hx]
    · simp [h.other _ x hx, hx]

end TellsLatest

/-! ## One registration -/

/-- The latest conversion at a kind is the new one if it is for this kind and this target. -/
theorem latest?_register (r : Registry α) (source kind : ValueKind) (c : TypeConversion α)
    (target : TargetType) :
    (r.register source c).latest? kind target =
      if source = kind ∧ c.target = target then some c else r.latest? kind target := by
  by_cases hfor : source = kind ∧ c.target = target
  · simp [latest?, register, isFor, hfor]
  · have hother : isFor kind target (⟨source, c⟩ : RegisteredConversion α) = false := by
      simpa [isFor] using hfor
    simp [latest?, register, hother, hfor]

end Registry

/-- The kinds that a look-up asks before it comes to a kind. -/
def ValueKind.nearer (source kind : ValueKind) : List ValueKind :=
  source.ancestors.takeWhile (· != kind)

section FirstResult

variable {β γ : Type} [BEq β] [LawfulBEq β] {f g : β → Option γ} {x : β} {y : γ}

/-- The first result along a list is that of an item before whose first place there is none. -/
theorem findSome?_eq_some_iff_takeWhile {xs : List β} :
    xs.findSome? f = some y ↔
      ∃ x ∈ xs, f x = some y ∧ ∀ z ∈ xs.takeWhile (· != x), f z = none := by
  induction xs with
  | nil => simp
  | cons z rest ih =>
    rw [List.findSome?_cons]
    cases hfirst : f z with
    | some w =>
      constructor
      · rintro ⟨⟩
        exact ⟨z, List.mem_cons_self, hfirst, by simp⟩
      · rintro ⟨x, -, hx, hnone⟩
        -- an item behind the first one would have it among those without a result
        by_cases hz : z = x
        · exact (hz ▸ hfirst).symm.trans hx
        · have hne : (z != x) = true := by simpa using hz
          rw [List.takeWhile_cons_of_pos (p := (· != x)) hne] at hnone
          cases hfirst.symm.trans (hnone z List.mem_cons_self)
    | none =>
      refine ih.trans ⟨?_, ?_⟩
      · rintro ⟨x, hmem, hx, hnone⟩
        have hne : (z != x) = true := by
          refine bne_iff_ne.mpr fun hz => ?_
          cases (hz ▸ hfirst).symm.trans hx
        refine ⟨x, List.mem_cons_of_mem z hmem, hx, ?_⟩
        rw [List.takeWhile_cons_of_pos (p := (· != x)) hne]
        exact List.forall_mem_cons.mpr ⟨hfirst, hnone⟩
      · rintro ⟨x, hmem, hx, hnone⟩
        have hz : z ≠ x := by
          rintro rfl
          cases hfirst.symm.trans hx
        have hne : (z != x) = true := by simpa using hz
        rw [List.takeWhile_cons_of_pos (p := (· != x)) hne] at hnone
        exact ⟨x, (List.mem_cons.mp hmem).resolve_left fun h => hz h.symm, hx,
          (List.forall_mem_cons.mp hnone).2⟩

/-- A place of a list is given a result, and no place before it has one. -/
theorem findSome?_of_updated (hnew : g x = some y) (hother : ∀ z, z ≠ x → g z = f z) {xs : List β}
    (hmem : x ∈ xs) (hfirst : ∀ z ∈ xs.takeWhile (· != x), f z = none) :
    xs.findSome? g = some y := by
  refine findSome?_eq_some_iff_takeWhile.mpr ⟨x, hmem, hnew, fun z hz => ?_⟩
  have hne : z ≠ x := bne_iff_ne.mp (List.mem_takeWhile_imp (p := (· != x)) hz)
  exact (hother z hne).trans (hfirst z hz)

/-- A result that is given to a place behind the first one, or outside of the list, is not seen. -/
theorem findSome?_of_hidden (hother : ∀ z, z ≠ x → g z = f z) {xs : List β}
    (hhidden : ¬ (x ∈ xs ∧ ∀ z ∈ xs.takeWhile (· != x), f z = none)) :
    xs.findSome? g = xs.findSome? f := by
  induction xs with
  | nil => rfl
  | cons z rest ih =>
    have hz : z ≠ x := by
      rintro rfl
      simp at hhidden
    have hne : (z != x) = true := by simpa using hz
    rw [List.findSome?_cons, List.findSome?_cons, hother z hz]
    cases hfirst : f z with
    | some w => rfl
    | none =>
      refine ih fun ⟨hmem, hnone⟩ => hhidden ⟨List.mem_cons_of_mem z hmem, ?_⟩
      rw [List.takeWhile_cons_of_pos (p := (· != x)) hne]
      exact List.forall_mem_cons.mpr ⟨hfirst, hnone⟩

end FirstResult

namespace Registry

/-- A conversion is found once it is registered, if nothing for its target is registered for a
kind that is asked before. -/
theorem find?_register_of_unhidden {r : Registry α} {source kind : ValueKind} {c : TypeConversion α}
    (hmem : kind ∈ source.ancestors)
    (hnone : ∀ near ∈ source.nearer kind, r.latest? near c.target = none) :
    (r.register kind c).find? source c.target = some c := by
  refine findSome?_of_updated (x := kind) ?_ (fun near hne => ?_) hmem hnone
  · rw [latest?_register, if_pos ⟨rfl, rfl⟩]
  · rw [latest?_register, if_neg fun h => hne h.1.symm]

/-- Otherwise, and for other targets, everything is found as before. -/
theorem find?_register_of_hidden {r : Registry α} {source kind : ValueKind} {c : TypeConversion α}
    {target : TargetType}
    (hhidden : target = c.target →
      ¬ (kind ∈ source.ancestors ∧ ∀ near ∈ source.nearer kind, r.latest? near target = none)) :
    (r.register kind c).find? source target = r.find? source target := by
  by_cases htarget : c.target = target
  · refine findSome?_of_hidden (x := kind) (fun near hne => ?_) (hhidden htarget.symm)
    rw [latest?_register, if_neg fun h => hne h.1.symm]
  · simp [find?, latest?_register, htarget]

end Registry

/-! ## Whole histories -/

namespace Registration

/-- Nothing was registered for a target and a kind that a look-up asks before one of the kinds it
asks. -/
def Unhidden (history : List (Registration α)) (source kind : ValueKind) (target : TargetType) :
    Prop :=
  kind ∈ source.ancestors ∧ ∀ near ∈ source.nearer kind, ∀ x ∈ history, ¬ x.IsConversion near target

end Registration

namespace Registry

open Registration

theorem tellsLatest_latest? (kind : ValueKind) (target : TargetType) :
    TellsLatest (IsConversion kind target) (.conversion kind)
      (fun r : Registry α => r.latest? kind target) where
  empty := rfl
  new r x hx := by
    cases x with
    | writer t write => cases hx
    | conversion source c =>
      obtain ⟨rfl, htarget⟩ := hx
      refine ⟨c, rfl, ?_⟩
      rw [add, latest?_register, if_pos ⟨rfl, htarget⟩]
  other r x hx := by
    cases x with
    | writer t write => rfl
    | conversion source c =>
      have hother : ¬ (source = kind ∧ c.target = target) := hx
      rw [add, latest?_register, if_neg hother]
  injective c d h := (Registration.conversion.inj h).2

/-- A conversion at a kind is the latest one in the history for this kind and this target. -/
theorem latest?_ofHistory_eq_some_iff (history : List (Registration α)) (kind : ValueKind)
    (target : TargetType) (c : TypeConversion α) :
    (ofHistory history).latest? kind target = some c ↔
      IsLatest (IsConversion kind target) history (.conversion kind c) :=
  (tellsLatest_latest? kind target).eq_some_iff history c

/-- There is none at a kind if nothing was registered for it. -/
theorem latest?_ofHistory_eq_none_iff (history : List (Registration α)) (kind : ValueKind)
    (target : TargetType) :
    (ofHistory history).latest? kind target = none ↔
      ∀ x ∈ history, ¬ x.IsConversion kind target :=
  (tellsLatest_latest? kind target).eq_none_iff history

/-- A conversion that is looked up is the latest for the nearest kind that anything for the target
was registered for. -/
theorem find?_ofHistory_eq_some_iff (history : List (Registration α)) (source : ValueKind)
    (target : TargetType) (c : TypeConversion α) :
    (ofHistory history).find? source target = some c ↔
      ∃ kind, Unhidden history source kind target ∧
        IsLatest (IsConversion kind target) history (.conversion kind c) := by
  simp only [find?, findSome?_eq_some_iff_takeWhile, latest?_ofHistory_eq_some_iff,
    latest?_ofHistory_eq_none_iff]
  constructor
  · rintro ⟨kind, hmem, hlatest, hnone⟩
    exact ⟨kind, ⟨hmem, hnone⟩, hlatest⟩
  · rintro ⟨kind, ⟨hmem, hnone⟩, hlatest⟩
    exact ⟨kind, hmem, hlatest, hnone⟩

/-- A look-up finds nothing if nothing for the target was registered for any kind that it asks. -/
theorem find?_ofHistory_eq_none_iff (history : List (Registration α)) (source : ValueKind)
    (target : TargetType) :
    (ofHistory history).find? source target = none ↔
      ∀ kind ∈ source.ancestors, ∀ x ∈ history, ¬ x.IsConversion kind target := by
  simp only [find?, List.findSome?_eq_none_iff, latest?_ofHistory_eq_none_iff]

/-! ## Writers -/

/-- The writer that is put is the one of its type, and the writers of other types stay. -/
theorem find?_putWriter (target other : TargetType) (write : Writer α)
    (writers : List (TargetType × Writer α)) :
    ((putWriter target write writers).find? (·.1 == other)).map Prod.snd =
      if target = other then some write
      else (writers.find? (·.1 == other)).map Prod.snd := by
  induction writers with
  | nil =>
    by_cases hother : target = other <;> simp [putWriter, hother]
  | cons entry rest ih =>
    obtain ⟨t, w⟩ := entry
    by_cases ht : t = target
    · subst ht
      by_cases hother : t = other <;> simp [putWriter, hother]
    · by_cases htother : t = other
      · subst htother
        have hnew : target ≠ t := fun h => ht h.symm
        simp [putWriter, ht, hnew]
      · simpa [putWriter, ht, htother] using ih

/-- The writer of a type is the new one if it is for this type. -/
theorem findWriter?_registerWriter (r : Registry α) (target other : TargetType) (write : Writer α) :
    (r.registerWriter target write).findWriter? other =
      if target = other then some write else r.findWriter? other :=
  find?_putWriter target other write r.toDatabase

/-- What is registered for other types leaves the writer of a type. -/
theorem findWriter?_add_of_not {r : Registry α} {x : Registration α} {target : TargetType}
    (h : ¬ x.IsWriter target) : (r.add x).findWriter? target = r.findWriter? target := by
  cases x with
  | conversion source c => rfl
  | writer other write =>
    have hother : other ≠ target := h
    rw [add, findWriter?_registerWriter, if_neg hother]

theorem tellsLatest_findWriter? (target : TargetType) :
    TellsLatest (IsWriter target) (.writer target)
      (fun r : Registry α => r.findWriter? target) where
  empty := rfl
  new r x hx := by
    cases x with
    | conversion source c => cases hx
    | writer other write =>
      obtain rfl : other = target := hx
      refine ⟨write, rfl, ?_⟩
      rw [add, findWriter?_registerWriter, if_pos rfl]
  other _ _ := findWriter?_add_of_not
  injective write write' h := (Registration.writer.inj h).2

/-- The writer of a type is the latest one in the history for this type. -/
theorem findWriter?_ofHistory_eq_some_iff (history : List (Registration α)) (target : TargetType)
    (write : Writer α) :
    (ofHistory history).findWriter? target = some write ↔
      IsLatest (IsWriter target) history (.writer target write) :=
  (tellsLatest_findWriter? target).eq_some_iff history write

/-- A type has no writer if none was registered for it. -/
theorem findWriter?_ofHistory_eq_none_iff (history : List (Registration α)) (target : TargetType) :
    (ofHistory history).findWriter? target = none ↔ ∀ x ∈ history, ¬ x.IsWriter target :=
  (tellsLatest_findWriter? target).eq_none_iff history

/-! ## What is found -/

/-- After any history of registrations, a look-up finds the latest conversion that was registered
for exactly its target and for the nearest of the kinds it asks that has one, and nothing exactly
if none of these kinds has one. A conversion that is registered next is what is found for its
target from the kinds that come to its own kind without meeting one; everything else is found as
before. The writer of a type is the latest that was registered for exactly this type, if there is
one, whatever is registered for others. -/
theorem lookUps_latest (history : List (Registration α)) :
    (∀ source target c, (ofHistory history).find? source target = some c ↔
      ∃ kind, Unhidden history source kind target ∧
        IsLatest (IsConversion kind target) history (.conversion kind c)) ∧
    (∀ source target, (ofHistory history).find? source target = none ↔
      ∀ kind ∈ source.ancestors, ∀ x ∈ history, ¬ x.IsConversion kind target) ∧
    (∀ kind (c : TypeConversion α) source target,
      (target = c.target ∧ Unhidden history source kind target →
        (ofHistory (history ++ [.conversion kind c])).find? source target = some c) ∧
      (¬ (target = c.target ∧ Unhidden history source kind target) →
        (ofHistory (history ++ [.conversion kind c])).find? source target
          = (ofHistory history).find? source target)) ∧
    (∀ target write, (ofHistory history).findWriter? target = some write ↔
      IsLatest (IsWriter target) history (.writer target write)) ∧
    (∀ target, (ofHistory history).findWriter? target = none ↔
      ∀ x ∈ history, ¬ x.IsWriter target) ∧
    (∀ x target, ¬ x.IsWriter target →
      (ofHistory (history ++ [x])).findWriter? target
        = (ofHistory history).findWriter? target) := by
  refine ⟨find?_ofHistory_eq_some_iff history, find?_ofHistory_eq_none_iff history,
    fun kind c source target => ⟨?_, fun hhidden => ?_⟩, findWriter?_ofHistory_eq_some_iff history,
    findWriter?_ofHistory_eq_none_iff history, fun x target hx => ?_⟩
  · rintro ⟨rfl, hmem, hnone⟩
    rw [ofHistory_concat]
    refine find?_register_of_unhidden hmem fun near hnear => ?_
    exact (latest?_ofHistory_eq_none_iff history near c.target).mpr (hnone near hnear)
  · rw [ofHistory_concat]
    refine find?_register_of_hidden fun htarget ⟨hmem, hnone⟩ => hhidden ⟨htarget, hmem, ?_⟩
    exact fun near hnear =>
      (latest?_ofHistory_eq_none_iff history near target).mp (hnone near hnear)
  · rw [ofHistory_concat, findWriter?_add_of_not hx]

end Registry

end RowMapping
