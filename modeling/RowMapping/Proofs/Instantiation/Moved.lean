/-
Lists whose items stand in other places.

The columns of a result can be asked for in another order, and the rows can come in another
order. Both are said by a permutation of the places: what stood in a place stands where the
permutation sends this place. Two lists that are moved by the same permutation stay aligned,
which is what a row has to do with its columns.
-/
import RowMapping.Proofs.Conversion.Outcomes
import Mathlib.Data.Finset.Card
import Mathlib.Data.Finset.Range
import Mathlib.Logic.Equiv.Basic

set_option autoImplicit false

namespace RowMapping

variable {β γ ε : Type}

/-- A function that may fail gives results for a list if they are what it gives one by one. -/
theorem mapM_eq_ok_iff_map {f : β → Except ε γ} {xs : List β} {zs : List γ} :
    xs.mapM f = .ok zs ↔ xs.map f = zs.map .ok := by
  rw [mapM_eq_ok_iff, ← List.forall₂_map_right_iff (R := fun x z => f x = z),
    ← List.forall₂_map_left_iff (R := fun y z => y = z), List.forall₂_eq_eq_eq]

/-- The items of one list stand in the other one where a permutation sends their places. -/
def Moved (e : Equiv.Perm ℕ) (xs ys : List β) : Prop := ∀ i, ys[e i]? = xs[i]?

namespace Moved

variable {e : Equiv.Perm ℕ} {xs ys : List β}

theorem symm (h : Moved e xs ys) : Moved e.symm ys xs := by
  intro i
  have hplace := h (e.symm i)
  rw [e.apply_symm_apply] at hplace
  exact hplace.symm

theorem lt_length_iff (h : Moved e xs ys) (i : ℕ) : e i < ys.length ↔ i < xs.length := by
  rw [← not_le, ← not_le, ← List.getElem?_eq_none_iff, ← List.getElem?_eq_none_iff, h i]

/-- No item is lost. -/
theorem length_eq (h : Moved e xs ys) : ys.length = xs.length := by
  have hplaces : (Finset.range xs.length).map e.toEmbedding = Finset.range ys.length := by
    ext i
    rw [Finset.mem_map_equiv, Finset.mem_range, Finset.mem_range, ← h.lt_length_iff,
      e.apply_symm_apply]
  rw [← Finset.card_range ys.length, ← hplaces, Finset.card_map, Finset.card_range]

theorem mem_iff (h : Moved e xs ys) (x : β) : x ∈ ys ↔ x ∈ xs := by
  rw [List.mem_iff_getElem?, List.mem_iff_getElem?]
  constructor
  · rintro ⟨i, hi⟩
    exact ⟨e.symm i, (h.symm i).trans hi⟩
  · rintro ⟨i, hi⟩
    exact ⟨e i, (h i).trans hi⟩

/-- A function that succeeds on the items succeeds on them in their new places, and its results
are moved in the same way. -/
theorem mapM (h : Moved e xs ys) {f : β → Except ε γ} {zs : List γ} (hzs : xs.mapM f = .ok zs) :
    ∃ ws, ys.mapM f = .ok ws ∧ Moved e zs ws := by
  have hxs := mapM_eq_ok_iff_map.mp hzs
  cases hws : ys.mapM f with
  | error failure =>
    obtain ⟨y, hy, hfails⟩ := exists_of_mapM_error hws
    obtain ⟨failure', hfailure'⟩ :=
      exists_mapM_error_iff.mpr ⟨y, (h.mem_iff y).mp hy, failure, hfails⟩
    cases hzs.symm.trans hfailure'
  | ok ws =>
    have hys := mapM_eq_ok_iff_map.mp hws
    refine ⟨ws, rfl, fun i => ?_⟩
    have hplace : (ws.map .ok)[e i]? = (zs.map (.ok : γ → Except ε γ))[i]? := by
      rw [← hys, ← hxs, List.getElem?_map, List.getElem?_map, h i]
    rw [List.getElem?_map, List.getElem?_map] at hplace
    exact Option.map_injective (fun _ _ => Except.ok.inj) hplace

end Moved

/-- Backwards, three items are moved by exchanging the first and the last. -/
theorem moved_reverse {β : Type} (x y z : β) : Moved (Equiv.swap 0 2) [x, y, z] [z, y, x] := by
  intro i
  rcases i with _ | _ | _ | i
  · rfl
  · rfl
  · rfl
  · rw [Equiv.swap_apply_of_ne_of_ne (by omega) (by omega)]
    rfl

end RowMapping
