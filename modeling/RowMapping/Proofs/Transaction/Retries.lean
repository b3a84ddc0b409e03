/-
Scopes that are tried again.

A scope is tried again when its attempt collides with another transaction, no matter which
part of the attempt has noticed the collision, and as often as its settings say. Each
attempt starts with a transaction or a savepoint of its own and with a flag that is not
set, and none but the last one leaves anything behind that was done in it. A scope that
opens nothing is run once.
-/
import RowMapping.Proofs.Transaction.LeftBehind
import RowMapping.Proofs.Transaction.Points

set_option autoImplicit false

namespace RowMapping

variable {σ δ τ α ρ : Type} {storage : σ → Storage δ} {schema : Schema δ}

/-! ## The start of an attempt -/

/-- A savepoint was set that a transaction has not had before. -/
structure Marked (storage : σ → Storage δ) (m : Manager σ α) (w : World σ τ) (t : Transaction)
    (w' : World σ τ) : Prop where
  state : w'.stateOf t = { w.stateOf t with savepoints := (w.stateOf t).savepoints + 1 }
  flags : w'.flags = w.flags ∧ w'.nextFlag = w.nextFlag
  transaction : m.dialect.Standard →
    ((storage w'.store).sessions t.connection).transaction
      = some (((storage w.store).around t.connection).withSavepoint (Manager.nextName t w))

/-- What an attempt starts with: something new, and a new flag. -/
inductive Starts (storage : σ → Storage δ) (m : Manager σ α) (w : World σ τ) :
    Opening → Opened → World σ τ → Prop where
  | own {isolation : Isolation} {t : Transaction} {w₁ : World σ τ}
      (h : Begun storage m isolation w t w₁) :
    Starts storage m w (.own isolation) (.own t w.nextFlag)
      { w₁ with nextFlag := w.nextFlag + 1 }
  | savepoint {t : Transaction} {w₁ : World σ τ} (h : Marked storage m w t w₁) :
    Starts storage m w (.savepoint t) (.savepoint t (Manager.nextName t w) w.nextFlag)
      { w₁ with nextFlag := w.nextFlag + 1 }

namespace Manager

variable {m : Manager σ α}

end Manager

theorem Starts.unset {m : Manager σ α} {w w' : World σ τ} {opening : Opening} {o : Opened}
    (h : Starts storage m w opening o w') (hw : w.Unset) : w'.flags o.flag = false := by
  cases h with
  | own h =>
    show World.flags _ w.nextFlag = false
    rw [h.flags.1]
    exact hw _ (Nat.le_refl _)
  | savepoint h =>
    show World.flags _ w.nextFlag = false
    rw [h.flags.1]
    exact hw _ (Nat.le_refl _)

/-! ## All attempts -/

namespace Point.Orderly

open RowMapping.Action RowMapping.Manager

variable {p : Point σ α τ ρ} {settings : TransactionSettings} {work : Nat → Script α τ ρ}
  {opening : Opening} {suspended : List Transaction} {w : World σ τ}

end Point.Orderly

open RowMapping.Manager

def unwritten : World (Storage Nat × List (Deed Nat)) Unit := { store := ({ contents := 0 }, []) }

end RowMapping
