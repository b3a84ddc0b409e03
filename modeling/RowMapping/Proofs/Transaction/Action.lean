/-
What performing an action comes to, one equation for each way to build actions.

An action is a function of the world, so every equation here holds by computation.
They are stated because the proofs about the manager step through its actions with
them and never look at how actions are represented.
-/
import RowMapping.Transaction.Manager

set_option autoImplicit false

namespace RowMapping

variable {σ τ α ρ κ : Type}

namespace Action

@[simp] theorem perform_pure (x : ρ) (w : World σ τ) :
    (pure x : Action σ τ ρ).perform w = (.ok x, w) := rfl

@[simp] theorem perform_throw (e : Error) (w : World σ τ) :
    (throw e : Action σ τ ρ).perform w = (.error e, w) := rfl

/-- A sequence goes on with the world its first part leaves, and ends with its
failure. -/
theorem perform_bind (a : Action σ τ ρ) (f : ρ → Action σ τ κ) (w : World σ τ) :
    (a >>= f).perform w = match a.perform w with
      | (.ok x, w') => (f x).perform w'
      | (.error e, w') => (.error e, w') := by
  simp only [perform, bind, ExceptT.bind, ExceptT.mk, ExceptT.bindCont, StateT.bind]
  rcases a w with ⟨_ | _, _⟩ <;> rfl

theorem perform_bind_ok {a : Action σ τ ρ} {w w' : World σ τ} {x : ρ}
    (h : a.perform w = (.ok x, w')) (f : ρ → Action σ τ κ) :
    (a >>= f).perform w = (f x).perform w' := by
  rw [perform_bind, h]

theorem perform_bind_pure (a : Action σ τ ρ) (f : ρ → κ) (w : World σ τ) :
    (a >>= fun x => pure (f x)).perform w = ((a.perform w).1.map f, (a.perform w).2) := by
  rw [perform_bind]
  rcases a.perform w with ⟨e | x, w'⟩ <;> rfl

theorem perform_bind_conclude (a : Action σ τ ρ) (f : ρ → Except Error κ) (w : World σ τ) :
    (a >>= fun x => conclude (f x)).perform w = ((a.perform w).1.bind f, (a.perform w).2) := by
  rw [perform_bind]
  rcases a.perform w with ⟨e | x, w'⟩ <;> rfl

theorem perform_bind_error {a : Action σ τ ρ} {w w' : World σ τ} {e : Error}
    (h : a.perform w = (.error e, w')) (f : ρ → Action σ τ κ) :
    (a >>= f).perform w = (.error e, w') := by
  rw [perform_bind, h]

@[simp] theorem perform_outcome (a : Action σ τ ρ) (w : World σ τ) :
    (outcome a).perform w = (.ok (a.perform w).1, (a.perform w).2) := rfl

/-- What comes after an outcome is given the result, whatever it is. -/
@[simp] theorem perform_outcome_bind (a : Action σ τ ρ) (f : Except Error ρ → Action σ τ κ)
    (w : World σ τ) :
    (outcome a >>= f).perform w = (f (a.perform w).1).perform (a.perform w).2 := by
  rw [perform_bind_ok (perform_outcome a w)]

@[simp] theorem perform_conclude (result : Except Error ρ) (w : World σ τ) :
    (conclude result : Action σ τ ρ).perform w = (result, w) := rfl

@[simp] theorem perform_change (f : World σ τ → World σ τ) (w : World σ τ) :
    (change f).perform w = (.ok (), f w) := rfl

@[simp] theorem perform_change_bind (f : World σ τ → World σ τ) (g : Unit → Action σ τ κ)
    (w : World σ τ) : (change f >>= g).perform w = (g ()).perform (f w) := by
  rw [perform_bind_ok (perform_change f w)]

@[simp] theorem perform_look (f : World σ τ → ρ) (w : World σ τ) :
    (look f).perform w = (.ok (f w), w) := rfl

@[simp] theorem perform_look_bind (f : World σ τ → ρ) (g : ρ → Action σ τ κ) (w : World σ τ) :
    (look f >>= g).perform w = (g (f w)).perform w := by
  rw [perform_bind_ok (perform_look f w)]

@[simp] theorem perform_record (event : Event τ) (w : World σ τ) :
    (record event).perform w = (.ok (), { w with trace := w.trace ++ [event] }) := rfl

@[simp] theorem perform_record_bind (event : Event τ) (g : Unit → Action σ τ κ)
    (w : World σ τ) :
    (record event >>= g).perform w = (g ()).perform { w with trace := w.trace ++ [event] } := by
  rw [perform_bind_ok (perform_record event w)]

@[simp] theorem perform_onStore {ε : Type} (f : σ → Except ε ρ × σ) (convert : ε → Error)
    (w : World σ τ) :
    (onStore f convert).perform w
      = ((f w.store).1.mapError convert, { w with store := (f w.store).2 }) := rfl

@[simp] theorem perform_newFlag (w : World σ τ) :
    (newFlag : Action σ τ FlagId).perform w
      = (.ok w.nextFlag, { w with nextFlag := w.nextFlag + 1 }) := rfl

@[simp] theorem perform_newFlag_bind (g : FlagId → Action σ τ κ) (w : World σ τ) :
    (newFlag >>= g).perform w = (g w.nextFlag).perform { w with nextFlag := w.nextFlag + 1 } := by
  rw [perform_bind_ok (perform_newFlag w)]

end Action

/-! ## The state of transactions -/

/-- Two transactions with different numbers and connections. -/
def Transaction.Apart (t u : Transaction) : Prop := t.id ≠ u.id ∧ t.connection ≠ u.connection

namespace World

/-- A changed transaction is as changed. -/
@[simp] theorem stateOf_modifyTransaction (t : Transaction)
    (f : TransactionState → TransactionState) (w : World σ τ) :
    (w.modifyTransaction t f).stateOf t = f (w.stateOf t) := by
  simp [modifyTransaction, stateOf]

/-- Changing a transaction leaves those of other numbers. -/
theorem stateOf_modifyTransaction_of_ne {t u : Transaction} (h : u.id ≠ t.id)
    (f : TransactionState → TransactionState) (w : World σ τ) :
    (w.modifyTransaction t f).stateOf u = w.stateOf u := by
  simp [modifyTransaction, stateOf, h]

/-- Nothing moved but the storage and the trace. -/
structure SameBooks (w w' : World σ τ) : Prop where
  transactions : w'.transactions = w.transactions
  nextTransaction : w'.nextTransaction = w.nextTransaction
  flags : w'.flags = w.flags
  nextFlag : w'.nextFlag = w.nextFlag
  settings : w'.settings = w.settings

theorem SameBooks.refl (w : World σ τ) : SameBooks w w := ⟨rfl, rfl, rfl, rfl, rfl⟩

theorem SameBooks.of_store (w : World σ τ) (store : σ) : SameBooks w { w with store } :=
  ⟨rfl, rfl, rfl, rfl, rfl⟩

theorem SameBooks.trans {w₁ w₂ w₃ : World σ τ} (h₁ : SameBooks w₁ w₂) (h₂ : SameBooks w₂ w₃) :
    SameBooks w₁ w₃ :=
  ⟨h₂.transactions.trans h₁.transactions, h₂.nextTransaction.trans h₁.nextTransaction,
    h₂.flags.trans h₁.flags, h₂.nextFlag.trans h₁.nextFlag, h₂.settings.trans h₁.settings⟩

end World

end RowMapping
