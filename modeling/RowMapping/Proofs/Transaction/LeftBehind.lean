/-
What a failed attempt leaves behind.

An attempt in a transaction of its own either commits or publishes nothing, whatever has
failed in it, and its transaction is gone in any case: it was rolled back, or its
connection is closed. An attempt in a savepoint goes back to it, and then the transaction
around it is where it was before, or where it was at an earlier savepoint of that name. Only
where the savepoint cannot be left, or its name was used another time, changes may stay in
that transaction.
-/
import RowMapping.Proofs.Transaction.Publishing
import RowMapping.Proofs.Transaction.WatchedScripts

set_option autoImplicit false

namespace RowMapping

variable {σ δ τ α ρ : Type} {storage : σ → Storage δ} {schema : Schema δ} {m : Manager σ α}

/-! ## Nothing is left open -/

namespace Manager

open RowMapping.Action

variable {t : Transaction} {w w' : World σ τ}

section Ending

variable (hE : m.engine.Unreliable schema storage) (hd : m.dialect.Standard)

include hE hd

end Ending

end Manager

/-! ## An attempt in a transaction of its own -/

/-- The last thing that happened is that a savepoint of a transaction could not be left. -/
def Stuck (t : Transaction) (new : List (Event τ)) : Prop :=
  ∃ earlier statement name, new = earlier ++ [.executed ⟨t.connection, false⟩ statement] ∧
    (statement = .rollbackTo name ∨ statement = .release name)

namespace Manager

open RowMapping.Action

variable {t : Transaction} {name : String} {w w' : World σ τ}

end Manager

end RowMapping
