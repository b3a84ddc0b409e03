/-
A list of what an engine is asked for.

The trace of the world has the statements about transactions only. To say that two runs send
the same things to the database in the same order, writes included, an engine can be made to
list everything it is asked for. The list is written only, so the engine does what it did
without it.
-/
import RowMapping.Proofs.Transaction.Journaling

set_option autoImplicit false

namespace RowMapping

variable {σ τ : Type}

/-- Something an engine is asked for. -/
inductive Request where
  | acquire
  | execute (c : ConnectionId) (statement : Statement)
  | update (c : ConnectionId) (sql : String) (cells : List Cell)
  | select (c : ConnectionId) (sql : String) (cells : List Cell)
  | totalChanges (c : ConnectionId)
  | release (c : ConnectionId) (close : Bool)

/-- The same engine, which lists the requests it gets. -/
def Engine.listing (E : Engine σ) : Engine (σ × List Request) where
  acquire s := ((E.acquire s.1).1, (E.acquire s.1).2, s.2 ++ [.acquire])
  execute c statement s :=
    ((E.execute c statement s.1).1, (E.execute c statement s.1).2, s.2 ++ [.execute c statement])
  update c sql cells s :=
    ((E.update c sql cells s.1).1, (E.update c sql cells s.1).2, s.2 ++ [.update c sql cells])
  select c sql cells s :=
    ((E.select c sql cells s.1).1, (E.select c sql cells s.1).2, s.2 ++ [.select c sql cells])
  totalChanges c s :=
    ((E.totalChanges c s.1).1, (E.totalChanges c s.1).2, s.2 ++ [.totalChanges c])
  release c close s := (E.release c close s.1, s.2 ++ [.release c close])

theorem Engine.mirrors_listing (E : Engine σ) : E.listing.Mirrors E Prod.fst where
  acquire _ := rfl
  execute _ _ _ := rfl
  update _ _ _ _ := rfl
  select _ _ _ _ := rfl
  totalChanges _ _ := rfl
  release _ _ _ := rfl

/-- The same world over an engine that lists its requests and has got none so far. -/
def World.listing (w : World σ τ) : World (σ × List Request) τ := { w with store := (w.store, []) }

end RowMapping
