/-
Suspended transactions, and when one of them refuses a write.

Whether a suspended transaction has written is told by its mark, or by its connection
having changed rows since it began. Asking changes nothing, so a refusal leaves the
world as it was.
-/
import RowMapping.Proofs.Transaction.Statements

set_option autoImplicit false

namespace RowMapping

variable {σ τ α ρ : Type}

/-- The transactions that a scope suspends. -/
def Scope.suspendedIn : Option Scope → List Transaction
  | some scope => scope.suspended
  | none => []

/-- The transaction that operations of a scope run in. -/
def Scope.active? : Option Scope → Option Transaction
  | some ⟨.transaction t _, _⟩ => some t
  | _ => none

/-- The transactions that wait while a scope of another venue runs inside of a scope. -/
def Scope.setAside (scope : Option Scope) : List Transaction :=
  suspendedIn scope ++ (active? scope).toList

/-- The error of a write that would wait for a suspended transaction. -/
def suspendedWriter : Error := .illegalTransactionState .suspendedWriter

namespace Manager

open RowMapping.Action

/-- Whether a transaction is found to have written. -/
def foundWriting (m : Manager σ α) (w : World σ τ) (t : Transaction) : Bool :=
  (w.stateOf t).written || (!(w.stateOf t).held &&
    match (m.engine.totalChanges t.connection w.store).1 with
    | .ok changes => changes != t.changesAtBegin
    | .error _ => false)

/-- The changes of a connection can be counted, and counting does not change them. -/
def Counts (m : Manager σ α) (c : ConnectionId) (s : σ) : Prop :=
  ∃ changes, m.engine.totalChanges c s = (.ok changes, s)

theorem perform_hasWritten {m : Manager σ α} {w : World σ τ} {t : Transaction}
    (h : m.Counts t.connection w.store) :
    (m.hasWritten t).perform w = (.ok (m.foundWriting w t), w) := by
  obtain ⟨changes, hchanges⟩ := h
  rw [hasWritten, perform_look_bind, foundWriting, hchanges]
  rcases hwritten : (w.stateOf t).written with _ | _
  · rcases hheld : (w.stateOf t).held with _ | _
    · have hcount : (m.totalChanges t.connection).perform w = (.ok changes, w) := by
        rw [perform_totalChanges, hchanges]
        rfl
      simp only [Bool.false_eq_true, if_false]
      rw [perform_bind_ok hcount]
      rfl
    · rfl
  · rfl

/-- A write is refused when a suspended transaction is found to have written. Either
way nothing is changed. -/
theorem perform_ensureNoWriter (m : Manager σ α) (w : World σ τ) (ts : List Transaction)
    (h : ∀ t ∈ ts, m.Counts t.connection w.store) :
    (m.ensureNoWriter ts).perform w
      = (if ts.any (m.foundWriting w) then .error suspendedWriter else .ok (), w) := by
  induction ts with
  | nil => rfl
  | cons t rest ih =>
    have hrest := ih fun u hu => h u (List.mem_cons_of_mem t hu)
    rw [ensureNoWriter, perform_bind_ok (perform_hasWritten (h t (List.mem_cons_self ..)))]
    rcases hfound : m.foundWriting w t with _ | _
    · simp only [Bool.false_eq_true, if_false, List.any_cons, hfound, Bool.false_or]
      exact hrest
    · simp [hfound, suspendedWriter]

end Manager

end RowMapping
