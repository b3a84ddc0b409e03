/-
What the statements of the manager come to, for any storage engine.

A statement is passed to the engine and traced with its outcome. A transaction is
ended by one statement: if that fails the transaction stays as it is, and if it
succeeds the transaction is finished, whatever becomes of the cleaning up. Settling
is ending, a second attempt to roll back where committing failed, and giving the
connection back.
-/
import RowMapping.Proofs.Transaction.Action

set_option autoImplicit false

namespace RowMapping

variable {σ τ α ρ κ : Type}

/-! ## Statements -/

namespace Manager

open RowMapping.Action

/-- What becomes of the world when a statement is run. -/
def afterStatement (m : Manager σ α) (c : ConnectionId) (statement : Statement)
    (w : World σ τ) : World σ τ :=
  { w with
    store := (m.engine.execute c statement w.store).2
    trace := w.trace ++ [.executed ⟨c, (m.engine.execute c statement w.store).1.isOk⟩ statement] }

/-- The result of a statement, as an error that names it if it fails. -/
theorem perform_execute (m : Manager σ α) (c : ConnectionId) (statement : Statement)
    (w : World σ τ) :
    (m.execute c statement).perform w
      = ((m.engine.execute c statement w.store).1.mapError fun e =>
          m.dialect.convertError e (describe statement.sql),
        m.afterStatement c statement w) := by
  rw [execute, perform_outcome_bind, perform_onStore, perform_record_bind, perform_conclude,
    afterStatement]
  rcases (m.engine.execute c statement w.store).1 with _ | _ <;> rfl

theorem sameBooks_afterStatement (m : Manager σ α) (c : ConnectionId) (statement : Statement)
    (w : World σ τ) : w.SameBooks (m.afterStatement c statement w) :=
  ⟨rfl, rfl, rfl, rfl, rfl⟩

/-- A statement that succeeds lets the next one follow. -/
theorem perform_execute_bind_ok {m : Manager σ α} {c : ConnectionId} {statement : Statement}
    {w : World σ τ} (h : (m.engine.execute c statement w.store).1 = .ok ())
    (f : Unit → Action σ τ κ) :
    (m.execute c statement >>= f).perform w
      = (f ()).perform (m.afterStatement c statement w) := by
  rw [perform_bind_ok (by rw [perform_execute, h]; rfl)]

theorem perform_acquire (m : Manager σ α) (w : World σ τ) :
    (m.acquire).perform w = ((m.engine.acquire w.store).1.mapError Error.connection,
      { w with store := (m.engine.acquire w.store).2 }) := rfl

theorem perform_totalChanges (m : Manager σ α) (c : ConnectionId) (w : World σ τ) :
    (m.totalChanges c).perform w
      = ((m.engine.totalChanges c w.store).1.mapError fun e =>
          m.dialect.convertError e (describe "SELECT total_changes()"),
        { w with store := (m.engine.totalChanges c w.store).2 }) := rfl

theorem perform_nextSavepoint (t : Transaction) (w : World σ τ) :
    (nextSavepoint t).perform w
      = (.ok ("sp_" ++ toString ((w.stateOf t).savepoints + 1)),
        w.modifyTransaction t fun s => { s with savepoints := s.savepoints + 1 }) := by
  rw [nextSavepoint, perform_change_bind, perform_look_bind, World.stateOf_modifyTransaction]
  rfl

/-! ## Beginning a transaction -/

theorem stateOf_enlist (m : Manager σ α) (c : ConnectionId) (isolation : Isolation)
    (changes : Nat) (w : World σ τ) :
    ((m.enlist c isolation changes).perform w).2.stateOf
        ⟨w.nextTransaction, c, isolation, changes⟩
      = { written := m.dialect.locksOnBegin isolation } :=
  World.stateOf_modifyTransaction ⟨w.nextTransaction, c, isolation, changes⟩
    (fun _ => { written := m.dialect.locksOnBegin isolation })
    { w with nextTransaction := w.nextTransaction + 1 }

/-- The states of earlier transactions stay when another one is numbered. -/
theorem transactions_enlist (m : Manager σ α) (c : ConnectionId) (isolation : Isolation)
    (changes : Nat) {w : World σ τ} {i : Nat} (h : i < w.nextTransaction) :
    ((m.enlist c isolation changes).perform w).2.transactions i = w.transactions i :=
  if_neg (Nat.ne_of_lt h)

/-- The steps by which a transaction begins, up to the first that fails. Where a statement
fails, or the rows changed so far cannot be asked for, the connection is closed. -/
inductive BeginSteps (m : Manager σ α) (isolation : Isolation) (w : World σ τ) :
    Except Error Transaction → World σ τ → Prop
  | unacquired {e : Error} {w₁ : World σ τ}
      (hacquire : (m.acquire).perform w = (.error e, w₁)) :
      BeginSteps m isolation w (.error e) w₁
  | refused {c : ConnectionId} {e : Error} {w₁ w₂ : World σ τ}
      (hacquire : (m.acquire).perform w = (.ok c, w₁))
      (hrun : (m.executeAll c (m.dialect.begin isolation)).perform w₁ = (.error e, w₂)) :
      BeginSteps m isolation w (.error e) ((m.release c true).perform w₂).2
  | uncounted {c : ConnectionId} {e : Error} {w₁ w₂ w₃ : World σ τ}
      (hacquire : (m.acquire).perform w = (.ok c, w₁))
      (hrun : (m.executeAll c (m.dialect.begin isolation)).perform w₁ = (.ok (), w₂))
      (hcount : (m.totalChanges c).perform w₂ = (.error e, w₃)) :
      BeginSteps m isolation w (.error e) ((m.release c true).perform w₃).2
  | begun {c : ConnectionId} {changes : Nat} {w₁ w₂ w₃ : World σ τ}
      (hacquire : (m.acquire).perform w = (.ok c, w₁))
      (hrun : (m.executeAll c (m.dialect.begin isolation)).perform w₁ = (.ok (), w₂))
      (hcount : (m.totalChanges c).perform w₂ = (.ok changes, w₃)) :
      BeginSteps m isolation w (.ok ⟨w₃.nextTransaction, c, isolation, changes⟩)
        ((m.enlist c isolation changes).perform w₃).2

theorem beginSteps {m : Manager σ α} {isolation : Isolation} {w w' : World σ τ}
    {r : Except Error Transaction} (h : (m.begin isolation).perform w = (r, w')) :
    m.BeginSteps isolation w r w' := by
  rw [begin, perform_bind] at h
  rcases hacquire : (m.acquire).perform w with ⟨e | c, w₁⟩
  all_goals
    rw [hacquire] at h
    dsimp only at h
  · cases h
    exact .unacquired hacquire
  rw [perform_outcome_bind, perform_bind] at h
  rcases hrun : (m.executeAll c (m.dialect.begin isolation)).perform w₁ with ⟨e | _, w₂⟩
  all_goals
    rw [hrun] at h
    dsimp only at h
  · cases h
    exact .refused hacquire hrun
  rcases hcount : (m.totalChanges c).perform w₂ with ⟨e | changes, w₃⟩
  all_goals
    rw [hcount] at h
    cases h
  · exact .uncounted hacquire hrun hcount
  · exact .begun hacquire hrun hcount

/-! ## Ending a transaction -/

/-- Clean up after a transaction. Where that fails, its connection is tainted. -/
def cleanUp (m : Manager σ α) (t : Transaction) : Action σ τ Unit := do
  match ← outcome (m.executeAll t.connection (m.dialect.finish t.isolation)) with
  | .ok _ => pure ()
  | .error _ => change (·.modifyTransaction t fun s => { s with tainted := true })

theorem finish_eq (m : Manager σ α) (t : Transaction) (statement : Statement) :
    (m.finish t statement : Action σ τ Unit) = (do
      if (← look (·.stateOf t)).finished then throw .alreadyFinalized
      m.execute t.connection statement
      change (·.modifyTransaction t fun s => { s with finished := true })
      m.cleanUp t) := rfl

/-- The world once the statement that ends a transaction has succeeded. -/
def afterEnd (m : Manager σ α) (t : Transaction) (statement : Statement) (w : World σ τ) :
    World σ τ :=
  (m.afterStatement t.connection statement w).modifyTransaction t
    fun s => { s with finished := true }

/-- A finished transaction is not ended again. -/
theorem perform_finish_finished {m : Manager σ α} {t : Transaction} {w : World σ τ}
    (h : (w.stateOf t).finished = true) (statement : Statement) :
    (m.finish t statement).perform w = (.error .alreadyFinalized, w) := by
  rw [finish, perform_look_bind, h]
  rfl

/-- A statement that fails to end a transaction leaves it unfinished. -/
theorem perform_finish_error {m : Manager σ α} {t : Transaction} {statement : Statement}
    {w : World σ τ} {e : DriverError} (h : (w.stateOf t).finished = false)
    (he : (m.engine.execute t.connection statement w.store).1 = .error e) :
    (m.finish t statement).perform w
      = (.error (m.dialect.convertError e (describe statement.sql)),
        m.afterStatement t.connection statement w) := by
  have hexecute := perform_execute m t.connection statement w
  rw [he] at hexecute
  rw [finish, perform_look_bind, h]
  exact perform_bind_error hexecute _

/-- A statement that ends a transaction is followed by cleaning up. Whether that
succeeds decides only if the connection is tainted. -/
theorem perform_finish_ok {m : Manager σ α} {t : Transaction} {statement : Statement}
    {w : World σ τ} (h : (w.stateOf t).finished = false)
    (hok : (m.engine.execute t.connection statement w.store).1 = .ok ()) :
    (m.finish t statement).perform w
      = match (m.executeAll t.connection (m.dialect.finish t.isolation)).perform
          (m.afterEnd t statement w) with
        | (.ok _, w') => (.ok (), w')
        | (.error _, w') =>
          (.ok (), w'.modifyTransaction t fun s => { s with tainted := true }) := by
  rw [finish, perform_look_bind, h]
  show (m.execute t.connection statement >>= _).perform w = _
  rw [perform_execute_bind_ok hok, perform_change_bind, perform_outcome_bind]
  unfold afterEnd
  rcases (m.executeAll t.connection (m.dialect.finish t.isolation)).perform _ with ⟨_ | _, _⟩ <;>
    rfl

/-- The steps of ending a transaction. Cleaning up afterwards fails nothing, but taints the
connection where it does not succeed. -/
inductive FinishSteps (m : Manager σ α) (t : Transaction) (statement : Statement)
    (w : World σ τ) : Except Error Unit → World σ τ → Prop
  | again (hfinished : (w.stateOf t).finished = true) :
      FinishSteps m t statement w (.error .alreadyFinalized) w
  | refused {e : Error} {w₁ : World σ τ} (hfinished : (w.stateOf t).finished = false)
      (hrun : (m.execute t.connection statement).perform w = (.error e, w₁)) :
      FinishSteps m t statement w (.error e) w₁
  | tainted {e : Error} {w₁ w₂ : World σ τ} (hfinished : (w.stateOf t).finished = false)
      (hrun : (m.execute t.connection statement).perform w = (.ok (), w₁))
      (hclean : (m.executeAll t.connection (m.dialect.finish t.isolation)).perform
        (w₁.modifyTransaction t fun s => { s with finished := true }) = (.error e, w₂)) :
      FinishSteps m t statement w (.ok ())
        (w₂.modifyTransaction t fun s => { s with tainted := true })
  | cleaned {w₁ w₂ : World σ τ} (hfinished : (w.stateOf t).finished = false)
      (hrun : (m.execute t.connection statement).perform w = (.ok (), w₁))
      (hclean : (m.executeAll t.connection (m.dialect.finish t.isolation)).perform
        (w₁.modifyTransaction t fun s => { s with finished := true }) = (.ok (), w₂)) :
      FinishSteps m t statement w (.ok ()) w₂

theorem finishSteps {m : Manager σ α} {t : Transaction} {statement : Statement}
    {w w' : World σ τ} {r : Except Error Unit}
    (h : (m.finish t statement).perform w = (r, w')) : m.FinishSteps t statement w r w' := by
  rcases hfinished : (w.stateOf t).finished with _ | _
  · rw [finish, perform_look_bind, hfinished] at h
    change (m.execute t.connection statement >>= _).perform w = _ at h
    rw [perform_bind] at h
    rcases hrun : (m.execute t.connection statement).perform w with ⟨e | _, w₁⟩
    all_goals
      rw [hrun] at h
      dsimp only at h
    · cases h
      exact .refused hfinished hrun
    rw [perform_change_bind, perform_outcome_bind] at h
    rcases hclean : (m.executeAll t.connection (m.dialect.finish t.isolation)).perform
      (w₁.modifyTransaction t fun s => { s with finished := true }) with ⟨e | _, w₂⟩
    all_goals
      rw [hclean] at h
      cases h
    · exact .tainted hfinished hrun hclean
    · exact .cleaned hfinished hrun hclean
  · rw [perform_finish_finished hfinished] at h
    cases h
    exact .again hfinished

/-- A transaction could not be ended because it had been ended before, or because its statement
has failed. -/
theorem finish_error {m : Manager σ α} {t : Transaction} {statement : Statement}
    {w w' : World σ τ} {e : Error} (h : (m.finish t statement).perform w = (.error e, w')) :
    ((w.stateOf t).finished = true ∧ w' = w) ∨
      (m.execute t.connection statement).perform w = (.error e, w') := by
  cases finishSteps h with
  | again hfinished => exact .inl ⟨hfinished, rfl⟩
  | refused _ hrun => exact .inr hrun

/-- A transaction was ended by its statement, and then cleaned up after. -/
theorem finish_ok {m : Manager σ α} {t : Transaction} {statement : Statement}
    {w w' : World σ τ} (h : (m.finish t statement).perform w = (.ok (), w')) :
    ∃ w₁, (m.execute t.connection statement).perform w = (.ok (), w₁) ∧
      w'.store = ((m.executeAll t.connection (m.dialect.finish t.isolation)).perform
        (w₁.modifyTransaction t fun s => { s with finished := true })).2.store := by
  cases finishSteps h with
  | tainted _ hrun hclean | cleaned _ hrun hclean =>
    exact ⟨_, hrun, (congrArg (·.2.store) hclean).symm⟩

/-! ## Settling -/

theorem perform_failAfter (e : Error) (undo : Action σ τ Unit) (w : World σ τ) :
    (failAfter e undo : Action σ τ ρ).perform w
      = match undo.perform w with
        | (.ok _, w') => (.error e, w')
        | (.error e', w') => (.error (e.withRollback e'), w') := by
  rw [failAfter, perform_outcome_bind]
  rcases undo.perform w with ⟨_ | _, _⟩ <;> rfl

/-- Work that failed is rolled back, and if that fails too, both failures are told. -/
theorem perform_complete_error (m : Manager σ α) (t : Transaction) (e : Error)
    (rollbackOnly : Bool) (w : World σ τ) :
    (m.complete t (.error e : Except Error ρ) rollbackOnly).perform w
      = match (m.rollback t).perform w with
        | (.ok _, w') => (.error e, w')
        | (.error e', w') => (.error (e.withRollback e'), w') := by
  rw [complete, perform_failAfter]

/-- Marked work is rolled back. -/
theorem perform_complete_marked (m : Manager σ α) (t : Transaction) (x : ρ) (w : World σ τ) :
    (m.complete t (.ok x) true).perform w
      = match (m.rollback t).perform w with
        | (.ok _, w') => (.ok x, w')
        | (.error e, w') => (.error e, w') := by
  show (m.rollback t >>= fun _ => pure x).perform w = _
  rw [perform_bind]
  rcases (m.rollback t).perform w with ⟨_ | _, _⟩ <;> rfl

/-- Other work is committed. Where that fails the transaction is rolled back, and
whatever becomes of this, the failure to commit is told. -/
theorem perform_complete_ok (m : Manager σ α) (t : Transaction) (x : ρ) (w : World σ τ) :
    (m.complete t (.ok x) false).perform w
      = match (m.commit t).perform w with
        | (.ok _, w') => (.ok x, w')
        | (.error e, w') => (.error e, ((m.rollback t).perform w').2) := by
  show (outcome (m.commit t) >>= _).perform w = _
  rw [perform_outcome_bind]
  rcases (m.commit t).perform w with ⟨_ | _, _⟩ <;> rfl

/-- The steps of completing a transaction: what failed or was marked is rolled back, and
everything else is committed, or rolled back where that fails. -/
inductive CompleteSteps (m : Manager σ α) (t : Transaction) (w : World σ τ) :
    Except Error ρ → Bool → Except Error ρ → World σ τ → Prop
  | undone {e : Error} {marked : Bool} {w' : World σ τ}
      (hrollback : (m.rollback t).perform w = (.ok (), w')) :
      CompleteSteps m t w (.error e) marked (.error e) w'
  | notUndone {e e' : Error} {marked : Bool} {w' : World σ τ}
      (hrollback : (m.rollback t).perform w = (.error e', w')) :
      CompleteSteps m t w (.error e) marked (.error (e.withRollback e')) w'
  | discarded {x : ρ} {w' : World σ τ} (hrollback : (m.rollback t).perform w = (.ok (), w')) :
      CompleteSteps m t w (.ok x) true (.ok x) w'
  | notDiscarded {x : ρ} {e : Error} {w' : World σ τ}
      (hrollback : (m.rollback t).perform w = (.error e, w')) :
      CompleteSteps m t w (.ok x) true (.error e) w'
  | committed {x : ρ} {w' : World σ τ} (hcommit : (m.commit t).perform w = (.ok (), w')) :
      CompleteSteps m t w (.ok x) false (.ok x) w'
  | notCommitted {x : ρ} {e : Error} {r : Except Error Unit} {w₁ w' : World σ τ}
      (hcommit : (m.commit t).perform w = (.error e, w₁))
      (hrollback : (m.rollback t).perform w₁ = (r, w')) :
      CompleteSteps m t w (.ok x) false (.error e) w'

theorem completeSteps {m : Manager σ α} {t : Transaction} {result r : Except Error ρ}
    {rollbackOnly : Bool} {w w' : World σ τ}
    (h : (m.complete t result rollbackOnly).perform w = (r, w')) :
    m.CompleteSteps t w result rollbackOnly r w' := by
  rcases result with e | x
  · rw [perform_complete_error] at h
    rcases hrollback : (m.rollback t).perform w with ⟨e' | _, w₁⟩
    all_goals
      rw [hrollback] at h
      cases h
    · exact .notUndone hrollback
    · exact .undone hrollback
  rcases rollbackOnly with _ | _
  · rw [perform_complete_ok] at h
    rcases hcommit : (m.commit t).perform w with ⟨e | _, w₁⟩
    all_goals
      rw [hcommit] at h
      cases h
    · exact .notCommitted hcommit (Prod.ext rfl rfl)
    · exact .committed hcommit
  · rw [perform_complete_marked] at h
    rcases hrollback : (m.rollback t).perform w with ⟨e | _, w₁⟩
    all_goals
      rw [hrollback] at h
      cases h
    · exact .notDiscarded hrollback
    · exact .discarded hrollback

/-- Whether the connection of a transaction has to be closed when it is let go of. -/
def unfit (t : Transaction) (w : World σ τ) : Bool :=
  !(w.stateOf t).finished || (w.stateOf t).tainted

theorem perform_dismiss (m : Manager σ α) (t : Transaction) (w : World σ τ) :
    (m.dismiss t).perform w
      = (.ok (), { w with store := m.engine.release t.connection (unfit t w) w.store }) := rfl

/-- Settling is completing, and letting go whatever the result. -/
theorem perform_settle (m : Manager σ α) (t : Transaction) (result : Except Error ρ)
    (rollbackOnly : Bool) (w : World σ τ) :
    (m.settle t result rollbackOnly).perform w
      = (((m.complete t result rollbackOnly).perform w).1,
        ((m.dismiss t).perform ((m.complete t result rollbackOnly).perform w).2).2) := by
  rw [settle, perform_outcome_bind, perform_bind, perform_dismiss]
  rfl

/-! ## Leaving a savepoint -/

theorem perform_leave_error (m : Manager σ α) (t : Transaction) (name : String) (e : Error)
    (rollbackOnly : Bool) (w : World σ τ) :
    (m.leave t name (.error e : Except Error ρ) rollbackOnly).perform w
      = match (m.undo t name).perform w with
        | (.ok _, w') => (.error e, w')
        | (.error e', w') => (.error (e.withRollback e'), w') := by
  rw [leave, perform_failAfter]

theorem perform_leave_marked (m : Manager σ α) (t : Transaction) (name : String) (x : ρ)
    (w : World σ τ) :
    (m.leave t name (.ok x) true).perform w
      = match (m.undo t name).perform w with
        | (.ok _, w') => (.ok x, w')
        | (.error e, w') => (.error e, w') := by
  show (m.undo t name >>= fun _ => pure x).perform w = _
  rw [perform_bind]
  rcases (m.undo t name).perform w with ⟨_ | _, _⟩ <;> rfl

theorem perform_leave_ok (m : Manager σ α) (t : Transaction) (name : String) (x : ρ)
    (w : World σ τ) :
    (m.leave t name (.ok x) false).perform w
      = match (m.execute t.connection (m.dialect.release name)).perform w with
        | (.ok _, w') => (.ok x, w')
        | (.error e, w') => (.error e, w') := by
  show (m.execute t.connection (m.dialect.release name) >>= fun _ => pure x).perform w = _
  rw [perform_bind]
  rcases (m.execute t.connection (m.dialect.release name)).perform w with ⟨_ | _, _⟩ <;> rfl

/-- The steps of leaving a savepoint: what failed or was marked is taken back, and everything
else is kept. -/
inductive LeaveSteps (m : Manager σ α) (t : Transaction) (name : String) (w : World σ τ) :
    Except Error ρ → Bool → Except Error ρ → World σ τ → Prop
  | undone {e : Error} {marked : Bool} {w' : World σ τ}
      (hundo : (m.undo t name).perform w = (.ok (), w')) :
      LeaveSteps m t name w (.error e) marked (.error e) w'
  | notUndone {e e' : Error} {marked : Bool} {w' : World σ τ}
      (hundo : (m.undo t name).perform w = (.error e', w')) :
      LeaveSteps m t name w (.error e) marked (.error (e.withRollback e')) w'
  | discarded {x : ρ} {w' : World σ τ} (hundo : (m.undo t name).perform w = (.ok (), w')) :
      LeaveSteps m t name w (.ok x) true (.ok x) w'
  | notDiscarded {x : ρ} {e : Error} {w' : World σ τ}
      (hundo : (m.undo t name).perform w = (.error e, w')) :
      LeaveSteps m t name w (.ok x) true (.error e) w'
  | kept {x : ρ} {w' : World σ τ}
      (hrelease : (m.execute t.connection (m.dialect.release name)).perform w = (.ok (), w')) :
      LeaveSteps m t name w (.ok x) false (.ok x) w'
  | notKept {x : ρ} {e : Error} {w' : World σ τ}
      (hrelease : (m.execute t.connection (m.dialect.release name)).perform w = (.error e, w')) :
      LeaveSteps m t name w (.ok x) false (.error e) w'

theorem leaveSteps {m : Manager σ α} {t : Transaction} {name : String}
    {result r : Except Error ρ} {rollbackOnly : Bool} {w w' : World σ τ}
    (h : (m.leave t name result rollbackOnly).perform w = (r, w')) :
    m.LeaveSteps t name w result rollbackOnly r w' := by
  rcases result with e | x
  · rw [perform_leave_error] at h
    rcases hundo : (m.undo t name).perform w with ⟨e' | _, w₁⟩
    all_goals
      rw [hundo] at h
      cases h
    · exact .notUndone hundo
    · exact .undone hundo
  rcases rollbackOnly with _ | _
  · rw [perform_leave_ok] at h
    rcases hrelease : (m.execute t.connection (m.dialect.release name)).perform w with ⟨e | _, w₁⟩
    all_goals
      rw [hrelease] at h
      cases h
    · exact .notKept hrelease
    · exact .kept hrelease
  · rw [perform_leave_marked] at h
    rcases hundo : (m.undo t name).perform w with ⟨e | _, w₁⟩
    all_goals
      rw [hundo] at h
      cases h
    · exact .notDiscarded hundo
    · exact .discarded hundo

end Manager

end RowMapping
