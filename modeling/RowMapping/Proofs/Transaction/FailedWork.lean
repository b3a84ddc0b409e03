/-
What has failed has not been committed.

A transaction is committed by one statement, the last one that may decide about its result.
Where beginning, committing or rolling back comes to an error, that statement was not run,
or it has failed. So from an error it can be told that no COMMIT has succeeded.
-/
import RowMapping.Proofs.Transaction.Cleaning
import RowMapping.Proofs.Transaction.Operations

set_option autoImplicit false

namespace RowMapping

variable {σ τ α ρ κ : Type}

/-- No COMMIT has succeeded on the way from one world to another one. -/
def World.Uncommitted (w w' : World σ τ) : Prop :=
  ∃ new, w'.trace = w.trace ++ new ∧ ∀ c, .executed ⟨c, true⟩ .commit ∉ new

namespace World.Uncommitted

variable {w w₁ w' : World σ τ}

theorem of_trace (h : w'.trace = w.trace) : w.Uncommitted w' :=
  ⟨[], by simp [h], by simp⟩

theorem trans (h₁ : w.Uncommitted w₁) (h₂ : w₁.Uncommitted w') : w.Uncommitted w' := by
  obtain ⟨new₁, htrace₁, hnot₁⟩ := h₁
  obtain ⟨new₂, htrace₂, hnot₂⟩ := h₂
  refine ⟨new₁ ++ new₂, by rw [htrace₂, htrace₁, List.append_assoc], fun c hc => ?_⟩
  rcases List.mem_append.mp hc with hc | hc
  · exact hnot₁ c hc
  · exact hnot₂ c hc

theorem not_commits (h : w.Uncommitted w') : ¬ w.Commits w' := by
  obtain ⟨new, htrace, hnot⟩ := h
  rintro ⟨new', c, htrace', hmem⟩
  have heq : new' = new := List.append_cancel_left (htrace'.symm.trans htrace)
  exact hnot c (heq ▸ hmem)

end World.Uncommitted

/-- An action that never commits. -/
def NeverCommits (a : Action σ τ ρ) : Prop := ∀ w : World σ τ, w.Uncommitted (a.perform w).2

/-- An action that has not committed where it comes to an error. -/
def FailsUncommitted (a : Action σ τ ρ) : Prop :=
  ∀ (w : World σ τ) (e : Error), (a.perform w).1 = .error e → w.Uncommitted (a.perform w).2

namespace NeverCommits

open RowMapping.Action

variable {a : Action σ τ ρ}

theorem run (ha : NeverCommits a) {w w' : World σ τ} {r : Except Error ρ}
    (h : a.perform w = (r, w')) : w.Uncommitted w' := by
  have huncommitted := ha w
  rw [h] at huncommitted
  exact huncommitted

theorem failsUncommitted (h : NeverCommits a) : FailsUncommitted a := fun w _ _ => h w

theorem bind {f : ρ → Action σ τ κ} (ha : NeverCommits a) (hf : ∀ x, NeverCommits (f x)) :
    NeverCommits (a >>= f) := by
  intro w
  rw [perform_bind]
  rcases hrun : a.perform w with ⟨e | x, w₁⟩
  · exact ha.run hrun
  · exact (ha.run hrun).trans (hf x w₁)

theorem outcome (ha : NeverCommits a) : NeverCommits (Action.outcome a) := ha

/-- Nothing is traced. -/
theorem silent (h : ∀ w, (a.perform w).2.trace = w.trace) : NeverCommits a :=
  fun w => .of_trace (h w)

end NeverCommits

theorem NeverCommits.composable : Composable (σ := σ) (τ := τ) fun _ a => NeverCommits a where
  still h := .silent fun w => by rw [h w]
  bind := .bind
  outcome := .outcome

theorem FailsUncommitted.bind {a : Action σ τ ρ} {f : ρ → Action σ τ κ} (ha : NeverCommits a)
    (hf : ∀ x, FailsUncommitted (f x)) : FailsUncommitted (a >>= f) := by
  intro w e he
  rw [Action.perform_bind] at he ⊢
  rcases hrun : a.perform w with ⟨e' | x, w₁⟩
  · exact ha.run hrun
  · rw [hrun] at he
    exact (ha.run hrun).trans (hf x w₁ e he)

theorem FailsUncommitted.bind_pure {a : Action σ τ ρ} (ha : FailsUncommitted a) (f : ρ → κ) :
    FailsUncommitted (a >>= fun x => pure (f x)) := by
  intro w e he
  rw [Action.perform_bind_pure] at he ⊢
  rcases hrun : (a.perform w).1 with e' | x
  · exact ha w e' hrun
  · rw [hrun] at he
    cases he

namespace Manager

open RowMapping.Action

variable {m : Manager σ α}

theorem neverCommits_execute (c : ConnectionId) {statement : Statement}
    (h : statement ≠ .commit) : NeverCommits (τ := τ) (m.execute c statement) := by
  intro w
  obtain ⟨-, htrace⟩ := ran_execute (m := m) c statement (w := w) rfl
  refine ⟨_, htrace, fun c' hc => ?_⟩
  simp only [eventsOn, List.map_cons, List.map_nil, List.mem_singleton] at hc
  exact h (Event.executed.inj hc).2.symm

theorem neverCommits_executeAll (c : ConnectionId) {statements : List Statement}
    (h : .commit ∉ statements) : NeverCommits (τ := τ) (m.executeAll c statements) :=
  NeverCommits.composable.executeAll fun _ hs =>
    neverCommits_execute c fun heq => h (heq ▸ hs)

theorem neverCommits_begin (hd : m.dialect = .sqlite) (isolation : Isolation) :
    NeverCommits (τ := τ) (m.begin isolation) := by
  have hbegin : .commit ∉ m.dialect.begin isolation := by
    rw [hd]
    exact Dialect.commitApart_sqlite.begin isolation
  refine (NeverCommits.silent fun _ => rfl).bind fun c => ?_
  have hstatements : NeverCommits (τ := τ) (do
      m.executeAll c (m.dialect.begin isolation)
      m.totalChanges c) :=
    (neverCommits_executeAll c hbegin).bind fun _ => .silent fun _ => rfl
  refine hstatements.outcome.bind fun begun => ?_
  rcases begun with e | changes
  · exact .silent fun _ => rfl
  · exact .silent fun _ => rfl

theorem neverCommits_rollback (hd : m.dialect = .sqlite) (t : Transaction) :
    NeverCommits (τ := τ) (m.rollback t) := by
  have hrollback : m.dialect.rollback ≠ .commit := by simp [hd, Dialect.sqlite]
  have hcleans : .commit ∉ m.dialect.finish t.isolation := by
    rw [hd]
    exact Dialect.commitApart_sqlite.finish t.isolation
  exact NeverCommits.composable.finish (neverCommits_execute _ hrollback) (.silent fun _ => rfl)
    (neverCommits_executeAll _ hcleans) (.silent fun _ => rfl)

/-- After a COMMIT that has succeeded no failure is told. -/
theorem failsUncommitted_commit (t : Transaction) :
    FailsUncommitted (τ := τ) (m.commit t) := by
  intro w e he
  rcases finish_error (Prod.ext he rfl) with ⟨-, hsame⟩ | hrun
  · exact .of_trace (congrArg World.trace hsame)
  · obtain ⟨-, htrace⟩ := ran_execute _ _ hrun
    refine ⟨_, htrace, fun c hc => ?_⟩
    simp only [eventsOn, List.map_cons, List.map_nil, List.mem_singleton] at hc
    cases hc

theorem failsUncommitted_complete (hd : m.dialect = .sqlite) (t : Transaction)
    (result : Except Error ρ) (rollbackOnly : Bool) :
    FailsUncommitted (τ := τ) (m.complete t result rollbackOnly) := by
  have hback : NeverCommits (m.rollback t : Action σ τ Unit) := neverCommits_rollback hd t
  intro w e he
  cases completeSteps (Prod.ext he rfl) with
  | undone hrollback | notUndone hrollback | notDiscarded hrollback => exact hback.run hrollback
  | notCommitted hcommit hrollback =>
    have hfailed := failsUncommitted_commit (m := m) t w
    rw [hcommit] at hfailed
    exact (hfailed _ rfl).trans (hback.run hrollback)

theorem failsUncommitted_settle (hd : m.dialect = .sqlite) (t : Transaction)
    (result : Except Error ρ) (rollbackOnly : Bool) :
    FailsUncommitted (τ := τ) (m.settle t result rollbackOnly) := by
  intro w e he
  rw [perform_settle] at he ⊢
  exact (failsUncommitted_complete hd t result rollbackOnly w e he).trans (.of_trace rfl)

/-! ## Attempts -/

theorem neverCommits_openAttempt (hd : m.dialect = .sqlite) (opening : Opening) :
    NeverCommits (τ := τ) (m.openAttempt opening) := by
  rcases opening with isolation | t
  · exact (neverCommits_begin hd isolation).bind fun _ => .silent fun _ => rfl
  · have hsavepoint : ∀ name, m.dialect.savepoint name ≠ .commit := by simp [hd, Dialect.sqlite]
    exact NeverCommits.composable.openAttempt_savepoint (.silent fun _ => rfl)
      (fun name => neverCommits_execute _ (hsavepoint name)) (.silent fun _ => rfl)

theorem neverCommits_leave (hd : m.dialect = .sqlite) (t : Transaction) (name : String)
    (result : Except Error ρ) (rollbackOnly : Bool) :
    NeverCommits (τ := τ) (m.leave t name result rollbackOnly) := by
  have hback : m.dialect.rollbackTo name ≠ .commit := by simp [hd, Dialect.sqlite]
  have hkeep : m.dialect.release name ≠ .commit := by simp [hd, Dialect.sqlite]
  exact NeverCommits.composable.leave (neverCommits_execute _ hback)
    (neverCommits_execute _ hkeep) result rollbackOnly

theorem failsUncommitted_closeAttempt (hd : m.dialect = .sqlite) (o : Opened)
    (result : Except Error ρ) : FailsUncommitted (τ := τ) (m.closeAttempt o result) := by
  refine .bind (.silent fun _ => rfl) fun marked => ?_
  rcases o with ⟨t, flag⟩ | ⟨t, name, flag⟩
  · exact failsUncommitted_settle hd t result marked
  · exact (neverCommits_leave hd t name result marked).failsUncommitted

/-! ## Operations -/

variable {operation : ConnectionId → Action σ τ ρ}

theorem neverCommits_ensureAccess (access : Access) (suspended : List Transaction) :
    NeverCommits (τ := τ) (m.ensureAccess access suspended) :=
  NeverCommits.composable.ensureAccess (fun _ => .silent fun _ => rfl) access suspended

/-- Where an operation fails, the transaction that it was run in alone is not committed. -/
theorem failsUncommitted_withConnection (hd : m.dialect = .sqlite) (scope : Option Scope)
    (implicit : Option Isolation) (access : Access) (hop : ∀ c, NeverCommits (operation c)) :
    FailsUncommitted (m.withConnection scope implicit access operation) := by
  rcases scope with _ | ⟨⟨t, flag⟩ | _, suspended⟩
  · rcases implicit with _ | isolation
    · exact (NeverCommits.silent fun _ => rfl).failsUncommitted
    · refine .bind (neverCommits_begin hd isolation) fun t => ?_
      exact .bind (hop t.connection).outcome fun result => failsUncommitted_settle hd t result false
  · refine .bind (neverCommits_ensureAccess access suspended) fun _ => ?_
    have hmark : NeverCommits (markWritten access t : Action σ τ Unit) :=
      NeverCommits.composable.markWritten (.silent fun _ => rfl) access
    exact .bind hmark fun _ => (hop t.connection).failsUncommitted
  · refine .bind (neverCommits_ensureAccess access suspended) fun _ => ?_
    refine .bind (.silent fun _ => rfl) fun c => ?_
    exact .bind (hop c).outcome fun _ => (NeverCommits.silent fun _ => rfl).failsUncommitted

end Manager

/-- A write that fails has committed nothing. -/
theorem Database.failsUncommitted_answer {db : Database σ α} (hd : db.dialect = .sqlite)
    (scope : Option Scope) {operation : Operation α} (hwrite : operation.access = .write) :
    FailsUncommitted (τ := τ) (Script.answer db scope operation) := by
  rcases operation with q | ⟨sql, argumentLists⟩ | q
  · have hrun : FailsUncommitted (τ := τ) (db.updateWithKey scope q) := by
      refine .bind (.silent fun _ => rfl) fun settings => .bind (.silent fun _ => rfl) fun cells => ?_
      exact Manager.failsUncommitted_withConnection hd scope _ .write fun _ => .silent fun _ => rfl
    exact hrun.bind_pure _
  · have hrun : FailsUncommitted (τ := τ) (db.updateBatch scope sql argumentLists) := by
      refine .bind (.silent fun _ => rfl) fun settings => .bind (.silent fun _ => rfl) fun batches => ?_
      exact Manager.failsUncommitted_withConnection hd scope _ .write fun c =>
        NeverCommits.composable.updateEach (fun _ _ _ => .silent fun _ => rfl) _
    exact hrun.bind_pure _
  · cases hwrite

end RowMapping
