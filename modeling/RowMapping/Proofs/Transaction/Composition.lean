/-
What holds of the actions of the manager because it holds of their parts.

Many properties speak of what an action makes of the world, and pass from the parts of a
sequence to the whole whatever the parts come to. For these it is enough to look at single
statements, at the rows counted, and at what is noted about transactions.
-/
import RowMapping.Proofs.Transaction.Attempts

set_option autoImplicit false

namespace RowMapping

variable {σ τ α ρ : Type}

/-- A property that holds of actions which change nothing, and passes from the parts of an
action to the whole. -/
structure Composable (P : (ρ : Type) → Action σ τ ρ → Prop) : Prop where
  still : ∀ {ρ : Type} {a : Action σ τ ρ}, (∀ w, (a.perform w).2 = w) → P ρ a
  bind : ∀ {ρ κ : Type} {a : Action σ τ ρ} {f : ρ → Action σ τ κ}, P ρ a → (∀ x, P κ (f x)) →
    P κ (a >>= f)
  outcome : ∀ {ρ : Type} {a : Action σ τ ρ}, P ρ a → P (Except Error ρ) (Action.outcome a)

namespace Composable

open RowMapping.Action RowMapping.Manager

variable {P : (ρ : Type) → Action σ τ ρ → Prop} {m : Manager σ α}

/-- What follows an outcome, whatever it is. -/
theorem outcome_bind (hP : Composable P) {κ : Type} {a : Action σ τ ρ}
    {f : Except Error ρ → Action σ τ κ} (ha : P ρ a) (herror : ∀ e, P κ (f (.error e)))
    (hok : ∀ x, P κ (f (.ok x))) : P κ (Action.outcome a >>= f) := by
  refine hP.bind (hP.outcome ha) fun r => ?_
  rcases r with e | x
  · exact herror e
  · exact hok x

/-! ## Statements -/

theorem executeAll (hP : Composable P) {c : ConnectionId} {statements : List Statement}
    (h : ∀ statement ∈ statements, P Unit (m.execute c statement)) :
    P Unit (m.executeAll c statements) := by
  induction statements with
  | nil => exact hP.still fun _ => rfl
  | cons statement rest ih =>
    refine hP.bind (h statement (List.mem_cons_self ..)) fun _ => ih fun s hs => ?_
    exact h s (List.mem_cons_of_mem statement hs)

theorem nextSavepoint (hP : Composable P) {t : Transaction}
    (h : P Unit (change (·.modifyTransaction t fun s => { s with savepoints := s.savepoints + 1 }))) :
    P String (Manager.nextSavepoint t) :=
  hP.bind h fun _ => hP.bind (hP.still fun _ => rfl) fun _ => hP.still fun _ => rfl

theorem failAfter (hP : Composable P) (e : Error) {undo : Action σ τ Unit} (h : P Unit undo) :
    P ρ (Manager.failAfter e undo) :=
  hP.outcome_bind h (fun _ => hP.still fun _ => rfl) fun _ => hP.still fun _ => rfl

/-! ## Ending a transaction -/

theorem finish (hP : Composable P) {t : Transaction} {statement : Statement}
    (hexecute : P Unit (m.execute t.connection statement))
    (hfinished : P Unit (change (·.modifyTransaction t fun s => { s with finished := true })))
    (hclean : P Unit (m.executeAll t.connection (m.dialect.finish t.isolation)))
    (htainted : P Unit (change (·.modifyTransaction t fun s => { s with tainted := true }))) :
    P Unit (m.finish t statement) := by
  have hcleanUp : P Unit (m.cleanUp t) :=
    hP.outcome_bind hclean (fun _ => htainted) fun _ => hP.still fun _ => rfl
  rw [finish_eq]
  refine hP.bind (hP.still fun _ => rfl) fun s => ?_
  rcases s.finished with _ | _
  · exact hP.bind hexecute fun _ => hP.bind hfinished fun _ => hcleanUp
  · exact hP.still fun _ => rfl

theorem complete (hP : Composable P) {t : Transaction} (hcommit : P Unit (m.commit t))
    (hrollback : P Unit (m.rollback t)) (result : Except Error ρ) (rollbackOnly : Bool) :
    P ρ (m.complete t result rollbackOnly) := by
  rcases result with e | x
  · exact hP.failAfter e hrollback
  · rcases rollbackOnly with _ | _
    · refine hP.outcome_bind hcommit (fun e => ?_) fun _ => hP.still fun _ => rfl
      exact hP.bind (hP.outcome hrollback) fun _ => hP.still fun _ => rfl
    · exact hP.bind hrollback fun _ => hP.still fun _ => rfl

/-! ## Savepoints -/

theorem leave (hP : Composable P) {t : Transaction} {name : String}
    (hback : P Unit (m.execute t.connection (m.dialect.rollbackTo name)))
    (hrelease : P Unit (m.execute t.connection (m.dialect.release name)))
    (result : Except Error ρ) (rollbackOnly : Bool) :
    P ρ (m.leave t name result rollbackOnly) := by
  have hundo : P Unit (m.undo t name) := hP.bind hback fun _ => hrelease
  rcases result with e | x
  · exact hP.failAfter e hundo
  · rcases rollbackOnly with _ | _
    · exact hP.bind hrelease fun _ => hP.still fun _ => rfl
    · exact hP.bind hundo fun _ => hP.still fun _ => rfl

theorem openAttempt_savepoint (hP : Composable P) {t : Transaction}
    (hname : P Unit (change (·.modifyTransaction t fun s => { s with savepoints := s.savepoints + 1 })))
    (hset : ∀ name, P Unit (m.execute t.connection (m.dialect.savepoint name)))
    (hflag : P FlagId newFlag) : P Opened (m.openAttempt (.savepoint t)) :=
  hP.bind (hP.nextSavepoint hname) fun name => hP.bind (hset name) fun _ =>
    hP.bind hflag fun _ => hP.still fun _ => rfl

/-! ## Suspended transactions -/

theorem hasWritten (hP : Composable P) {t : Transaction}
    (h : P Nat (m.totalChanges t.connection)) : P Bool (m.hasWritten t) := by
  refine hP.bind (hP.still fun _ => rfl) fun s => ?_
  split
  · exact hP.still fun _ => rfl
  · split
    · exact hP.still fun _ => rfl
    · exact hP.bind h fun _ => hP.still fun _ => rfl

theorem ensureNoWriter (hP : Composable P) (h : ∀ c, P Nat (m.totalChanges c))
    (ts : List Transaction) : P Unit (m.ensureNoWriter ts) := by
  induction ts with
  | nil => exact hP.still fun _ => rfl
  | cons t rest ih =>
    refine hP.bind (hP.hasWritten (h t.connection)) fun written => ?_
    rcases written with _ | _
    · exact ih
    · exact hP.still fun _ => rfl

theorem permit (hP : Composable P) (h : ∀ c, P Nat (m.totalChanges c))
    (suspended : List Transaction) (opening : Opening) : P Unit (m.permit suspended opening) := by
  rcases opening with isolation | t
  · rw [Manager.permit]
    split
    · exact hP.ensureNoWriter h suspended
    · exact hP.still fun _ => rfl
  · exact hP.still fun _ => rfl

theorem ensureAccess (hP : Composable P) (h : ∀ c, P Nat (m.totalChanges c)) (access : Access)
    (suspended : List Transaction) : P Unit (m.ensureAccess access suspended) := by
  rcases access with _ | _
  · exact hP.still fun _ => rfl
  · exact hP.ensureNoWriter h suspended

theorem markWritten (hP : Composable P) {t : Transaction}
    (h : P Unit (change (·.modifyTransaction t fun s => { s with written := true })))
    (access : Access) : P Unit (Manager.markWritten access t) := by
  rcases access with _ | _
  · exact hP.still fun _ => rfl
  · exact h

/-! ## Attempts and writes -/

theorem retrying (hP : Composable P) {once : Nat → Action σ τ ρ} (h : ∀ n, P ρ (once n))
    (retries number : Nat) : P ρ (Manager.retrying once retries number) := by
  induction retries generalizing number with
  | zero => exact h number
  | succ retries ih =>
    refine hP.outcome_bind (h number) (fun e => ?_) fun _ => hP.still fun _ => rfl
    dsimp only
    split
    · exact ih (number + 1)
    · exact hP.still fun _ => rfl

theorem updateEach (hP : Composable P) {db : Database σ α} {c : ConnectionId}
    (h : ∀ (sql : String) (cells : List Cell) (convert : DriverError → Error),
      P UpdateResult (onStore (db.engine.update c sql cells) convert))
    (queries : List (Query α × List Cell)) : P (List Nat) (db.updateEach c queries) := by
  induction queries with
  | nil => exact hP.still fun _ => rfl
  | cons head rest ih =>
    obtain ⟨q, cells⟩ := head
    exact hP.bind (h q.sql cells _) fun _ => hP.bind ih fun _ => hP.still fun _ => rfl

end Composable

end RowMapping
