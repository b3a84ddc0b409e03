/-
The statements of scripts make up blocks.

Whatever a script does on one handle of the database, the statements that the manager
runs for it on a connection are those of transactions one after the other, as long as
none fails but those that commit. And no transaction is ever ended a second time.
-/
import RowMapping.Proofs.Transaction.Machine
import RowMapping.Proofs.Transaction.ScopeStatements

set_option autoImplicit false

namespace RowMapping

variable {σ τ α ρ κ : Type} {P : Pool σ}

/-- A transaction that is joined was active. -/
theorem Scope.active_of_join {scope : Option Scope} {settings : TransactionSettings}
    {t : Transaction} {flag : FlagId} {suspended : List Transaction}
    (h : Scope.entry scope settings = .join t flag suspended) : Scope.active? scope = some t := by
  rw [Scope.of_join h]
  rfl

/-- A transaction that gets a savepoint was active. -/
theorem Scope.active_of_savepoint {scope : Option Scope} {settings : TransactionSettings}
    {t : Transaction} {suspended : List Transaction}
    (h : Scope.entry scope settings = .attempts (.savepoint t) suspended) :
    Scope.active? scope = some t := by
  obtain ⟨flag, rfl⟩ := Scope.of_savepoint h
  rfl

namespace Conforming

open RowMapping.Action

variable {active : Option Transaction} {m : Manager σ α}

/-! ## Scopes -/

theorem permit (hE : m.engine.Pooled P) (suspended : List Transaction) (opening : Opening) :
    Conforming m.dialect P active (m.permit suspended opening : Action σ τ Unit) :=
  (composable m.dialect P active).permit (totalChanges hE) suspended opening

variable (hE : m.engine.Pooled P) (hd : m.dialect.CommitApart) (htotal : m.engine.CountsAlways)

include hE hd htotal

/-- A scope conforms to what is active around it, if its work does to what is active
within. -/
theorem withTransaction (scope : Option Scope) (settings : TransactionSettings)
    {work : Manager.ScopedWork σ τ ρ}
    (hwork : ∀ inner ctx n, Conforming m.dialect P (Scope.active? (some inner)) (work inner ctx n)) :
    Conforming m.dialect P (Scope.active? scope) (m.withTransaction scope settings work) := by
  rw [Manager.withTransaction_eq]
  rcases hentry : Scope.entry scope settings with e | ⟨t, flag, suspended⟩ | suspended |
    ⟨opening, suspended⟩
  · exact still fun _ => rfl
  · rw [Scope.active_of_join hentry]
    exact hwork ⟨.transaction t flag, suspended⟩ _ 1
  · exact newFlag.bind fun flag => (hwork ⟨.nonTransactional, suspended⟩ _ 1).anywhere
  · refine (permit hE suspended opening).bind fun _ =>
      (composable m.dialect P _).retrying (fun n => ?_) _ 1
    refine tryOnce hE hd htotal suspended hwork (fun t ht => ?_) n
    subst ht
    exact Scope.active_of_savepoint hentry

end Conforming

namespace Conforming

open RowMapping.Action

variable {active : Option Transaction} {db : Database σ α}

/-! ## Operations -/

theorem updateEach (hE : db.engine.Pooled P) {d : Dialect α} (c : ConnectionId)
    (queries : List (Query α × List Cell)) :
    Conforming d P active (db.updateEach c queries : Action σ τ (List Nat)) :=
  (composable d P active).updateEach
    (fun sql cells _ => onStore fun _ hs => hE.update c sql cells hs) queries

theorem answerOn (hE : db.engine.Pooled P) {d : Dialect α} (operation : ConnectionOperation)
    (c : ConnectionId) : Conforming d P active (Script.answerOn db c operation : Action σ τ Answer) := by
  rcases operation with ⟨sql, cells⟩ | statement
  · exact (onStore fun s hs => hE.update c sql cells hs).bind fun _ => still fun _ => rfl
  · exact (onStore fun s hs => hE.execute c statement hs).bind fun _ => still fun _ => rfl

theorem answerPast (hE : db.engine.Pooled P) (here : Surroundings) (depth : Nat)
    (operation : ConnectionOperation) :
    Conforming db.dialect P active (Script.answerPast db here depth operation : Action σ τ Answer) := by
  rw [Script.answerPast]
  split
  · exact useConnection hE _ (answerOn hE operation)
  · exact still fun _ => rfl

theorem mark {d : Dialect α} (here : Surroundings) (depth : Nat) :
    Conforming d P active (Script.mark here depth : Action σ τ Unit) := by
  rw [Script.mark]
  split
  · exact change none (fun _ => rfl) (fun _ => rfl) (fun _ => rfl)
      (fun _ => (List.append_nil _).symm) fun _ _ => by simp
  · exact still fun _ => rfl

theorem configure {d : Dialect α} (f : DatabaseSettings → DatabaseSettings) :
    Conforming d P active
      (Action.change fun w : World σ τ => { w with settings := f w.settings }) :=
  change none (fun _ => rfl) (fun _ => rfl) (fun _ => rfl) (fun _ => (List.append_nil _).symm)
    fun _ _ => by simp

/-- Whether a connection is checked out does not count. -/
theorem setHeld {d : Dialect α} (t : Transaction) (held : Bool) :
    Conforming d P active
      (Action.change fun w : World σ τ => w.modifyTransaction t fun s => { s with held }) :=
  modify t (fun s => { s with held }) (fun _ => rfl) fun _ => rfl

theorem holding (hE : db.engine.Pooled P) (here : Surroundings) (depth : Nat)
    {meanwhile : Action σ τ ρ} (h : Conforming db.dialect P active meanwhile) :
    Conforming db.dialect P active (Script.holding db here depth meanwhile) := by
  rw [Script.holding]
  rcases here.contexts[depth]? with _ | ⟨_ | t, flag⟩
  · exact h
  · exact useConnection hE _ fun _ => h
  · exact (setHeld t true).bind fun _ => h.outcome.bind fun r =>
      (setHeld t false).bind fun _ => still fun _ => rfl

variable (hE : db.engine.Pooled P) (hd : db.dialect.CommitApart) (htotal : db.engine.CountsAlways)

include hE hd htotal

theorem run (scope : Option Scope) (access : Access) (q : Query α)
    {work : ConnectionId → String → List Cell → σ → Except DriverError ρ × σ}
    (hwork : ∀ c sql cells s, P.sound s → P.Holds s (work c sql cells s).2) :
    Conforming db.dialect P active (db.run scope access q work : Action σ τ ρ) := by
  refine (still fun _ => rfl).bind fun settings => (still fun _ => rfl).bind fun cells => ?_
  exact withConnection hE hd htotal scope _ access fun _ c => onStore fun s hs => hwork c _ _ s hs

theorem updateBatch (scope : Option Scope) (sql : String)
    (argumentLists : List (List (Argument α))) :
    Conforming db.dialect P active
      (db.updateBatch scope sql argumentLists : Action σ τ (List Nat)) := by
  refine (still fun _ => rfl).bind fun settings => (still fun _ => rfl).bind fun batches => ?_
  exact withConnection hE hd htotal scope _ .write fun _ c => updateEach hE c _

theorem findTable (scope : Option Scope) (q : Query α) :
    Conforming db.dialect P active (db.findTable scope q : Action σ τ ResultTable) :=
  (run hE hd htotal scope .read q fun c sql cells _ hs => hE.select c sql cells hs).bind
    fun _ => still fun _ => rfl

theorem answer (scope : Option Scope) (operation : Operation α) :
    Conforming db.dialect P active (Script.answer db scope operation : Action σ τ Answer) := by
  rcases operation with q | ⟨sql, argumentLists⟩ | q
  · refine (run hE hd htotal scope .write q fun c sql cells s hs => ?_).bind fun x =>
      still fun _ => rfl
    exact hE.update c sql cells hs
  · exact (updateBatch hE hd htotal scope sql argumentLists).bind fun rows => still fun _ => rfl
  · exact (findTable hE hd htotal scope q).bind fun table => still fun _ => rfl

theorem transaction (scope : Option Scope) (settings : TransactionSettings)
    {work : Manager.ScopedWork σ τ ρ}
    (hwork : ∀ inner ctx n,
      Conforming db.dialect P (Scope.active? (some inner)) (work inner ctx n)) :
    Conforming db.dialect P (Scope.active? scope) (db.transaction scope settings work) :=
  (still fun _ => rfl).bind fun _ => withTransaction hE hd htotal scope _ hwork

/-! ## Scripts -/

/-- A script conforms to the transaction that is active where it runs. -/
theorem script (script : Script α τ ρ) (hlocal : script.Local) (here : Surroundings) :
    Conforming db.dialect P (Scope.active? here.scope) (script.run db here) := by
  induction script generalizing here with
  | finish result => exact still fun _ => rfl
  | note entry next ih => exact (record fun _ _ => by simp).bind fun _ => ih hlocal here
  | operate operation next ih =>
    exact (answer hE hd htotal here.scope operation).outcome.bind fun r => ih r (hlocal r) here
  | bypass depth operation next ih =>
    exact (answerPast hE here depth operation).outcome.bind fun r => ih r (hlocal r) here
  | setRollbackOnly depth next ih => exact (mark here depth).bind fun _ => ih hlocal here
  | observe next ih => exact (still fun _ => rfl).bind fun seen => ih seen (hlocal seen) here
  | configure f next ih =>
    have hchange : Conforming db.dialect P (Scope.active? here.scope)
        (Action.change fun w : World σ τ => { w with settings := f w.settings }) := configure f
    exact hchange.bind fun _ => ih hlocal here
  | scope settings work next ihWork ih =>
    have hscope : Conforming db.dialect P (Scope.active? here.scope)
        (db.transaction here.scope settings (Script.scopeWork work db here.contexts)) :=
      transaction hE hd htotal here.scope settings fun inner ctx n =>
        (record fun _ _ => by simp).bind fun _ =>
          ihWork n (hlocal.1 n) ⟨some inner, ctx :: here.contexts⟩
    exact hscope.outcome.bind fun r => ih r (hlocal.2 r) here
  | hold depth meanwhile next ihMeanwhile ih =>
    exact (holding hE here depth (ihMeanwhile hlocal.1 here)).outcome.bind fun r =>
      ih r (hlocal.2 r) here
  | elsewhere dialect work next => exact absurd hlocal fun h => h

/-- So does the work of a scope. -/
theorem scopeWork {work : Nat → Script α τ ρ} {n : Nat} (hlocal : (work n).Local)
    (contexts : List Context) (inner : Scope) (ctx : Context) :
    Conforming db.dialect P (Scope.active? (some inner))
      (Script.scopeWork work db contexts inner ctx n) :=
  (record fun _ _ => by simp).bind fun _ =>
    script hE hd htotal (work n) hlocal ⟨some inner, ctx :: contexts⟩

end Conforming

end RowMapping
