/-
Watching a transaction while a script runs.

Whatever a script does in the scope of a transaction, it leaves to the transaction what
was there before. All that is asked of the script is that it does not end the transaction
itself, past the manager, nor set savepoints there with names that are reserved. It may
fail, catch failures, open scopes, and use the database by other handles.
-/
import RowMapping.Proofs.Transaction.ScriptStatements
import RowMapping.Proofs.Transaction.TendedFrames
import RowMapping.Proofs.Transaction.WatchedAttempts

set_option autoImplicit false

namespace RowMapping

variable {σ δ τ α ρ κ : Type} {storage : σ → Storage δ} {schema : Schema δ} {W : Watch}

/-! ## Where scripts run -/

/-- The transaction and the flag of a scope are known: the transaction is the watched one
or has nothing to do with it, and the flag is among those that may be set. -/
def Scope.Known (m : Manager σ α) (W : Watch) (scope : Option Scope) : Prop :=
  ∀ t flag suspended, scope = some ⟨.transaction t flag, suspended⟩ →
    flag < W.flags ∧ Concerns m W t

/-- The flags that a script can reach are among those that may be set. -/
structure Surroundings.Known (m : Manager σ α) (W : Watch) (here : Surroundings) : Prop where
  contexts : ∀ ctx ∈ here.contexts, ctx.flag < W.flags
  scope : Scope.Known m W here.scope

/-- The scopes in which a script may run within a scope. -/
theorem Surroundings.Known.enter {m : Manager σ α} {contexts : List Context}
    (h : ∀ ctx ∈ contexts, ctx.flag < W.flags) {bound : FlagId} (hbound : W.flags ≤ bound)
    {inner : Scope} {ctx : Context} (hctx : ctx.flag < bound)
    (hinner : Scope.Known m { W with flags := bound } (some inner)) :
    Surroundings.Known m { W with flags := bound } ⟨some inner, ctx :: contexts⟩ := by
  refine ⟨fun other hother => ?_, hinner⟩
  rcases List.mem_cons.mp hother with rfl | hother
  · exact hctx
  · exact Nat.lt_of_lt_of_le (h other hother) hbound

/-- The work of an attempt, in all the scopes and contexts that it can be given. -/
def ScopedWorkAbides (m : Manager σ α) (storage : σ → Storage δ) (W : Watch)
    (work : Manager.ScopedWork σ τ ρ) (number : Nat) : Prop :=
  ∀ inner ctx bound, W.flags ≤ bound → ctx.flag < bound →
    Scope.Known m { W with flags := bound } (some inner) →
    Abiding m.engine storage { W with flags := bound } (work inner ctx number)

/-- In a transaction that is known, the work is given a flag of its own. -/
theorem ScopedWorkAbides.within {m : Manager σ α} {work : Manager.ScopedWork σ τ ρ}
    {number : Nat} (hwork : ScopedWorkAbides m storage W work number) {u : Transaction}
    (hu : Concerns m W u) (suspended : List Transaction) :
    WorkAbides m.engine storage W fun flag =>
      work ⟨.transaction u flag, suspended⟩ ⟨some u, flag⟩ number := by
  intro flag bound hflag hbound
  refine hwork _ _ bound hbound hflag ?_
  rintro t f ts ⟨⟩
  exact ⟨hflag, hu⟩

namespace Abiding

open RowMapping.Action

/-! ## Scopes -/

section Scopes

variable {m : Manager σ α} {work : Manager.ScopedWork σ τ ρ}

theorem tryOnce (hE : m.engine.Unreliable schema storage) {opening : Opening}
    (hopening : ∀ t, opening = .savepoint t → Concerns m W t) (suspended : List Transaction)
    {number : Nat} (hwork : ScopedWorkAbides m storage W work number) :
    Abiding m.engine storage W (m.tryOnce opening suspended work number) := by
  rcases opening with isolation | u
  · refine tryOnce_own hE fun u hu => hwork.within (fun t ht => ?_) suspended
    exact .inr (hu t ht)
  · have hu := hopening u rfl
    exact tryOnce_savepoint hE hu (hwork.within hu suspended)

theorem runWithout (suspended : List Transaction) (hwork : ScopedWorkAbides m storage W work 1) :
    Abiding m.engine storage W (Manager.runWithout suspended work) := by
  intro w hw
  have hin : WorkAbides m.engine storage W fun flag =>
      work ⟨.nonTransactional, suspended⟩ ⟨none, flag⟩ 1 := by
    intro flag bound hflag hbound
    refine hwork _ _ bound hbound hflag ?_
    rintro t f ts ⟨⟩
  rw [Manager.runWithout, perform_newFlag_bind]
  exact hin.run hw

theorem withTransaction (hE : m.engine.Unreliable schema storage) {scope : Option Scope}
    (hscope : Scope.Known m W scope) (settings : TransactionSettings)
    (hwork : ∀ number, ScopedWorkAbides m storage W work number) :
    Abiding m.engine storage W (m.withTransaction scope settings work) := by
  have hcomposable := composable (τ := τ) m.engine storage W
  rw [Manager.withTransaction_eq]
  rcases hentry : Scope.entry scope settings with e | ⟨t, flag, suspended⟩ | suspended |
    ⟨opening, suspended⟩
  · exact still fun _ => rfl
  · -- work that joins is given the flag of the scope around it
    have hactive := Scope.of_join hentry
    obtain ⟨hflag, ht⟩ := hscope t flag suspended hactive
    exact hwork 1 _ _ W.flags (Nat.le_refl _) hflag (hactive ▸ hscope)
  · exact runWithout suspended (hwork 1)
  · refine (hcomposable.permit (fun c => totalChanges hE c) suspended opening).bind fun _ =>
      hcomposable.retrying (fun number => ?_) _ 1
    refine tryOnce hE (fun t ht => ?_) suspended (hwork number)
    subst ht
    obtain ⟨flag, hactive⟩ := Scope.of_savepoint hentry
    exact (hscope t flag suspended hactive).2

end Scopes

/-! ## Operations -/

section Operations

variable {db : Database σ α} (hE : db.engine.Unreliable schema storage)

include hE

theorem withConnection (scope : Option Scope) (implicit : Option Isolation) (access : Access)
    {operation : ConnectionId → Action σ τ ρ}
    (hop : ∀ c, Abiding db.engine storage W (operation c)) :
    Abiding db.engine storage W (db.withConnection scope implicit access operation) := by
  have hcomposable := composable (τ := τ) db.engine storage W
  have haccess : ∀ suspended, Abiding db.engine storage W
      (db.ensureAccess access suspended : Action σ τ Unit) :=
    hcomposable.ensureAccess (fun c => totalChanges hE c) access
  rcases scope with _ | ⟨⟨t, flag⟩ | _, suspended⟩
  · rcases implicit with _ | isolation
    · exact still fun _ => rfl
    · exact runImplicit hE isolation hop
  · have hmark : Abiding db.engine storage W (Manager.markWritten access t : Action σ τ Unit) :=
      hcomposable.markWritten
        (note t (fun s => { s with written := true }) fun _ => ⟨rfl, rfl⟩) access
    exact (haccess suspended).bind fun _ => hmark.bind fun _ => hop t.connection
  · exact (haccess suspended).bind fun _ => runAlone hE hop

theorem run (scope : Option Scope) (access : Access) (q : Query α)
    {work : ConnectionId → String → List Cell → σ → Except DriverError ρ × σ}
    (hwork : ∀ c sql cells convert,
      Abiding db.engine storage W (Action.onStore (work c sql cells) convert : Action σ τ ρ)) :
    Abiding db.engine storage W (db.run scope access q work : Action σ τ ρ) := by
  refine (still fun _ => rfl).bind fun settings => (still fun _ => rfl).bind fun cells => ?_
  exact withConnection hE scope _ access fun c => hwork c _ _ _

theorem answer (scope : Option Scope) (operation : Operation α) :
    Abiding db.engine storage W (Script.answer db scope operation : Action σ τ Answer) := by
  rcases operation with q | ⟨sql, argumentLists⟩ | q
  · exact (run hE scope .write q (update hE)).bind fun _ => still fun _ => rfl
  · have hbatch : Abiding db.engine storage W
        (db.updateBatch scope sql argumentLists : Action σ τ (List Nat)) := by
      refine (still fun _ => rfl).bind fun settings => (still fun _ => rfl).bind fun batches => ?_
      exact withConnection hE scope _ .write fun c =>
        (composable db.engine storage W).updateEach (update hE c) _
    exact hbatch.bind fun _ => still fun _ => rfl
  · have hfind : Abiding db.engine storage W
        (db.findTable scope q : Action σ τ ResultTable) :=
      (run hE scope .read q (select hE)).bind fun _ => still fun _ => rfl
    exact hfind.bind fun _ => still fun _ => rfl

/-! ## Past the database -/

theorem answerPast (here : Surroundings) (depth : Nat) {operation : ConnectionOperation}
    (hends : W.unended → operation.Executes Statement.EndsNothing)
    (hnames : ∀ name, W.reserved name → operation.Executes (· ≠ .savepoint name)) :
    Abiding db.engine storage W
      (Script.answerPast db here depth operation : Action σ τ Answer) := by
  have hop : ∀ c, Abiding db.engine storage W
      (Script.answerOn db c operation : Action σ τ Answer) := by
    intro c
    rcases operation with ⟨sql, cells⟩ | statement
    · exact (update hE c sql cells _).bind fun _ => still fun _ => rfl
    · exact (executePast hE c hends hnames _).bind fun _ => still fun _ => rfl
  rw [Script.answerPast]
  split
  · exact useConnection hE _ hop
  · exact still fun _ => rfl

theorem holding (here : Surroundings) (depth : Nat) {meanwhile : Action σ τ ρ}
    (h : Abiding db.engine storage W meanwhile) :
    Abiding db.engine storage W (Script.holding db here depth meanwhile) := by
  rw [Script.holding]
  rcases here.contexts[depth]? with _ | ⟨_ | t, flag⟩
  · exact h
  · exact useConnection hE _ fun _ => h
  · have hheld : ∀ held, Abiding db.engine storage W
        (Action.change fun w : World σ τ => w.modifyTransaction t fun s => { s with held }) :=
      fun held => note t (fun s => { s with held }) fun _ => ⟨rfl, rfl⟩
    exact (hheld true).bind fun _ => h.outcome.bind fun r =>
      (hheld false).bind fun _ => still fun _ => rfl

end Operations

theorem mark {E : Engine σ} {here : Surroundings} (h : ∀ ctx ∈ here.contexts, ctx.flag < W.flags)
    (depth : Nat) : Abiding E storage W (Script.mark here depth : Action σ τ Unit) := by
  rw [Script.mark]
  split
  · rename_i ctx hctx
    exact setFlag (h ctx (List.mem_of_getElem? hctx))
  · exact still fun _ => rfl

theorem withOwnSettings {E : Engine σ} {a : Action σ τ ρ} (h : Abiding E storage W a) :
    Abiding E storage W (Script.withOwnSettings a) :=
  (still fun _ => rfl).bind fun settings => h.outcome.bind fun _ =>
    (changeSettings fun _ => settings).bind fun _ => still fun _ => rfl

/-! ## Scripts -/

/-- **Watching.** While a script runs, everything abides that is watched. -/
theorem script {db : Database σ α} (hE : db.engine.Unreliable schema storage)
    {script : Script α τ ρ} (hends : W.unended → script.Executes Statement.EndsNothing)
    (hnames : ∀ name, W.reserved name → script.Executes (· ≠ .savepoint name))
    {here : Surroundings} (hhere : here.Known db.toManager W) :
    Abiding db.engine storage W (script.run db here) := by
  -- on the script, for any watch, as scopes hand out flags, and for any handle
  induction script generalizing db W here with
  | finish result => exact still fun _ => rfl
  | note entry next ih =>
    exact (record fun _ _ => by simp).bind fun _ => ih hE hends hnames hhere
  | operate operation next ih =>
    exact (answer hE here.scope operation).outcome.bind fun r =>
      ih r hE (fun hu => hends hu r) (fun name hn => hnames name hn r) hhere
  | bypass depth operation next ih =>
    have hpast := answerPast (τ := τ) hE here depth
      (fun hu => (hends hu).1) fun name hn => (hnames name hn).1
    exact hpast.outcome.bind fun r =>
      ih r hE (fun hu => (hends hu).2 r) (fun name hn => (hnames name hn).2 r) hhere
  | setRollbackOnly depth next ih =>
    exact (mark hhere.contexts depth).bind fun _ => ih hE hends hnames hhere
  | observe next ih =>
    exact (still fun _ => rfl).bind fun seen =>
      ih seen hE (fun hu => hends hu seen) (fun name hn => hnames name hn seen) hhere
  | configure f next ih =>
    exact (changeSettings fun w => f w.settings).bind fun _ => ih hE hends hnames hhere
  | scope settings work next ihWork ih =>
    have hwork : ∀ number, ScopedWorkAbides db.toManager storage W
        (Script.scopeWork work db here.contexts : Manager.ScopedWork σ τ ρ) number := by
      intro number inner ctx bound hbound hctx hinner
      refine (record fun _ _ => by simp).bind fun _ => ?_
      exact ihWork (W := { W with flags := bound }) number hE (fun hu => (hends hu).1 number)
        (fun name hn => (hnames name hn).1 number) (.enter hhere.contexts hbound hctx hinner)
    have hscope : Abiding db.engine storage W
        (db.transaction here.scope settings (Script.scopeWork work db here.contexts)) :=
      (still fun _ => rfl).bind fun _ => withTransaction hE hhere.scope _ hwork
    exact hscope.outcome.bind fun r =>
      ih r hE (fun hu => (hends hu).2 r) (fun name hn => (hnames name hn).2 r) hhere
  | hold depth meanwhile next ihMeanwhile ih =>
    have hmeanwhile := ihMeanwhile hE (fun hu => (hends hu).1)
      (fun name hn => (hnames name hn).1) hhere
    exact (holding hE here depth hmeanwhile).outcome.bind fun r =>
      ih r hE (fun hu => (hends hu).2 r) (fun name hn => (hnames name hn).2 r) hhere
  | elsewhere dialect work next ihWork ih =>
    -- no scope of this handle is known to the other one
    have hthere : Surroundings.Known (db.withDialect dialect).toManager W
        { here with scope := none } := ⟨hhere.contexts, fun _ _ _ h => by cases h⟩
    have hengine : (db.withDialect dialect).engine.Unreliable schema storage := hE
    have helsewhere := ihWork hengine (fun hu => (hends hu).1)
      (fun name hn => (hnames name hn).1) hthere
    exact (withOwnSettings helsewhere).outcome.bind fun r =>
      ih r hE (fun hu => (hends hu).2 r) (fun name hn => (hnames name hn).2 r) hhere

end Abiding

/-- So it does while a scope works, at each of its attempts. -/
theorem ScopedWorkAbides.scripts {db : Database σ α} (hE : db.engine.Unreliable schema storage)
    {work : Nat → Script α τ ρ} {number : Nat}
    (hends : W.unended → (work number).Executes Statement.EndsNothing)
    (hnames : ∀ name, W.reserved name → (work number).Executes (· ≠ .savepoint name))
    {contexts : List Context} (hcontexts : ∀ ctx ∈ contexts, ctx.flag < W.flags) :
    ScopedWorkAbides db.toManager storage W
      (Script.scopeWork work db contexts : Manager.ScopedWork σ τ ρ) number := by
  intro inner ctx bound hbound hctx hinner
  refine (Abiding.record fun _ _ => by simp).bind fun _ => ?_
  exact Abiding.script (W := { W with flags := bound }) hE hends hnames
    (.enter hcontexts hbound hctx hinner)

end RowMapping
