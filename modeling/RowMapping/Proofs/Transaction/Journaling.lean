/-
Scripts on engines that do the same.

Scripts reach the state of the engine by its operations only. If the states of one engine
can be seen in those of another one, and its operations do there what they do, then every
script comes to the same on both engines. An engine that is given a journal is an instance:
what is proved of what a journal says, is said of runs of the engine that has none.
-/
import RowMapping.Proofs.Storage.Journal
import RowMapping.Proofs.Transaction.Attempts

set_option autoImplicit false

namespace RowMapping

variable {σ σ' δ τ α ρ κ : Type} {view : σ' → σ}

/-! ## Engines and actions -/

/-- An engine does what another one does, whose states can be seen in its own. -/
structure Engine.Mirrors (E' : Engine σ') (E : Engine σ) (view : σ' → σ) : Prop where
  acquire : ∀ s, E.acquire (view s) = ((E'.acquire s).1, view (E'.acquire s).2)
  execute : ∀ c statement s, E.execute c statement (view s)
    = ((E'.execute c statement s).1, view (E'.execute c statement s).2)
  update : ∀ c sql cells s, E.update c sql cells (view s)
    = ((E'.update c sql cells s).1, view (E'.update c sql cells s).2)
  select : ∀ c sql cells s, E.select c sql cells (view s)
    = ((E'.select c sql cells s).1, view (E'.select c sql cells s).2)
  totalChanges : ∀ c s, E.totalChanges c (view s)
    = ((E'.totalChanges c s).1, view (E'.totalChanges c s).2)
  release : ∀ c close s, E.release c close (view s) = view (E'.release c close s)

theorem Engine.Mirrors.refl (E : Engine σ) : E.Mirrors E id where
  acquire _ := rfl
  execute _ _ _ := rfl
  update _ _ _ _ := rfl
  select _ _ _ _ := rfl
  totalChanges _ _ := rfl
  release _ _ _ := rfl

theorem Engine.Mirrors.withJournal (E : Engine σ) (storage : σ → Storage δ) :
    (E.withJournal storage).Mirrors E Prod.fst where
  acquire _ := rfl
  execute _ _ _ := rfl
  update _ _ _ _ := rfl
  select _ _ _ _ := rfl
  totalChanges _ _ := rfl
  release _ _ _ := rfl

/-- The same manager on another engine. -/
def Manager.on (m : Manager σ α) (E' : Engine σ') : Manager σ' α := ⟨E', m.dialect⟩

/-- The same database on another engine. -/
def Database.on (db : Database σ α) (E' : Engine σ') : Database σ' α :=
  { db.toManager.on E' with registry := db.registry }

theorem Database.on_engine (db : Database σ α) : db.on db.engine = db := rfl

/-- The world as it is seen on the other engine. -/
def World.over (view : σ' → σ) (w : World σ' τ) : World σ τ :=
  { w with store := view w.store }

/-- Two actions come to the same, as far as can be seen. -/
def Alike (view : σ' → σ) (a : Action σ' τ ρ) (b : Action σ τ ρ) : Prop :=
  ∀ w, b.perform (w.over view) = ((a.perform w).1, (a.perform w).2.over view)

namespace Alike

open RowMapping.Action RowMapping.Manager

/-! ## Sequences of actions -/

theorem conclude (result : Except Error ρ) :
    Alike (τ := τ) view (Action.conclude result) (Action.conclude result) := fun _ => rfl

theorem pure (x : ρ) : Alike (τ := τ) view (pure x) (pure x) := fun _ => rfl

theorem throw (e : Error) : Alike (τ := τ) (ρ := ρ) view (throw e) (throw e) := fun _ => rfl

theorem bind {a : Action σ' τ ρ} {b : Action σ τ ρ} {f : ρ → Action σ' τ κ} {g : ρ → Action σ τ κ}
    (hab : Alike view a b) (hfg : ∀ x, Alike view (f x) (g x)) :
    Alike view (a >>= f) (b >>= g) := by
  intro w
  rw [perform_bind, perform_bind, hab w]
  rcases a.perform w with ⟨e | x, w₁⟩
  · rfl
  · exact hfg x w₁

theorem outcome {a : Action σ' τ ρ} {b : Action σ τ ρ} (hab : Alike view a b) :
    Alike view (Action.outcome a) (Action.outcome b) := by
  intro w
  rw [perform_outcome, perform_outcome, hab w]

theorem change {f : World σ' τ → World σ' τ} {g : World σ τ → World σ τ}
    (h : ∀ w, g (w.over view) = (f w).over view) :
    Alike view (Action.change f) (Action.change g) := by
  intro w
  rw [perform_change, perform_change, h w]

theorem look {f : World σ' τ → ρ} {g : World σ τ → ρ} (h : ∀ w, g (w.over view) = f w) :
    Alike view (Action.look f) (Action.look g) := by
  intro w
  rw [perform_look, perform_look, h w]

theorem record (event : Event τ) :
    Alike view (Action.record event) (Action.record event) := fun _ => rfl

theorem newFlag : Alike (τ := τ) view Action.newFlag Action.newFlag := fun _ => rfl

theorem onStore {ε : Type} {f : σ' → Except ε ρ × σ'} {g : σ → Except ε ρ × σ}
    (h : ∀ s, g (view s) = ((f s).1, view (f s).2)) (convert : ε → Error) :
    Alike (τ := τ) view (Action.onStore f convert) (Action.onStore g convert) := by
  intro w
  rw [perform_onStore, perform_onStore]
  show ((g (view w.store)).1.mapError convert, { w.over view with store := (g (view w.store)).2 })
    = _
  rw [h w.store]
  rfl

theorem modify (t : Transaction) (f : TransactionState → TransactionState) :
    Alike (τ := τ) view (Action.change (World.modifyTransaction t f))
      (Action.change (World.modifyTransaction t f)) := fun _ => rfl

theorem configure (f : DatabaseSettings → DatabaseSettings) :
    Alike (σ := σ) (τ := τ) view (Action.change fun w => { w with settings := f w.settings })
      (Action.change fun w => { w with settings := f w.settings }) := fun _ => rfl

theorem failAfter (e : Error) {undo' : Action σ' τ Unit} {undo : Action σ τ Unit}
    (h : Alike view undo' undo) :
    Alike (ρ := ρ) view (Manager.failAfter e undo') (Manager.failAfter e undo) := by
  refine h.outcome.bind fun r => ?_
  rcases r with e' | _
  · exact throw _
  · exact throw e

/-! ## The manager -/

section Managers

variable {m : Manager σ α} {E' : Engine σ'} (hE : E'.Mirrors m.engine view)

include hE

theorem execute (c : ConnectionId) (statement : Statement) :
    Alike (τ := τ) view ((m.on E').execute c statement) (m.execute c statement) :=
  (onStore (hE.execute c statement) _).outcome.bind fun result =>
    (record _).bind fun _ => conclude result

theorem executeAll (c : ConnectionId) (statements : List Statement) :
    Alike (τ := τ) view ((m.on E').executeAll c statements) (m.executeAll c statements) := by
  induction statements with
  | nil => exact pure ()
  | cons statement rest ih => exact (execute hE c statement).bind fun _ => ih

theorem totalChanges (c : ConnectionId) :
    Alike (τ := τ) view ((m.on E').totalChanges c) (m.totalChanges c) :=
  onStore (hE.totalChanges c) _

theorem acquire : Alike (τ := τ) view (m.on E').acquire m.acquire :=
  onStore hE.acquire _

theorem release (c : ConnectionId) (close : Bool) :
    Alike (τ := τ) view ((m.on E').release c close) (m.release c close) :=
  change fun w => by
    show { w.over view with store := m.engine.release c close (view w.store) } = _
    rw [hE.release]
    rfl

theorem begin (isolation : Isolation) :
    Alike (τ := τ) view ((m.on E').begin isolation) (m.begin isolation) := by
  refine (acquire hE).bind fun c => ?_
  refine ((executeAll hE c _).bind fun _ => totalChanges hE c).outcome.bind fun begun => ?_
  rcases begun with e | changes
  · exact (release hE c true).bind fun _ => throw e
  · exact fun _ => rfl

theorem finish (t : Transaction) (statement : Statement) :
    Alike (τ := τ) view ((m.on E').finish t statement) (m.finish t statement) := by
  have hcleanUp : Alike (τ := τ) view ((m.on E').cleanUp t) (m.cleanUp t) := by
    refine (executeAll hE t.connection _).outcome.bind fun r => ?_
    rcases r with e | _
    · exact modify t _
    · exact pure ()
  rw [finish_eq, finish_eq]
  refine (look fun _ => rfl).bind fun s => ?_
  rcases s.finished with _ | _
  · exact (execute hE t.connection statement).bind fun _ => (modify t _).bind fun _ => hcleanUp
  · exact throw _

theorem complete (t : Transaction) (result : Except Error ρ) (rollbackOnly : Bool) :
    Alike (τ := τ) view ((m.on E').complete t result rollbackOnly)
      (m.complete t result rollbackOnly) := by
  have hrollback : Alike (τ := τ) view ((m.on E').rollback t) (m.rollback t) := finish hE t _
  rcases result with e | x
  · exact failAfter e hrollback
  rcases rollbackOnly with _ | _
  · refine (finish hE t _).outcome.bind fun r => ?_
    rcases r with e | _
    · exact hrollback.outcome.bind fun _ => throw e
    · exact pure x
  · exact hrollback.bind fun _ => pure x

theorem settle (t : Transaction) (result : Except Error ρ) (rollbackOnly : Bool) :
    Alike (τ := τ) view ((m.on E').settle t result rollbackOnly)
      (m.settle t result rollbackOnly) := by
  refine (complete hE t result rollbackOnly).outcome.bind fun r => ?_
  refine ((look fun _ => rfl).bind fun s => release hE t.connection _).bind fun _ => ?_
  exact conclude r

theorem ensureNoWriter (suspended : List Transaction) :
    Alike (τ := τ) view ((m.on E').ensureNoWriter suspended) (m.ensureNoWriter suspended) := by
  induction suspended with
  | nil => exact pure ()
  | cons t rest ih =>
    have hwritten : Alike (τ := τ) view ((m.on E').hasWritten t) (m.hasWritten t) := by
      refine (look fun _ => rfl).bind fun s => ?_
      split
      · exact pure true
      · split
        · exact pure false
        · exact (totalChanges hE t.connection).bind fun _ => pure _
    refine hwritten.bind fun written => ?_
    rcases written with _ | _
    · exact ih
    · exact throw _

/-! ## Scopes -/

theorem openAttempt (opening : Opening) :
    Alike (τ := τ) view ((m.on E').openAttempt opening) (m.openAttempt opening) := by
  rcases opening with isolation | t
  · exact (begin hE isolation).bind fun t => newFlag.bind fun flag => pure _
  · refine ((modify t _).bind fun _ => (look fun _ => rfl).bind fun s => pure _).bind fun name => ?_
    exact (execute hE t.connection _).bind fun _ => newFlag.bind fun flag => pure _

theorem undo (t : Transaction) (name : String) :
    Alike (τ := τ) view ((m.on E').undo t name) (m.undo t name) :=
  (execute hE t.connection _).bind fun _ => execute hE t.connection _

theorem closeAttempt (o : Opened) (result : Except Error ρ) :
    Alike (τ := τ) view ((m.on E').closeAttempt o result) (m.closeAttempt o result) := by
  refine (look fun _ => rfl).bind fun marked => ?_
  rcases o with ⟨t, flag⟩ | ⟨t, name, flag⟩
  · exact settle hE t result marked
  rcases result with e | x
  · exact failAfter e (undo hE t name)
  rcases marked with _ | _
  · exact (execute hE t.connection _).bind fun _ => pure x
  · exact (undo hE t name).bind fun _ => pure x

theorem permit (suspended : List Transaction) (opening : Opening) :
    Alike (τ := τ) view ((m.on E').permit suspended opening) (m.permit suspended opening) := by
  rcases opening with isolation | t
  · show Alike view (if m.dialect.locksOnBegin isolation then _ else _)
      (if m.dialect.locksOnBegin isolation then _ else _)
    split
    · exact ensureNoWriter hE suspended
    · exact pure ()
  · exact pure ()

end Managers

theorem retrying {once' : Nat → Action σ' τ ρ} {once : Nat → Action σ τ ρ}
    (h : ∀ n, Alike view (once' n) (once n)) (retries number : Nat) :
    Alike view (Manager.retrying once' retries number) (Manager.retrying once retries number) := by
  induction retries generalizing number with
  | zero => exact h number
  | succ retries ih =>
    refine (h number).outcome.bind fun r => ?_
    rcases r with e | x
    · dsimp only
      split
      · exact ih (number + 1)
      · exact throw e
    · exact pure x

section Scopes

variable {m : Manager σ α} {E' : Engine σ'} (hE : E'.Mirrors m.engine view)

include hE

theorem withTransaction (scope : Option Scope) (settings : TransactionSettings)
    {work' : ScopedWork σ' τ ρ} {work : ScopedWork σ τ ρ}
    (hwork : ∀ inner ctx n, Alike view (work' inner ctx n) (work inner ctx n)) :
    Alike view ((m.on E').withTransaction scope settings work')
      (m.withTransaction scope settings work) := by
  -- what becomes of the scope does not depend on the engine
  rw [withTransaction_eq, withTransaction_eq]
  rcases Scope.entry scope settings with e | ⟨t, flag, suspended⟩ | suspended |
    ⟨opening, suspended⟩
  · exact throw e
  · exact hwork _ _ 1
  · exact newFlag.bind fun flag => hwork _ _ 1
  · refine (permit hE suspended opening).bind fun _ => retrying (fun n => ?_) _ _
    exact (openAttempt hE opening).bind fun o => (hwork _ _ n).outcome.bind fun result =>
      closeAttempt hE o result

/-! ## Operations -/

variable {operation' : ConnectionId → Action σ' τ ρ} {operation : ConnectionId → Action σ τ ρ}

theorem runImplicit (hop : ∀ c, Alike view (operation' c) (operation c)) (isolation : Isolation) :
    Alike view ((m.on E').runImplicit isolation operation') (m.runImplicit isolation operation) :=
  (begin hE isolation).bind fun t => (hop t.connection).outcome.bind fun result =>
    settle hE t result false

theorem runAlone (hop : ∀ c, Alike view (operation' c) (operation c)) :
    Alike view ((m.on E').runAlone operation') (m.runAlone operation) :=
  (acquire hE).bind fun c => (hop c).outcome.bind fun result => (release hE c false).bind fun _ =>
    conclude result

theorem withConnection (hop : ∀ c, Alike view (operation' c) (operation c))
    (current : Option Scope) (implicit : Option Isolation) (access : Access) :
    Alike view ((m.on E').withConnection current implicit access operation')
      (m.withConnection current implicit access operation) := by
  have haccess : ∀ suspended, Alike (τ := τ) view ((m.on E').ensureAccess access suspended)
      (m.ensureAccess access suspended) := by
    intro suspended
    rcases access with _ | _
    · exact pure ()
    · exact ensureNoWriter hE suspended
  have hmark : ∀ t, Alike (τ := τ) view (Manager.markWritten access t)
      (Manager.markWritten access t) := by
    intro t
    rcases access with _ | _
    · exact pure ()
    · exact modify t _
  rcases current with _ | ⟨⟨t, flag⟩ | _, suspended⟩
  · rcases implicit with _ | isolation
    · exact throw _
    · exact runImplicit hE hop isolation
  · exact (haccess suspended).bind fun _ => (hmark t).bind fun _ => hop t.connection
  · exact (haccess suspended).bind fun _ => runAlone hE hop

theorem useConnection (hop : ∀ c, Alike view (operation' c) (operation c)) (ctx : Context) :
    Alike view ((m.on E').useConnection ctx operation') (m.useConnection ctx operation) := by
  obtain ⟨_ | t, flag⟩ := ctx
  · exact runAlone hE hop
  · exact hop t.connection

theorem holding {meanwhile' : Action σ' τ ρ} {meanwhile : Action σ τ ρ}
    (h : Alike view meanwhile' meanwhile) (ctx : Context) :
    Alike view ((m.on E').holding ctx meanwhile') (m.holding ctx meanwhile) := by
  obtain ⟨_ | t, flag⟩ := ctx
  · exact useConnection hE (fun _ => h) ⟨none, flag⟩
  · exact (modify t _).bind fun _ => h.outcome.bind fun result => (modify t _).bind fun _ =>
      conclude result

end Scopes

/-! ## Databases and scripts -/

section Databases

variable {db : Database σ α} {E' : Engine σ'} (hE : E'.Mirrors db.engine view)

include hE

theorem run (current : Option Scope) (access : Access) (q : Query α)
    {work' : ConnectionId → String → List Cell → σ' → Except DriverError ρ × σ'}
    {work : ConnectionId → String → List Cell → σ → Except DriverError ρ × σ}
    (hwork : ∀ c sql cells s, work c sql cells (view s)
      = ((work' c sql cells s).1, view (work' c sql cells s).2)) :
    Alike (τ := τ) view ((db.on E').run current access q work') (db.run current access q work) := by
  -- arguments are resolved by the database, before there is a connection
  refine (look fun _ => rfl).bind fun settings => (conclude _).bind fun cells => ?_
  exact withConnection hE (fun c => onStore (hwork c q.sql cells) _) current _ access

theorem updateEach (c : ConnectionId) (queries : List (Query α × List Cell)) :
    Alike (τ := τ) view ((db.on E').updateEach c queries) (db.updateEach c queries) := by
  induction queries with
  | nil => exact pure []
  | cons head rest ih =>
    obtain ⟨q, cells⟩ := head
    exact (onStore (hE.update c q.sql cells) _).bind fun _ => ih.bind fun _ => pure _

theorem answer (current : Option Scope) (operation : Operation α) :
    Alike (τ := τ) view (Script.answer (db.on E') current operation)
      (Script.answer db current operation) := by
  rcases operation with q | ⟨sql, argumentLists⟩ | q
  · exact (run hE current .write q hE.update).bind fun _ => pure _
  · refine Alike.bind ?_ fun _ => pure _
    refine (look fun _ => rfl).bind fun settings => (conclude _).bind fun batches => ?_
    exact withConnection hE (fun c => updateEach hE c _) current _ .write
  · exact ((run hE current .read q hE.select).bind fun stored => conclude _).bind fun _ => pure _

theorem answerPast (here : Surroundings) (depth : Nat) (operation : ConnectionOperation) :
    Alike (τ := τ) view (Script.answerPast (db.on E') here depth operation)
      (Script.answerPast db here depth operation) := by
  have hon : ∀ c, Alike (τ := τ) view (Script.answerOn (db.on E') c operation)
      (Script.answerOn db c operation) := by
    intro c
    rcases operation with ⟨sql, cells⟩ | statement
    · exact (onStore (hE.update c sql cells) _).bind fun _ => pure _
    · exact (onStore (hE.execute c statement) _).bind fun _ => pure _
  rw [Script.answerPast, Script.answerPast]
  rcases here.contexts[depth]? with _ | ctx
  · exact throw _
  · exact useConnection hE hon ctx

end Databases

theorem mark (here : Surroundings) (depth : Nat) :
    Alike (τ := τ) view (Script.mark here depth) (Script.mark here depth) := by
  rw [Script.mark, Script.mark]
  rcases here.contexts[depth]? with _ | ctx
  · exact pure ()
  · exact fun _ => rfl

/-- **Engines that do the same.** Every script does the same on them. -/
theorem script {db : Database σ α} {E' : Engine σ'} (hE : E'.Mirrors db.engine view)
    (script : Script α τ ρ) (here : Surroundings) :
    Alike view (script.run (db.on E') here) (script.run db here) := by
  -- on the script, for any handle of the database: other handles are on the same engine
  induction script generalizing db here with
  | finish result => exact conclude result
  | note entry next ih => exact (record _).bind fun _ => ih hE here
  | operate operation next ih =>
    exact (answer hE here.scope operation).outcome.bind fun r => ih r hE here
  | bypass depth operation next ih =>
    exact (answerPast hE here depth operation).outcome.bind fun r => ih r hE here
  | setRollbackOnly depth next ih => exact (mark here depth).bind fun _ => ih hE here
  | observe next ih => exact (look fun _ => rfl).bind fun seen => ih seen hE here
  | configure f next ih => exact (configure f).bind fun _ => ih hE here
  | scope settings work next ihWork ih =>
    have hscope : Alike view
        ((db.on E').transaction here.scope settings
          (Script.scopeWork work (db.on E') here.contexts))
        (db.transaction here.scope settings (Script.scopeWork work db here.contexts)) := by
      refine (look fun _ => rfl).bind fun defaults => withTransaction hE here.scope _ ?_
      intro inner ctx n
      exact (record _).bind fun _ => ihWork n hE _
    exact hscope.outcome.bind fun r => ih r hE here
  | hold depth meanwhile next ihMeanwhile ih =>
    have hheld : Alike view
        (Script.holding (db.on E') here depth (meanwhile.run (db.on E') here))
        (Script.holding db here depth (meanwhile.run db here)) := by
      rw [Script.holding, Script.holding]
      rcases here.contexts[depth]? with _ | ctx
      · exact ihMeanwhile hE here
      · exact holding hE (ihMeanwhile hE here) ctx
    exact hheld.outcome.bind fun r => ih r hE here
  | elsewhere dialect work next ihWork ih =>
    have hengine : E'.Mirrors (db.withDialect dialect).engine view := hE
    have hthere : Alike view
        (Script.withOwnSettings (work.run ((db.on E').withDialect dialect)
          { here with scope := none }))
        (Script.withOwnSettings (work.run (db.withDialect dialect)
          { here with scope := none })) :=
      (look fun _ => rfl).bind fun settings =>
        (ihWork hengine { here with scope := none }).outcome.bind fun result =>
          (configure fun _ => settings).bind fun _ => conclude result
    exact hthere.outcome.bind fun r => ih r hE here

end Alike

/-- **Journals.** A script that is run on an engine with a journal comes to what it comes to
without the journal. -/
theorem Script.run_withJournal (db : Database σ α) (storage : σ → Storage δ)
    (script : Script α τ ρ) (here : Surroundings) (w : World (σ × List (Deed δ)) τ) :
    (script.run db here).perform (w.over Prod.fst)
      = (((script.run (db.on (db.engine.withJournal storage)) here).perform w).1,
        ((script.run (db.on (db.engine.withJournal storage)) here).perform w).2.over Prod.fst) :=
  Alike.script (Engine.Mirrors.withJournal db.engine storage) script here w

end RowMapping
