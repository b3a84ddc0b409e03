/-
Operations of the database, for any counting engine.

An operation whose arguments resolve is run on the connection that its scope
prescribes. A write is refused first if a suspended transaction is found to have
written, and then nothing has changed. Otherwise its scope decides whose connection it
works on, and none of its own failures looks like a refusal.
-/
import RowMapping.Proofs.Transaction.Effects
import RowMapping.Proofs.Transaction.Suspension

set_option autoImplicit false

namespace RowMapping

variable {σ τ α ρ κ : Type} {P : Pool σ}

/-- Whether an operation may write. -/
def Operation.access : Operation α → Access
  | .update _ => .write
  | .updateBatch .. => .write
  | .find _ => .read

/-- Whether the arguments of an operation resolve. -/
def Database.resolves (db : Database σ α) (mode : EnumMode) : Operation α → Bool
  | .update q => (db.cells mode q.arguments).isOk
  | .updateBatch _ argumentLists => (argumentLists.mapM (db.cells mode)).isOk
  | .find q => (db.cells mode q.arguments).isOk

/-! ## Which errors an action raises -/

/-- Every failure of an action is of a certain kind. -/
def Raises (kind : Error → Prop) (a : Action σ τ ρ) : Prop :=
  ∀ (w : World σ τ) (e : Error), (a.perform w).1 = .error e → kind e

namespace Raises

open RowMapping.Action

variable {kind : Error → Prop} {a : Action σ τ ρ}

theorem conclude {r : Except Error ρ} (h : ∀ e, r = .error e → kind e) :
    Raises kind (Action.conclude r : Action σ τ ρ) := fun _ e he => h e he

theorem pure (x : ρ) : Raises kind (Pure.pure x : Action σ τ ρ) :=
  fun _ _ he => by cases he

theorem throw {e : Error} (h : kind e) : Raises kind (MonadExcept.throw e : Action σ τ ρ) :=
  fun _ _ he => Except.error.inj he ▸ h

theorem bind {f : ρ → Action σ τ κ} (ha : Raises kind a) (hf : ∀ x, Raises kind (f x)) :
    Raises kind (a >>= f) := by
  intro w e he
  rw [perform_bind] at he
  have h := ha w
  rcases hrun : a.perform w with ⟨e' | x, w'⟩
  · rw [hrun] at he h
    exact h e (congrArg Except.error (Except.error.inj he))
  · rw [hrun] at he
    exact hf x w' e he

/-- What comes after an outcome has to reckon with the failures that can occur. -/
theorem outcome_bind {f : Except Error ρ → Action σ τ κ} (ha : Raises kind a)
    (hf : ∀ r, (∀ e, r = .error e → kind e) → Raises kind (f r)) :
    Raises kind (outcome a >>= f) := by
  intro w e he
  rw [perform_outcome_bind] at he
  exact hf _ (ha w) _ e he

theorem change (f : World σ τ → World σ τ) : Raises kind (Action.change f) :=
  fun _ _ he => by cases he

theorem look_bind {f : World σ τ → ρ} {g : ρ → Action σ τ κ} (hg : ∀ x, Raises kind (g x)) :
    Raises kind (look f >>= g) := by
  intro w e he
  rw [perform_look_bind] at he
  exact hg _ w e he

theorem onStore {ε : Type} {f : σ → Except ε ρ × σ} {convert : ε → Error}
    (h : ∀ e, kind (convert e)) : Raises kind (Action.onStore f convert : Action σ τ ρ) := by
  intro w e he
  rw [perform_onStore] at he
  rcases hrun : (f w.store).1 with e' | x
  · rw [hrun] at he
    exact Except.error.inj he ▸ h e'
  · rw [hrun] at he
    cases he

end Raises

/-- A dialect whose errors of failures are of a certain kind. -/
def Dialect.Converts (d : Dialect α) (kind : Error → Prop) : Prop :=
  ∀ source query, kind (d.convertError source query)

/-- A dialect whose errors of failures wrap them, by a class that it sees in them. -/
def Dialect.Classifies (d : Dialect α) : Prop :=
  ∀ source query, ∃ c : FailureClass, d.convertError source query = c.error source query

theorem Dialect.classifies_sqlite : (Dialect.sqlite : Dialect α).Classifies := fun source _ =>
  ⟨classifyResult source, rfl⟩

theorem Dialect.classifies_generic : (Dialect.generic : Dialect α).Classifies := fun source _ =>
  ⟨classifyState source, rfl⟩

/-- What every failure of the driver can be shown as, in a kind of errors. -/
structure ErrorKind (d : Dialect α) (kind : Error → Prop) : Prop where
  driver : ∀ source, kind (.driver source)
  connection : ∀ source, kind (.connection source)
  converted : d.Converts kind
  rollbackFailed : ∀ e rollback : Error, kind (e.withRollback rollback)

namespace Manager

open RowMapping.Action

variable {m : Manager σ α} {kind : Error → Prop}

theorem raises_execute (hk : ErrorKind m.dialect kind) (c : ConnectionId)
    (statement : Statement) : Raises kind (τ := τ) (m.execute c statement) :=
  (Raises.onStore fun _ => hk.converted _ _).outcome_bind fun _ hr =>
    (Raises.change _).bind fun _ => .conclude hr

theorem raises_executeAll (hk : ErrorKind m.dialect kind) (c : ConnectionId)
    (statements : List Statement) : Raises kind (τ := τ) (m.executeAll c statements) := by
  induction statements with
  | nil => exact .pure ()
  | cons statement rest ih => exact (raises_execute hk c statement).bind fun _ => ih

theorem raises_begin (hk : ErrorKind m.dialect kind) (isolation : Isolation) :
    Raises kind (τ := τ) (m.begin isolation) := by
  refine (Raises.onStore hk.connection).bind fun c => ?_
  have hbegin : Raises kind (τ := τ) (do
      m.executeAll c (m.dialect.begin isolation)
      m.totalChanges c) :=
    (raises_executeAll hk c _).bind fun _ => .onStore fun _ => hk.converted _ _
  refine hbegin.outcome_bind fun r hr => ?_
  rcases r with e | changes
  · exact (Raises.change _).bind fun _ => .throw (hr e rfl)
  · exact fun _ _ he => by cases he

theorem raises_finish (hk : ErrorKind m.dialect kind) (hfinal : kind .alreadyFinalized)
    (t : Transaction) (statement : Statement) :
    Raises kind (τ := τ) (m.finish t statement) := by
  rw [finish_eq]
  refine Raises.look_bind fun s => ?_
  have hclean : Raises kind (τ := τ) (m.cleanUp t) := by
    refine (raises_executeAll hk _ _).outcome_bind fun r _ => ?_
    rcases r with _ | _
    · exact .change _
    · exact .pure ()
  have hend : Raises kind (τ := τ) (do
      m.execute t.connection statement
      change (·.modifyTransaction t fun s => { s with finished := true })
      m.cleanUp t) :=
    (raises_execute hk _ _).bind fun _ => (Raises.change _).bind fun _ => hclean
  rcases s.finished with _ | _
  · exact hend
  · exact .throw hfinal

theorem raises_complete (hk : ErrorKind m.dialect kind) (hfinal : kind .alreadyFinalized)
    (t : Transaction) {result : Except Error ρ} (hr : ∀ e, result = .error e → kind e)
    (rollbackOnly : Bool) : Raises kind (τ := τ) (m.complete t result rollbackOnly) := by
  have hrollback : Raises kind (τ := τ) (m.rollback t) := raises_finish hk hfinal t _
  rcases result with e | x
  · refine hrollback.outcome_bind fun r _ => ?_
    rcases r with e' | _
    · exact .throw (hk.rollbackFailed e e')
    · exact .throw (hr e rfl)
  · rcases rollbackOnly with _ | _
    · have hcommit : Raises kind (τ := τ) (m.commit t) := raises_finish hk hfinal t _
      refine hcommit.outcome_bind fun r hcommitted => ?_
      rcases r with e | _
      · exact hrollback.outcome_bind fun _ _ => .throw (hcommitted e rfl)
      · exact .pure x
    · exact hrollback.bind fun _ => .pure x

theorem raises_settle (hk : ErrorKind m.dialect kind) (hfinal : kind .alreadyFinalized)
    (t : Transaction) {result : Except Error ρ} (hr : ∀ e, result = .error e → kind e)
    (rollbackOnly : Bool) : Raises kind (τ := τ) (m.settle t result rollbackOnly) := by
  refine (raises_complete hk hfinal t hr rollbackOnly).outcome_bind fun r hr => ?_
  have hdismiss : Raises kind (τ := τ) (m.dismiss t) := Raises.look_bind fun _ => .change _
  exact hdismiss.bind fun _ => .conclude hr

theorem raises_leave (hk : ErrorKind m.dialect kind) (t : Transaction) (name : String)
    {result : Except Error ρ} (hr : ∀ e, result = .error e → kind e) (rollbackOnly : Bool) :
    Raises kind (τ := τ) (m.leave t name result rollbackOnly) := by
  have hundo : Raises kind (τ := τ) (m.undo t name) :=
    (raises_execute hk _ _).bind fun _ => raises_execute hk _ _
  rcases result with e | x
  · refine hundo.outcome_bind fun r _ => ?_
    rcases r with e' | _
    · exact .throw (hk.rollbackFailed e e')
    · exact .throw (hr e rfl)
  · rcases rollbackOnly with _ | _
    · exact (raises_execute hk _ _).bind fun _ => .pure x
    · exact hundo.bind fun _ => .pure x

theorem raises_ensureNoWriter (hk : ErrorKind m.dialect kind)
    (hstate : kind (.illegalTransactionState .suspendedWriter)) (ts : List Transaction) :
    Raises kind (τ := τ) (m.ensureNoWriter ts) := by
  induction ts with
  | nil => exact .pure ()
  | cons t rest ih =>
    have hwritten : Raises kind (τ := τ) (m.hasWritten t) := by
      refine Raises.look_bind fun s => ?_
      split
      · exact .pure true
      · split
        · exact .pure false
        · exact (Raises.onStore fun _ => hk.converted _ _).bind fun _ => .pure _
    refine hwritten.bind fun written => ?_
    rcases written with _ | _
    · exact ih
    · exact .throw hstate

theorem raises_openAttempt (hk : ErrorKind m.dialect kind) (opening : Opening) :
    Raises kind (τ := τ) (m.openAttempt opening) := by
  have hflag : ∀ f : FlagId → Opened, Raises kind (do
      let flag ← newFlag
      pure (f flag) : Action σ τ Opened) := by
    intro f w e he
    cases he
  rcases opening with isolation | t
  · exact (raises_begin hk isolation).bind fun t => hflag (.own t)
  · refine Raises.bind (fun _ _ he => by cases he) fun name => ?_
    exact (raises_execute hk _ _).bind fun _ => hflag (.savepoint t name)

theorem raises_tryOnce (hk : ErrorKind m.dialect kind) (hfinal : kind .alreadyFinalized)
    (opening : Opening) (suspended : List Transaction) {work : ScopedWork σ τ ρ}
    (hwork : ∀ scope ctx n, Raises kind (work scope ctx n)) (number : Nat) :
    Raises kind (m.tryOnce opening suspended work number) := by
  refine (raises_openAttempt hk opening).bind fun o => ?_
  refine (hwork _ _ number).outcome_bind fun r hr => Raises.look_bind fun marked => ?_
  rcases o with ⟨t, flag⟩ | ⟨t, name, flag⟩
  · exact raises_settle hk hfinal t hr marked
  · exact raises_leave hk t name hr marked

theorem raises_retrying {once : Nat → Action σ τ ρ} (honce : ∀ n, Raises kind (once n))
    (retries number : Nat) : Raises kind (retrying once retries number) := by
  induction retries generalizing number with
  | zero => exact honce number
  | succ retries ih =>
    refine (honce number).outcome_bind fun r hr => ?_
    rcases r with e | x
    · dsimp only
      split
      · exact ih (number + 1)
      · exact .throw (hr e rfl)
    · exact .pure x

theorem raises_runAlone (hk : ErrorKind m.dialect kind)
    {operation : ConnectionId → Action σ τ ρ} (hop : ∀ c, Raises kind (operation c)) :
    Raises kind (m.runAlone operation) :=
  (Raises.onStore hk.connection).bind fun c => (hop c).outcome_bind fun _ hr =>
    (Raises.change _).bind fun _ => .conclude hr

theorem raises_runImplicit (hk : ErrorKind m.dialect kind) (hfinal : kind .alreadyFinalized)
    (isolation : Isolation) {operation : ConnectionId → Action σ τ ρ}
    (hop : ∀ c, Raises kind (operation c)) : Raises kind (m.runImplicit isolation operation) :=
  (raises_begin hk isolation).bind fun t => (hop t.connection).outcome_bind fun _ hr =>
    raises_settle hk hfinal t hr false

end Manager

/-! ## Refusals -/

/-- A result that says that a transaction is in a state in which it must not be. -/
def Refused (r : Except Error ρ) : Prop := ∃ cause, r = .error (.illegalTransactionState cause)

def isRefusal : Except Error ρ → Bool
  | .error (.illegalTransactionState _) => true
  | _ => false

theorem isRefusal_iff (r : Except Error ρ) : isRefusal r = true ↔ Refused r := by
  constructor
  · intro h
    unfold isRefusal at h
    split at h
    · exact ⟨_, rfl⟩
    · cases h
  · rintro ⟨cause, rfl⟩
    rfl

instance (r : Except Error ρ) : Decidable (Refused r) := decidable_of_iff _ (isRefusal_iff r)

/-- The errors that are no refusals. -/
def Unrefused (e : Error) : Prop := ∀ cause, e ≠ .illegalTransactionState cause

theorem not_refused_of_raises {a : Action σ τ ρ} (h : Raises Unrefused a) (w : World σ τ) :
    ¬ Refused (a.perform w).1 := by
  rintro ⟨cause, hcause⟩
  exact h w _ hcause cause rfl

/-- An error that wraps a failure of the driver is no refusal. -/
theorem Dialect.Classifies.unrefused {d : Dialect α} (hd : d.Classifies) :
    d.Converts Unrefused := by
  intro source query cause
  obtain ⟨c, hc⟩ := hd source query
  rw [hc]
  cases c <;> simp [FailureClass.error]

theorem unrefused_errors {d : Dialect α} (hd : d.Converts Unrefused) : ErrorKind d Unrefused where
  driver _ _ := by simp
  connection _ _ := by simp
  converted := hd
  rollbackFailed _ _ _ := by simp [Error.withRollback]

namespace Manager

open RowMapping.Action

variable {m : Manager σ α}

/-- The mark of a write, or none. -/
def marked (access : Access) (t : Transaction) (w : World σ τ) : World σ τ :=
  match access with
  | .read => w
  | .write => w.modifyTransaction t fun s => { s with written := true }

theorem perform_markWritten (access : Access) (t : Transaction) (w : World σ τ) :
    (markWritten access t : Action σ τ Unit).perform w = (.ok (), marked access t w) := by
  rcases access with _ | _ <;> rfl

theorem counts_of_counting (hE : m.engine.Counting P) (c : ConnectionId) (s : σ) :
    m.Counts c s := ⟨P.count s c, hE.totalChanges_eq s c⟩

/-- Whether access is refused for the sake of the suspended transactions. -/
def refuses (m : Manager σ α) (access : Access) (suspended : List Transaction)
    (w : World σ τ) : Bool :=
  match access with
  | .read => false
  | .write => suspended.any (m.foundWriting w)

theorem perform_ensureAccess (hE : m.engine.Counting P) (access : Access)
    (suspended : List Transaction) (w : World σ τ) :
    (m.ensureAccess access suspended).perform w
      = (if m.refuses access suspended w then .error suspendedWriter else .ok (), w) := by
  rcases access with _ | _
  · rfl
  · exact perform_ensureNoWriter m w suspended fun t _ => counts_of_counting hE t.connection _

/-- A refused operation has changed nothing. -/
theorem perform_withConnection_refused (hE : m.engine.Counting P) {scope : Option Scope}
    {access : Access} {w : World σ τ} (h : m.refuses access (Scope.suspendedIn scope) w = true)
    (isolation : Option Isolation) (operation : ConnectionId → Action σ τ ρ) :
    (m.withConnection scope isolation access operation).perform w
      = (.error suspendedWriter, w) := by
  rcases scope with _ | ⟨⟨t, flag⟩ | _, suspended⟩
  · rcases access with _ | _
    · cases h
    · cases h
  all_goals
    have hrefused := perform_ensureAccess hE access suspended w
    rw [show m.refuses access suspended w = true from h] at hrefused
    exact perform_bind_error hrefused _

theorem perform_withConnection_active (hE : m.engine.Counting P) {t : Transaction}
    {flag : FlagId} {suspended : List Transaction} {access : Access} {w : World σ τ}
    (h : m.refuses access suspended w = false) (isolation : Option Isolation)
    (operation : ConnectionId → Action σ τ ρ) :
    (m.withConnection (some ⟨.transaction t flag, suspended⟩) isolation access operation).perform w
      = (operation t.connection).perform (marked access t w) := by
  have hadmitted := perform_ensureAccess hE access suspended w
  rw [h] at hadmitted
  exact (perform_bind_ok hadmitted _).trans (perform_bind_ok (perform_markWritten access t w) _)

/-- Outside of transactions an operation leaves everything alone. -/
theorem quiet_withConnection_inactive (hE : m.engine.Counting P) {scope : Option Scope}
    (hscope : Scope.active? scope = none) (isolation : Option Isolation) (access : Access)
    {operation : ConnectionId → Action σ τ ρ} (hop : OnlyWorks P operation) :
    Quiet P (m.withConnection scope isolation access operation) := by
  rcases scope with _ | ⟨⟨t, flag⟩ | _, suspended⟩
  · rcases isolation with _ | isolation
    · exact .still fun _ => rfl
    · exact quiet_runImplicit hE.toPooled isolation hop
  · cases hscope
  · have haccess : Quiet P (τ := τ) (m.ensureAccess access suspended) := by
      intro w hw
      rw [perform_ensureAccess hE]
      exact .refl hw
    exact haccess.bind fun _ => quiet_runAlone hE.toPooled hop

/-- Only the suspended transactions can be a reason to refuse. -/
theorem not_refused_withConnection (hE : m.engine.Counting P) {scope : Option Scope}
    {access : Access} {w : World σ τ} (h : m.refuses access (Scope.suspendedIn scope) w = false)
    (hd : m.dialect.Converts Unrefused) (isolation : Option Isolation)
    {operation : ConnectionId → Action σ τ ρ} (hop : ∀ c, Raises Unrefused (operation c)) :
    ¬ Refused ((m.withConnection scope isolation access operation).perform w).1 := by
  have hk := unrefused_errors hd
  rcases scope with _ | ⟨⟨t, flag⟩ | _, suspended⟩
  · rcases isolation with _ | isolation
    · rintro ⟨cause, hcause⟩
      cases hcause
    · exact not_refused_of_raises (raises_runImplicit hk (by simp [Unrefused]) isolation hop) w
  · have hadmitted : m.refuses access suspended w = false := h
    rw [perform_withConnection_active hE hadmitted]
    exact not_refused_of_raises (hop t.connection) _
  · have hadmitted := perform_ensureAccess hE access suspended w
    rw [show m.refuses access suspended w = false from h] at hadmitted
    rw [withConnection, perform_bind_ok hadmitted]
    exact not_refused_of_raises (raises_runAlone hk hop) w

end Manager

/-! ## Operations -/

/-- What an operation does on its connection, and how what this returns is read. -/
structure Serves (db : Database σ α) (P : Pool σ) (operation : Operation α)
    (work : ConnectionId → Action σ τ κ) (read : κ → Except Error Answer) : Prop where
  works : Manager.OnlyWorks P work
  quiet : operation.access = .read → ∀ c, Quiet P (work c)
  raises : db.dialect.Converts Unrefused → ∀ c, Raises Unrefused (work c)
  reads : operation.access = .write → ∀ x, ∃ answer, read x = .ok answer

/-- An operation whose arguments resolve is run on the connection of its scope. -/
def AnsweredBy (db : Database σ α) (P : Pool σ) (scope : Option Scope) (operation : Operation α)
    (w : World σ τ) (r : Except Error Answer) (w' : World σ τ) : Prop :=
  ∃ (κ : Type) (work : ConnectionId → Action σ τ κ) (read : κ → Except Error Answer),
    Serves db P operation work read ∧
    r = ((db.withConnection scope w.settings.implicitIsolation? operation.access work).perform
      w).1.bind read ∧
    w' = ((db.withConnection scope w.settings.implicitIsolation? operation.access work).perform w).2

namespace Database

open RowMapping.Action

variable {db : Database σ α}

theorem works_update (hE : db.engine.Pooled P) (c : ConnectionId) (sql : String)
    (cells : List Cell) (convert : DriverError → Error) (w : World σ τ) (hw : P.sound w.store) :
    Works P c w ((onStore (db.engine.update c sql cells) convert).perform w).2 := by
  have hstore := hE.update c sql cells hw
  have hspares : Spares P (· = c) w { w with store := (db.engine.update c sql cells w.store).2 } :=
    .of_store hstore fun i hi hne => hE.update_count sql cells hw hi hne
  exact { hspares with still := hstore.taken c, grown := hE.update_grown sql cells hw }

theorem works_updateEach (hE : db.engine.Pooled P) (queries : List (Query α × List Cell)) :
    Manager.OnlyWorks P (τ := τ) fun c => db.updateEach c queries := by
  induction queries with
  | nil => exact fun c w hw => .of_spares (.refl hw)
  | cons head rest ih =>
    intro c w hw
    obtain ⟨q, cells⟩ := head
    have hone := works_update hE c q.sql cells (fun e => db.dialect.convertError e q.display) w hw
    show Works P c w ((db.updateEach c ((q, cells) :: rest)).perform w).2
    rw [updateEach, perform_bind]
    rcases hrun : (onStore (db.engine.update c q.sql cells) _).perform w with ⟨e | x, w₁⟩
    · rw [hrun] at hone
      exact hone
    · rw [hrun] at hone
      have hrest := ih c w₁ hone.sound
      dsimp only
      rw [perform_bind_pure]
      exact hone.trans hrest

theorem raises_updateEach (hd : db.dialect.Converts Unrefused) (c : ConnectionId)
    (queries : List (Query α × List Cell)) :
    Raises Unrefused (τ := τ) (db.updateEach c queries) := by
  induction queries with
  | nil => exact .pure _
  | cons head rest ih =>
    exact (Raises.onStore fun _ => hd _ _).bind fun _ => ih.bind fun _ => .pure _

theorem quiet_select (hE : db.engine.Pooled P) (c : ConnectionId) (sql : String)
    (cells : List Cell) (convert : DriverError → Error) :
    Quiet P (τ := τ) (onStore (db.engine.select c sql cells) convert) := by
  intro w hw
  exact .of_store (hE.select c sql cells hw) fun i hi _ => hE.select_count c sql cells hw hi

theorem serves_update (hE : db.engine.Pooled P) (q : Query α) (cells : List Cell) :
    Serves (τ := τ) db P (.update q)
      (fun c => onStore (db.engine.update c q.sql cells) fun e =>
        db.dialect.convertError e q.display)
      (fun x => .ok (.updated x)) where
  works c w hw := works_update hE c q.sql cells _ w hw
  quiet h := by cases h
  raises hd _ := .onStore fun _ => hd _ _
  reads _ x := ⟨_, rfl⟩

theorem serves_batch (hE : db.engine.Pooled P) (sql : String)
    (argumentLists : List (List (Argument α))) (queries : List (Query α × List Cell)) :
    Serves (τ := τ) db P (.updateBatch sql argumentLists) (fun c => db.updateEach c queries)
      (fun rows => .ok (.batch rows)) where
  works := works_updateEach hE queries
  quiet h := by cases h
  raises hd c := raises_updateEach hd c queries
  reads _ x := ⟨_, rfl⟩

theorem serves_find (hE : db.engine.Pooled P) (q : Query α) (cells : List Cell) :
    Serves (τ := τ) db P (.find q)
      (fun c => onStore (db.engine.select c q.sql cells) fun e =>
        db.dialect.convertError e q.display)
      (fun stored => stored.read.map .found) where
  works c w hw := .of_spares (quiet_select hE c q.sql cells _ w hw)
  quiet _ c := quiet_select hE c q.sql cells _
  raises hd _ := .onStore fun _ => hd _ _
  reads h := by cases h

theorem perform_run {access : Access} (scope : Option Scope) (q : Query α)
    (work : ConnectionId → String → List Cell → σ → Except DriverError ρ × σ) (w : World σ τ) :
    (db.run scope access q work).perform w
      = match db.cells w.settings.enumMode q.arguments with
        | .error e => (.error e, w)
        | .ok cells => (db.withConnection scope w.settings.implicitIsolation? access fun c =>
            onStore (work c q.sql cells) fun e => db.dialect.convertError e q.display).perform w := by
  rw [Database.run, perform_look_bind, perform_bind, perform_conclude]
  rcases db.cells w.settings.enumMode q.arguments with e | cells <;> rfl

theorem perform_updateBatch (scope : Option Scope) (sql : String)
    (argumentLists : List (List (Argument α))) (w : World σ τ) :
    (db.updateBatch scope sql argumentLists).perform w
      = match argumentLists.mapM (db.cells w.settings.enumMode) with
        | .error e => (.error e, w)
        | .ok batches => (db.withConnection scope w.settings.implicitIsolation? .write fun c =>
            db.updateEach c ((argumentLists.map fun arguments => { sql, arguments }).zip
              batches)).perform w := by
  have hcells : argumentLists.mapM ((fun q : Query α => db.cells w.settings.enumMode q.arguments)
      ∘ fun arguments => { sql, arguments }) = argumentLists.mapM (db.cells w.settings.enumMode) :=
    rfl
  rw [Database.updateBatch, perform_look_bind, perform_bind, perform_conclude, List.mapM_map,
    hcells]
  rcases argumentLists.mapM (db.cells w.settings.enumMode) with e | cells <;> rfl

/-- Arguments that do not resolve fail at once. Otherwise the operation is run. -/
theorem perform_answer (hE : db.engine.Counting P) (scope : Option Scope)
    (operation : Operation α) (w : World σ τ) :
    if db.resolves w.settings.enumMode operation then
      AnsweredBy db P scope operation w ((Script.answer db scope operation).perform w).1
        ((Script.answer db scope operation).perform w).2
    else ((Script.answer db scope operation).perform w).2 = w := by
  rcases h : (Script.answer db scope operation).perform w with ⟨r, w'⟩
  have hmap : ∀ {κ : Type} (r : Except Error κ) (f : κ → Answer),
      r.map f = r.bind fun x => .ok (f x) := fun r f => by cases r <;> rfl
  -- all arguments are resolved before a connection is asked for
  rcases operation with q | ⟨sql, argumentLists⟩ | q
  · rw [Script.answer, perform_bind_pure, updateWithKey, perform_run, hmap] at h
    obtain ⟨rfl, rfl⟩ := Prod.mk.inj h
    rw [resolves]
    rcases db.cells w.settings.enumMode q.arguments with e | cells
    · rfl
    · exact ⟨UpdateResult, _, _, serves_update hE.toPooled q cells, rfl, rfl⟩
  · rw [Script.answer, perform_bind_pure, perform_updateBatch, hmap] at h
    obtain ⟨rfl, rfl⟩ := Prod.mk.inj h
    rw [resolves]
    rcases argumentLists.mapM (db.cells w.settings.enumMode) with e | batches
    · rfl
    · exact ⟨List Nat, _, _, serves_batch hE.toPooled sql argumentLists _, rfl, rfl⟩
  · rw [Script.answer, perform_bind_pure, findTable, perform_bind_conclude, perform_run, hmap] at h
    obtain ⟨rfl, rfl⟩ := Prod.mk.inj h
    rw [resolves]
    rcases db.cells w.settings.enumMode q.arguments with e | cells
    · rfl
    · have hread : ∀ r : Except Error StoredTable,
          (r.bind StoredTable.read).bind (fun x => .ok (Answer.found x))
            = r.bind fun stored => stored.read.map Answer.found := by
        rintro (e | stored)
        · rfl
        · exact (hmap stored.read .found).symm
      exact ⟨StoredTable, _, _, serves_find hE.toPooled q cells, hread _, rfl⟩

/-- A refused operation fails, and has changed nothing. -/
theorem perform_answer_refused (hE : db.engine.Counting P) {scope : Option Scope}
    {operation : Operation α} {w : World σ τ}
    (hresolves : db.resolves w.settings.enumMode operation = true)
    (h : db.refuses operation.access (Scope.suspendedIn scope) w = true) :
    (Script.answer db scope operation).perform w = (.error suspendedWriter, w) := by
  have hanswer := perform_answer hE scope operation w
  rw [if_pos hresolves] at hanswer
  obtain ⟨κ, work, read, -, hresult, hworld⟩ := hanswer
  rw [Manager.perform_withConnection_refused hE h] at hresult hworld
  exact Prod.ext hresult hworld

/-- Nothing else looks like a refusal. -/
theorem not_refused_answer (hE : db.engine.Counting P) (hd : db.dialect.Converts Unrefused)
    {scope : Option Scope} {operation : Operation α} {w : World σ τ}
    (hwrite : operation.access = .write)
    (hresolves : db.resolves w.settings.enumMode operation = true)
    (h : db.refuses operation.access (Scope.suspendedIn scope) w = false) :
    ¬ Refused ((Script.answer db scope operation).perform w).1 := by
  have hanswer := perform_answer hE scope operation w
  rw [if_pos hresolves] at hanswer
  obtain ⟨κ, work, read, hserves, hresult, -⟩ := hanswer
  have hnot := Manager.not_refused_withConnection hE h hd w.settings.implicitIsolation?
    (hserves.raises hd)
  rw [hresult]
  rintro ⟨cause, hcause⟩
  apply hnot
  -- a refusal could only come from reading the result, and that of a write is always read
  rcases hrun : ((db.withConnection scope _ operation.access work).perform w).1 with e | x
  · rw [hrun] at hcause
    exact ⟨cause, congrArg Except.error (Except.error.inj hcause)⟩
  · rw [hrun] at hcause
    obtain ⟨answer, hread⟩ := hserves.reads hwrite x
    exact absurd (hread.symm.trans hcause) (by simp)

/-- Outside of transactions an operation leaves everything alone. -/
theorem quiet_answer_inactive (hE : db.engine.Counting P) {scope : Option Scope}
    (hscope : Scope.active? scope = none) (operation : Operation α) :
    Quiet P (τ := τ) (Script.answer db scope operation) := by
  intro w hw
  have hanswer := perform_answer hE scope operation w
  split at hanswer
  · obtain ⟨κ, work, read, hserves, -, hworld⟩ := hanswer
    rw [hworld]
    exact Manager.quiet_withConnection_inactive hE hscope _ _ hserves.works w hw
  · rw [hanswer]
    exact .refl hw

/-- In a transaction an operation does nothing, or works on its connection, once it is
marked if it may write. -/
theorem works_answer_active (hE : db.engine.Counting P) {scope : Option Scope} {t : Transaction}
    (hscope : Scope.active? scope = some t) (operation : Operation α) {w : World σ τ}
    (hw : P.sound w.store) :
    ((db.resolves w.settings.enumMode operation = false ∨
        db.refuses operation.access (Scope.suspendedIn scope) w = true) ∧
      ((Script.answer db scope operation).perform w).2 = w) ∨
      (db.resolves w.settings.enumMode operation = true ∧
        db.refuses operation.access (Scope.suspendedIn scope) w = false ∧
        Works P t.connection (Manager.marked operation.access t w)
          ((Script.answer db scope operation).perform w).2 ∧
        (operation.access = .read →
          Spares P (fun _ => False) w ((Script.answer db scope operation).perform w).2)) := by
  have hanswer := perform_answer hE scope operation w
  rcases hresolves : db.resolves w.settings.enumMode operation with _ | _
  · rw [hresolves] at hanswer
    exact .inl ⟨.inl rfl, hanswer⟩
  rcases hrefuses : db.refuses operation.access (Scope.suspendedIn scope) w with _ | _
  · rw [if_pos hresolves] at hanswer
    obtain ⟨κ, work, read, hserves, -, hworld⟩ := hanswer
    -- only a scope of a transaction has an active one
    rcases scope with _ | ⟨⟨t', flag⟩ | _, suspended⟩
    · cases hscope
    · cases hscope
      have hadmitted : db.refuses operation.access suspended w = false := hrefuses
      rw [Manager.perform_withConnection_active hE hadmitted] at hworld
      refine .inr ⟨rfl, rfl, ?_, fun hread => ?_⟩
      · rw [hworld]
        have hmarked : P.sound (Manager.marked operation.access t w).store := by
          rcases operation.access with _ | _ <;> exact hw
        exact hserves.works t.connection _ hmarked
      · rw [hworld, hread]
        exact hserves.quiet hread t.connection w hw
    · cases hscope
  · exact .inl ⟨.inr rfl, congrArg Prod.snd (perform_answer_refused hE hresolves hrefuses)⟩

/-! ## Past the database -/

theorem works_answerOn (hE : db.engine.Pooled P) (operation : ConnectionOperation) :
    Manager.OnlyWorks P (τ := τ) fun c => Script.answerOn db c operation := by
  intro c w hw
  rcases operation with ⟨sql, cells⟩ | statement
  · show Works P c w ((Script.answerOn db c (.update sql cells)).perform w).2
    rw [Script.answerOn, perform_bind_pure]
    exact works_update hE c sql cells Error.driver w hw
  · show Works P c w ((Script.answerOn db c (.execute statement)).perform w).2
    rw [Script.answerOn, perform_bind_pure]
    exact .of_spares (.of_store (hE.execute c statement hw) fun i hi _ =>
      hE.execute_count c statement hw hi)

end Database

end RowMapping
