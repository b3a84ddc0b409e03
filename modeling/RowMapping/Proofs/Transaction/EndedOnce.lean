/-
No transaction is ended twice.

The manager refuses to end a transaction that is finished already, but it never comes to
that: whatever a scope does leaves its transaction unfinished, so that it is settled just
once, and where committing fails it can still be rolled back. A script therefore never
meets that error unless it raises it itself.
-/
import RowMapping.Proofs.Transaction.ScriptStatements

set_option autoImplicit false

namespace RowMapping

variable {σ τ α ρ κ : Type} {P : Pool σ}

/-- Any error but that a transaction is finished already. -/
def Timely (e : Error) : Prop := e ≠ .alreadyFinalized

/-- An error that wraps a failure of the driver says nothing about transactions that are
finished. -/
theorem Dialect.Classifies.timely {d : Dialect α} (hd : d.Classifies) : d.Converts Timely := by
  intro source query
  obtain ⟨c, hc⟩ := hd source query
  rw [Timely, hc]
  cases c <;> simp [FailureClass.error]

theorem timely_errors {d : Dialect α} (hd : d.Converts Timely) : ErrorKind d Timely where
  driver _ := by simp [Timely]
  connection _ := by simp [Timely]
  converted := hd
  rollbackFailed _ _ := by simp [Timely, Error.withRollback]

theorem Scope.timely_of_refuse {scope : Option Scope} {settings : TransactionSettings} {e : Error}
    (h : Scope.entry scope settings = .refuse e) : Timely e := by
  have henters := Scope.enters scope settings
  rw [h] at henters
  cases henters <;> simp [Timely]

/-- A result that is not the refusal to end a transaction again. -/
def Settled (r : Except Error ρ) : Prop := ∀ e, r = .error e → Timely e

theorem Settled.ok (x : ρ) : Settled (.ok x : Except Error ρ) := fun _ h => by cases h

theorem Settled.error {e : Error} (h : Timely e) : Settled (.error e : Except Error ρ) :=
  fun _ heq => Except.error.inj heq ▸ h

/-- An action that is never refused to end a transaction again, wherever it can run. -/
def EndsOnce (P : Pool σ) (active : Option Transaction) (a : Action σ τ ρ) : Prop :=
  ∀ w, Ready P active w → Settled (a.perform w).1

namespace EndsOnce

open RowMapping.Action

variable {d : Dialect α} {active : Option Transaction} {a : Action σ τ ρ}

theorem of_raises (h : Raises Timely a) : EndsOnce P active a := fun w _ => h w

theorem bind {f : ρ → Action σ τ κ} (hconforms : Conforming d P active a)
    (ha : EndsOnce P active a) (hf : ∀ x, EndsOnce P active (f x)) :
    EndsOnce P active (a >>= f) := by
  intro w hw
  obtain ⟨new, h⟩ := hconforms w hw
  have hresult := ha w hw
  rw [perform_bind]
  rcases hrun : a.perform w with ⟨e | x, w₁⟩
  · rw [hrun] at hresult
    exact .error (hresult e rfl)
  · rw [hrun] at h
    exact hf x w₁ (h.ready hw)

/-- What comes after an outcome is not given that refusal. -/
theorem outcome_bind {f : Except Error ρ → Action σ τ κ} (hconforms : Conforming d P active a)
    (ha : EndsOnce P active a) (hf : ∀ r, Settled r → EndsOnce P active (f r)) :
    EndsOnce P active (outcome a >>= f) := by
  intro w hw
  obtain ⟨new, h⟩ := hconforms w hw
  rw [perform_outcome_bind]
  exact hf _ (ha w hw) _ (h.ready hw)

theorem look_bind {f : World σ τ → ρ} {g : ρ → Action σ τ κ} (hg : ∀ x, EndsOnce P active (g x)) :
    EndsOnce P active (look f >>= g) := by
  intro w hw
  rw [perform_look_bind]
  exact hg _ w hw

end EndsOnce

namespace Manager

open RowMapping.Action

variable {m : Manager σ α}

/-! ## Ending -/

theorem settled_finish (hk : ErrorKind m.dialect Timely) (hd : m.dialect.CommitApart)
    {t : Transaction} {statement : Statement} {w w' : World σ τ} {r : Except Error Unit}
    (hfinished : (w.stateOf t).finished = false)
    (h : (m.finish t statement).perform w = (r, w')) : Settled r := by
  obtain ⟨-, said, -, hsaid⟩ := ran_finish hd hfinished h
  rcases r with e | _
  · obtain ⟨-, -, source, rfl⟩ := hsaid
    exact .error (hk.converted source _)
  · exact .ok ()

/-- Settling a transaction that is not finished does not find it finished. -/
theorem settled_settle (hk : ErrorKind m.dialect Timely) (hd : m.dialect.CommitApart)
    {t : Transaction} {w : World σ τ} {result : Except Error ρ} {rollbackOnly : Bool}
    (hfinished : (w.stateOf t).finished = false) (hresult : Settled result) :
    Settled ((m.settle t result rollbackOnly).perform w).1 := by
  rw [perform_settle]
  rcases hrun : (m.complete t result rollbackOnly).perform w with ⟨r, w₁⟩
  show Settled r
  cases completeSteps hrun with
  | undone | discarded | committed => exact hresult
  | notUndone => exact .error (hk.rollbackFailed _ _)
  | notDiscarded hend | notCommitted hend _ =>
    exact .error (settled_finish hk hd hfinished hend _ rfl)

end Manager

namespace EndsOnce

open RowMapping.Action

variable {active : Option Transaction} {m : Manager σ α}

/-! ## Scopes -/

theorem useConnection (hE : m.engine.Pooled P) (hk : ErrorKind m.dialect Timely) (ctx : Context)
    {operation : ConnectionId → Action σ τ ρ} (hop : ∀ c, EndsOnce P active (operation c)) :
    EndsOnce P active (m.useConnection ctx operation) := by
  obtain ⟨_ | t, flag⟩ := ctx
  · intro w hw
    obtain ⟨new, hacquired⟩ := Conforming.acquire (d := m.dialect) hE w hw
    rw [Manager.useConnection, Manager.perform_runAlone]
    rcases hrun : (m.acquire).perform w with ⟨e | c, w₁⟩
    · have hacquire : Raises Timely (τ := τ) m.acquire := .onStore hk.connection
      exact .error (hacquire w e (congrArg Prod.fst hrun))
    · rw [hrun] at hacquired
      exact hop c w₁ (hacquired.ready hw)
  · exact hop t.connection

theorem retrying {d : Dialect α} {once : Nat → Action σ τ ρ}
    (hconforms : ∀ n, Conforming d P active (once n)) (honce : ∀ n, EndsOnce P active (once n))
    (retries number : Nat) : EndsOnce P active (Manager.retrying once retries number) := by
  induction retries generalizing number with
  | zero => exact honce number
  | succ retries ih =>
    refine outcome_bind (hconforms number) (honce number) fun r hr => ?_
    rcases r with e | x
    · dsimp only
      split
      · exact ih (number + 1)
      · exact .of_raises (.throw (hr e rfl))
    · exact .of_raises (.pure x)

theorem permit (hk : ErrorKind m.dialect Timely) (suspended : List Transaction)
    (opening : Opening) :
    EndsOnce P active (m.permit suspended opening : Action σ τ Unit) := by
  rcases opening with isolation | t
  · rw [Manager.permit]
    split
    · exact .of_raises (Manager.raises_ensureNoWriter hk (by simp [Timely]) suspended)
    · exact .of_raises (.pure ())
  · exact .of_raises (.pure ())

section Transactions

variable (hE : m.engine.Pooled P) (hk : ErrorKind m.dialect Timely) (hd : m.dialect.CommitApart)

include hE hk hd

theorem runImplicit (isolation : Isolation) {operation : ConnectionId → Action σ τ ρ}
    (hconforms : ∀ active c, Conforming m.dialect P active (operation c))
    (hop : ∀ c, Raises Timely (operation c)) :
    EndsOnce P active (m.runImplicit isolation operation) := by
  intro w hw
  rw [Manager.runImplicit, perform_bind]
  rcases hrun : (m.begin isolation).perform w with ⟨e | t, w₁⟩
  · exact .error (Manager.raises_begin hk isolation w e (congrArg Prod.fst hrun))
  · have hbegins : Manager.Begins P m isolation w t w₁ := Manager.spares_begin hE hw.sound hrun
    obtain ⟨new, h⟩ := hconforms (some t) t.connection w₁ (.begun hbegins)
    dsimp only
    rw [perform_outcome_bind]
    exact Manager.settled_settle hk hd (h.unfinished hbegins) (hop t.connection w₁)

theorem withConnection (scope : Option Scope) (implicit : Option Isolation) (access : Access)
    {operation : ConnectionId → Action σ τ ρ}
    (hconforms : ∀ active c, Conforming m.dialect P active (operation c))
    (hop : ∀ c, Raises Timely (operation c)) :
    EndsOnce P active (m.withConnection scope implicit access operation) := by
  have haccess : ∀ suspended, Raises Timely (m.ensureAccess access suspended : Action σ τ Unit) := by
    intro suspended
    rcases access with _ | _
    · exact .pure ()
    · exact Manager.raises_ensureNoWriter hk (by simp [Timely]) suspended
  rcases scope with _ | ⟨⟨t, flag⟩ | _, suspended⟩
  · rcases implicit with _ | isolation
    · exact .of_raises (.throw (by simp [Timely]))
    · exact runImplicit hE hk hd isolation hconforms hop
  · have hmark : Raises Timely (Manager.markWritten access t : Action σ τ Unit) := by
      rcases access with _ | _
      · exact .pure ()
      · exact .change _
    exact .of_raises ((haccess suspended).bind fun _ => hmark.bind fun _ => hop t.connection)
  · exact .of_raises ((haccess suspended).bind fun _ => Manager.raises_runAlone hk hop)

/-- One attempt: its transaction is still unfinished when its work is done. -/
theorem tryOnce {opening : Opening} (suspended : List Transaction)
    {work : Manager.ScopedWork σ τ ρ}
    (hconforms : ∀ inner ctx n,
      Conforming m.dialect P (Scope.active? (some inner)) (work inner ctx n))
    (hwork : ∀ inner ctx n, EndsOnce P (Scope.active? (some inner)) (work inner ctx n))
    (hactive : ∀ t, opening = .savepoint t → active = some t) (number : Nat) :
    EndsOnce P active (m.tryOnce opening suspended work number) := by
  intro w hw
  rw [Manager.perform_tryOnce]
  rcases hopen : (m.openAttempt opening).perform w with ⟨e | o, w₁⟩
  · exact .error (Manager.raises_openAttempt hk opening w e (congrArg Prod.fst hopen))
  have hopens : Manager.Opens P m w w₁ opening o := Manager.spares_openAttempt hE hw.sound hopen
  rcases opening with isolation | t
  · rcases o with ⟨t, flag⟩ | ⟨u, name, flag⟩
    · have hbegins : Manager.Begins P m isolation w t w₁ := hopens
      obtain ⟨new, h⟩ := hconforms ⟨.transaction t flag, suspended⟩ ⟨some t, flag⟩ number w₁
        (.begun hbegins)
      exact Manager.settled_settle hk hd (h.unfinished hbegins)
        (hwork ⟨.transaction t flag, suspended⟩ ⟨some t, flag⟩ number w₁ (.begun hbegins))
    · exact hopens.elim
  · obtain rfl := hactive t rfl
    rcases o with ⟨u, flag⟩ | ⟨u, name, flag⟩
    · exact hopens.elim
    · obtain ⟨rfl, hspares⟩ := hopens
      exact Manager.raises_leave hk u name
        (hwork ⟨.transaction u flag, suspended⟩ ⟨some u, flag⟩ number w₁ (hw.spared hspares)) _ _

theorem withTransaction (htotal : m.engine.CountsAlways) (scope : Option Scope)
    (settings : TransactionSettings) {work : Manager.ScopedWork σ τ ρ}
    (hconforms : ∀ inner ctx n,
      Conforming m.dialect P (Scope.active? (some inner)) (work inner ctx n))
    (hwork : ∀ inner ctx n, EndsOnce P (Scope.active? (some inner)) (work inner ctx n)) :
    EndsOnce P (Scope.active? scope) (m.withTransaction scope settings work) := by
  rw [Manager.withTransaction_eq]
  rcases hentry : Scope.entry scope settings with e | ⟨t, flag, suspended⟩ | suspended |
    ⟨opening, suspended⟩
  · exact .of_raises (.throw (Scope.timely_of_refuse hentry))
  · rw [Scope.active_of_join hentry]
    exact hwork ⟨.transaction t flag, suspended⟩ _ 1
  · intro w hw
    have hnone : Ready P none ({ w with nextFlag := w.nextFlag + 1 } : World σ τ) :=
      ⟨hw.sound, fun _ ht => (nomatch ht), fun _ ht => (nomatch ht)⟩
    exact hwork ⟨.nonTransactional, suspended⟩ ⟨none, w.nextFlag⟩ 1 _ hnone
  · have hsavepoint : ∀ t, opening = .savepoint t → Scope.active? scope = some t := by
      rintro t rfl
      exact Scope.active_of_savepoint hentry
    refine bind (Conforming.permit hE suspended opening) (permit hk suspended opening) fun _ => ?_
    refine retrying (d := m.dialect) (fun n => ?_) (fun n => ?_) _ 1
    · exact Conforming.tryOnce hE hd htotal suspended hconforms hsavepoint n
    · exact tryOnce hE hk hd suspended hconforms hwork hsavepoint n

end Transactions

end EndsOnce

/-! ## Operations -/

/-- No conversion to the database says that a transaction is finished, and none of a failure
of the driver. -/
structure Database.ConvertsTimely (db : Database σ α) : Prop where
  failures : db.dialect.Converts Timely
  dialect : ∀ v, Settled (db.dialect.write v)
  registry : ∀ writer ∈ db.registry.toDatabase, ∀ x, Settled (writer.2 x)

theorem Database.ConvertsTimely.errors {db : Database σ α} (h : db.ConvertsTimely) :
    ErrorKind db.dialect Timely :=
  timely_errors h.failures

theorem Settled.bind {f : ρ → Except Error κ} {r : Except Error ρ} (h : Settled r)
    (hf : ∀ x, Settled (f x)) : Settled (r.bind f) := by
  rcases r with e | x
  · exact .error (h e rfl)
  · exact hf x

theorem Settled.map {f : ρ → κ} {r : Except Error ρ} (h : Settled r) : Settled (r.map f) := by
  rcases r with e | x
  · exact .error (h e rfl)
  · exact .ok (f x)

/-- The failures of a list are those of its members. -/
theorem settled_mapM {β γ : Type} {f : β → Except Error γ} {xs : List β}
    (h : ∀ x ∈ xs, Settled (f x)) : Settled (xs.mapM f) := by
  induction xs with
  | nil => exact .ok []
  | cons x rest ih =>
    have hx := h x (List.mem_cons_self ..)
    have hrest := ih fun y hy => h y (List.mem_cons_of_mem x hy)
    rw [List.mapM_cons]
    exact hx.bind fun y => hrest.bind fun ys => .ok (y :: ys)

theorem settled_writeObject {r : Registry α} (h : ∀ writer ∈ r.toDatabase, ∀ x, Settled (writer.2 x))
    (x : Object α) : Settled (Argument.writeObject r x) := by
  rw [Argument.writeObject]
  rcases hwriter : r.findWriter? x.type with _ | write
  · exact .error (by simp [Timely])
  · rw [Registry.findWriter?] at hwriter
    obtain ⟨entry, hfind, rfl⟩ := Option.map_eq_some_iff.mp hwriter
    exact h entry (List.mem_of_find?_eq_some hfind) x

mutual

theorem settled_resolve {r : Registry α} (h : ∀ x, Settled (Argument.writeObject r x))
    (mode : EnumMode) : ∀ a : Argument α, Settled (a.resolve r mode)
  | .value v => .ok v
  | .object x _ => h x
  | .enumeration .. => .ok _
  | .array items => (settled_resolveAll h mode items).map
  | .confidential inner => settled_resolve h mode inner

theorem settled_resolveAll {r : Registry α} (h : ∀ x, Settled (Argument.writeObject r x))
    (mode : EnumMode) : ∀ as : List (Argument α), Settled (Argument.resolveAll r mode as)
  | [] => .ok []
  | a :: rest => (settled_resolve h mode a).bind fun v =>
      (settled_resolveAll h mode rest).bind fun vs => .ok (v :: vs)

end

theorem Database.ConvertsTimely.cells {db : Database σ α} (h : db.ConvertsTimely) (mode : EnumMode)
    (arguments : List (Argument α)) : Settled (db.cells mode arguments) := by
  refine settled_mapM fun a _ => ?_
  have hresolved := settled_resolve (settled_writeObject h.registry) mode a
  exact (hresolved.bind h.dialect).map

theorem settled_read (t : StoredTable) : Settled t.read := by
  have hvalue : ∀ cell : Cell, Settled cell.value := by
    rintro (_ | _)
    all_goals intro e h; simp [Cell.value] at h
    subst h
    simp [Timely]
  have hrows : Settled (t.rows.mapM fun row => row.mapM Cell.value) :=
    settled_mapM fun row _ => settled_mapM fun cell _ => hvalue cell
  exact hrows.bind fun rows => .ok _

namespace EndsOnce

open RowMapping.Action

variable {active : Option Transaction} {db : Database σ α}

theorem raises_updateEach (hk : ErrorKind db.dialect Timely) (c : ConnectionId)
    (queries : List (Query α × List Cell)) :
    Raises Timely (db.updateEach c queries : Action σ τ (List Nat)) := by
  induction queries with
  | nil => exact .pure []
  | cons head rest ih =>
    obtain ⟨q, cells⟩ := head
    exact (Raises.onStore fun _ => hk.converted _ _).bind fun _ => ih.bind fun _ => .pure _

theorem answerPast (hE : db.engine.Pooled P) (hk : ErrorKind db.dialect Timely)
    (here : Surroundings) (depth : Nat) (operation : ConnectionOperation) :
    EndsOnce P active (Script.answerPast db here depth operation : Action σ τ Answer) := by
  have hanswer : ∀ c, Raises Timely (Script.answerOn db c operation : Action σ τ Answer) := by
    intro c
    rcases operation with ⟨sql, cells⟩ | statement
    · exact (Raises.onStore hk.driver).bind fun _ => .pure _
    · exact (Raises.onStore hk.driver).bind fun _ => .pure _
  rw [Script.answerPast]
  split
  · exact useConnection hE hk _ fun c => .of_raises (hanswer c)
  · exact .of_raises (.throw (by simp [Timely]))

theorem holding (hE : db.engine.Pooled P) (hk : ErrorKind db.dialect Timely)
    (here : Surroundings) (depth : Nat) {meanwhile : Action σ τ ρ}
    (hconforms : Conforming db.dialect P active meanwhile) (h : EndsOnce P active meanwhile) :
    EndsOnce P active (Script.holding db here depth meanwhile) := by
  rw [Script.holding]
  rcases here.contexts[depth]? with _ | ⟨_ | t, flag⟩
  · exact h
  · exact useConnection hE hk _ fun _ => h
  · refine bind (Conforming.setHeld (d := db.dialect) t true) (.of_raises (.change _)) fun _ => ?_
    refine outcome_bind hconforms h fun r hr => .of_raises ?_
    exact (Raises.change _).bind fun _ => .conclude hr

variable (hE : db.engine.Pooled P) (hd : db.dialect.CommitApart) (hconverts : db.ConvertsTimely)

include hE hd hconverts

theorem run (scope : Option Scope) (access : Access) (q : Query α)
    {work : ConnectionId → String → List Cell → σ → Except DriverError ρ × σ}
    (hwork : ∀ c sql cells s, P.sound s → P.Holds s (work c sql cells s).2) :
    EndsOnce P active (db.run scope access q work : Action σ τ ρ) := by
  refine look_bind fun settings => ?_
  refine bind (d := db.dialect) (.still fun _ => rfl) (.of_raises (.conclude (hconverts.cells _ _)))
    fun cells => ?_
  refine withConnection hE hconverts.errors hd scope _ access (fun _ c => ?_) fun c => ?_
  · exact .onStore fun s hs => hwork c _ _ s hs
  · exact .onStore fun _ => hconverts.failures _ _

theorem updateBatch (scope : Option Scope) (sql : String)
    (argumentLists : List (List (Argument α))) :
    EndsOnce P active (db.updateBatch scope sql argumentLists : Action σ τ (List Nat)) := by
  refine look_bind fun settings => ?_
  refine bind (d := db.dialect) (.still fun _ => rfl)
    (.of_raises (.conclude (settled_mapM fun q _ => hconverts.cells _ _))) fun batches => ?_
  exact withConnection hE hconverts.errors hd scope _ .write (fun _ c => .updateEach hE c _)
    fun c => raises_updateEach hconverts.errors c _

theorem answer (htotal : db.engine.CountsAlways) (scope : Option Scope) (operation : Operation α) :
    EndsOnce P active (Script.answer db scope operation : Action σ τ Answer) := by
  rcases operation with q | ⟨sql, argumentLists⟩ | q
  · have hrun : ∀ c sql cells s, P.sound s → P.Holds s (db.engine.update c sql cells s).2 :=
      fun c sql cells s hs => hE.update c sql cells hs
    exact bind (Conforming.run hE hd htotal scope .write q hrun)
      (run hE hd hconverts scope .write q hrun) fun x => .of_raises (.pure _)
  · exact bind (Conforming.updateBatch hE hd htotal scope sql argumentLists)
      (updateBatch hE hd hconverts scope sql argumentLists) fun rows => .of_raises (.pure _)
  · have hrun : ∀ c sql cells s, P.sound s → P.Holds s (db.engine.select c sql cells s).2 :=
      fun c sql cells s hs => hE.select c sql cells hs
    have hfind : EndsOnce P active (db.findTable scope q : Action σ τ ResultTable) :=
      bind (Conforming.run hE hd htotal scope .read q hrun) (run hE hd hconverts scope .read q hrun)
        fun stored => .of_raises (.conclude (settled_read stored))
    exact bind (Conforming.findTable hE hd htotal scope q) hfind fun table => .of_raises (.pure _)

end EndsOnce

/-! ## Scripts -/

/-- A script that does not say itself that a transaction is finished already, unless it
was told so. -/
def Script.Timely : Script α τ ρ → Prop
  | .finish result => Settled result
  | .note _ next => next.Timely
  | .operate _ next => ∀ r, Settled r → (next r).Timely
  | .bypass _ _ next => ∀ r, Settled r → (next r).Timely
  | .setRollbackOnly _ next => next.Timely
  | .observe next => ∀ seen, (next seen).Timely
  | .configure _ next => next.Timely
  | .scope _ work next => (∀ n, (work n).Timely) ∧ ∀ r, Settled r → (next r).Timely
  | .hold _ meanwhile next => meanwhile.Timely ∧ ∀ r, Settled r → (next r).Timely
  | .elsewhere _ work next => work.Timely ∧ ∀ r, Settled r → (next r).Timely

open RowMapping.Action in
/-- A script is never told so. -/
theorem EndsOnce.script {db : Database σ α} (hE : db.engine.Pooled P)
    (hd : db.dialect.CommitApart) (htotal : db.engine.CountsAlways) (hconverts : db.ConvertsTimely)
    (script : Script α τ ρ) (hlocal : script.Local) (htimely : script.Timely)
    (here : Surroundings) : EndsOnce P (Scope.active? here.scope) (script.run db here) := by
  -- each part ends once because what comes before it conforms
  induction script generalizing here with
  | finish result => exact .of_raises (.conclude htimely)
  | note entry next ih =>
    exact bind (d := db.dialect) (.record fun _ _ => by simp) (.of_raises (.change _)) fun _ =>
      ih hlocal htimely here
  | operate operation next ih =>
    exact outcome_bind (Conforming.answer hE hd htotal here.scope operation)
      (answer hE hd hconverts htotal here.scope operation) fun r hr =>
        ih r (hlocal r) (htimely r hr) here
  | bypass depth operation next ih =>
    exact outcome_bind (Conforming.answerPast hE here depth operation)
      (answerPast hE hconverts.errors here depth operation) fun r hr =>
        ih r (hlocal r) (htimely r hr) here
  | setRollbackOnly depth next ih =>
    have hmark : Raises RowMapping.Timely (Script.mark here depth : Action σ τ Unit) := by
      rw [Script.mark]
      split
      · exact .change _
      · exact .pure ()
    exact bind (d := db.dialect) (.mark here depth) (.of_raises hmark) fun _ =>
      ih hlocal htimely here
  | observe next ih => exact look_bind fun seen => ih seen (hlocal seen) (htimely seen) here
  | configure f next ih =>
    have hchange : Conforming db.dialect P (Scope.active? here.scope)
        (Action.change fun w : World σ τ => { w with settings := f w.settings }) :=
      .configure f
    exact bind hchange (.of_raises (.change _)) fun _ => ih hlocal htimely here
  | scope settings work next ihWork ih =>
    have hconforms : ∀ inner ctx n, Conforming db.dialect P (Scope.active? (some inner))
        (Script.scopeWork work db here.contexts inner ctx n) := fun inner ctx n =>
      .scopeWork hE hd htotal (hlocal.1 n) here.contexts inner ctx
    have hscope : EndsOnce P (Scope.active? here.scope)
        (db.transaction here.scope settings (Script.scopeWork work db here.contexts)) := by
      refine look_bind fun defaults => ?_
      refine withTransaction hE hconverts.errors hd htotal here.scope _ hconforms
        fun inner ctx n => ?_
      refine bind (d := db.dialect) (.record fun _ _ => by simp) (.of_raises (.change _)) fun _ => ?_
      exact ihWork n (hlocal.1 n) (htimely.1 n) ⟨some inner, ctx :: here.contexts⟩
    exact outcome_bind (Conforming.transaction hE hd htotal here.scope settings hconforms) hscope
      fun r hr => ih r (hlocal.2 r) (htimely.2 r hr) here
  | hold depth meanwhile next ihMeanwhile ih =>
    have hconforms := Conforming.script hE hd htotal meanwhile hlocal.1 here
    exact outcome_bind (Conforming.holding hE here depth hconforms)
      (holding hE hconverts.errors here depth hconforms (ihMeanwhile hlocal.1 htimely.1 here))
      fun r hr => ih r (hlocal.2 r) (htimely.2 r hr) here
  | elsewhere dialect work next => exact absurd hlocal fun h => h

/-- **The order of statements.** Whatever a script does on one handle of the database, the
statements of the manager on a connection are those of whole transactions one after the
other, as long as none fails but those that commit. And no transaction is ended twice. -/
theorem Script.run_blocks {db : Database σ α} (hE : db.engine.Pooled P)
    (hd : db.dialect.CommitApart) (htotal : db.engine.CountsAlways) {script : Script α τ ρ}
    (hlocal : script.Local) {w : World σ τ} (hw : P.sound w.store) :
    ∃ new, ((script.run db {}).perform w).2.trace = w.trace ++ new ∧
      (OnlyCommitFails db.dialect new → ∀ c, Blocks db.dialect (statementsOn c new)) ∧
      (db.ConvertsTimely → script.Timely →
        ((script.run db {}).perform w).1 ≠ .error .alreadyFinalized) := by
  have hready : Ready P (Scope.active? none) w :=
    ⟨hw, fun _ ht => (nomatch ht), fun _ ht => (nomatch ht)⟩
  obtain ⟨new, h⟩ := Conforming.script hE hd htotal script hlocal {} w hready
  refine ⟨new, h.trace, fun honly c => ?_, fun hconverts htimely => ?_⟩
  · by_cases hc : P.taken w.store c
    · rw [h.alone honly c hc fun _ ht => (nomatch ht)]
      exact .nil
    · exact h.blocks honly c hc
  · intro he
    exact EndsOnce.script hE hd htotal hconverts script hlocal htimely {} w hready _ he rfl

/-- A database with a constraint that no contents satisfy. -/
def unsatisfied : Database (Storage Nat) Empty :=
  .ofEngine (Storage.engine ⟨fun _ _ n => .ok ⟨n + 1, ⟨1, 0⟩⟩, fun _ _ _ => .ok ⟨[], []⟩, fun _ =>
    .error (.ofResultCode 19 "constraint failed")⟩) .sqlite .empty

/-- A write, and a scope that fails in it, which is not told. -/
def writingAround : Script Empty Unit Unit :=
  .scope { propagation := .required }
    (fun _ => .operate (.update { sql := "around" }) fun _ =>
      .scope { propagation := .nested } (fun _ => .finish (.error (.callback "within")))
        fun _ => .finish (.ok ()))
    .finish

/-- Whether an event is no failure, or one of a certain statement. -/
def Event.failsOnlyAs {τ : Type} (allowed : Statement) : Event τ → Bool
  | executed execution statement => execution.succeeded || statement == allowed
  | _ => true

theorem Script.run_blocks_writingAround :
    Blocks unsatisfied.dialect
        [(.beginDeferred, true), (.savepoint "sp_1", true), (.rollbackTo "sp_1", true),
          (.release "sp_1", true), (.commit, false), (.rollback, true)] ∧
      ((writingAround.run unsatisfied {}).perform { store := { contents := 0 } }).1
        ≠ .error .alreadyFinalized := by
  have hsound : Storage.pool.sound ({ contents := 0 } : Storage Nat) :=
    ⟨List.nodup_nil, fun _ h => by cases h⟩
  have hlocal : writingAround.Local := by simp [writingAround, Script.Local]
  have hcounting : unsatisfied.engine.Counting Storage.pool := Storage.counting_engine _
  obtain ⟨new, htrace, hblocks, htimely⟩ := run_blocks hcounting.toPooled
    Dialect.commitApart_sqlite (fun s c => ⟨_, rfl⟩) hlocal (w := { store := { contents := 0 } })
    hsound
  rw [show new = _ from htrace.symm] at hblocks
  refine ⟨?_, htimely ⟨Dialect.classifies_sqlite.timely, fun _ => .ok _, fun _ h => by cases h⟩ ?_⟩
  · have hsaid : statementsOn 0
        ((writingAround.run unsatisfied {}).perform { store := { contents := 0 } }).2.trace
          = [(.beginDeferred, true), (.savepoint "sp_1", true), (.rollbackTo "sp_1", true),
            (.release "sp_1", true), (.commit, false), (.rollback, true)] := by
      decide +kernel
    have hfailed : ((writingAround.run unsatisfied {}).perform
        { store := { contents := 0 } }).2.trace.all (Event.failsOnlyAs .commit) = true := by
      decide +kernel
    rw [← hsaid]
    refine hblocks (fun execution statement hevent hfails => ?_) 0
    have h : (execution.succeeded || statement == .commit) = true :=
      List.all_eq_true.mp hfailed _ hevent
    simp only [hfails, Bool.false_or, beq_iff_eq] at h
    exact h
  · exact ⟨fun _ _ _ => ⟨fun _ => .error (by simp [RowMapping.Timely]), fun _ _ => .ok ()⟩,
      fun _ h => h⟩

end RowMapping
