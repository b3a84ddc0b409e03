/-
Scopes as sequences of attempts.

A scope is refused, joins the current one, runs without a transaction, or is tried,
which may be repeated. An attempt opens something first, a transaction or a savepoint
of one, then runs the work, and closes what it has opened. The manager is written
along these lines for each kind of scope; here is what all of them have in common.
-/
import RowMapping.Database.Script
import RowMapping.Proofs.Transaction.Suspension

set_option autoImplicit false

namespace RowMapping

variable {σ τ α ρ : Type}

/-- What an attempt is to open. -/
inductive Opening where
  | own (isolation : Isolation)
  | savepoint (t : Transaction)

/-- What an attempt has opened. -/
inductive Opened where
  | own (t : Transaction) (flag : FlagId)
  | savepoint (t : Transaction) (name : String) (flag : FlagId)

namespace Opened

def transaction : Opened → Transaction
  | own t _ => t
  | savepoint t _ _ => t

def flag : Opened → FlagId
  | own _ flag => flag
  | savepoint _ _ flag => flag

def scope (o : Opened) (suspended : List Transaction) : Scope :=
  ⟨.transaction o.transaction o.flag, suspended⟩

def context (o : Opened) : Context := ⟨some o.transaction, o.flag⟩

end Opened

/-- What becomes of a scope. -/
inductive Entry where
  | refuse (e : Error)
  | join (t : Transaction) (flag : FlagId) (suspended : List Transaction)
  | free (suspended : List Transaction)
  | attempts (opening : Opening) (suspended : List Transaction)

/-- What becomes of a scope inside of another one, by its settings. -/
def Scope.entry (scope : Option Scope) (settings : TransactionSettings) : Entry :=
  match scope with
  | some ⟨.transaction t flag, suspended⟩ =>
    match settings.propagation with
    | .never => .refuse (.illegalTransactionState .never)
    | .requiresNew => .attempts (.own settings.isolation) (suspended ++ [t])
    | .nested => .attempts (.savepoint t) suspended
    | .notSupported => .free (suspended ++ [t])
    | _ => .join t flag suspended
  | some ⟨.nonTransactional, suspended⟩ => outside suspended
  | none => outside []
where
  outside (suspended : List Transaction) : Entry :=
    match settings.propagation with
    | .mandatory => .refuse (.noActiveTransaction .mandatory)
    | .supports => .free suspended
    | .notSupported => .free suspended
    | .never => .free suspended
    | _ => .attempts (.own settings.isolation) suspended

/-- How scopes are entered. The transaction of the scope around is joined, or it gets a
savepoint, or else it is set aside with those that wait already. -/
inductive Scope.Enters (settings : TransactionSettings) : Option Scope → Entry → Prop
  | unwanted {t : Transaction} {flag : FlagId} {suspended : List Transaction} :
      Enters settings (some ⟨.transaction t flag, suspended⟩)
        (.refuse (.illegalTransactionState .never))
  | missing {scope : Option Scope} (hnone : active? scope = none) :
      Enters settings scope (.refuse (.noActiveTransaction .mandatory))
  | join {t : Transaction} {flag : FlagId} {suspended : List Transaction} :
      Enters settings (some ⟨.transaction t flag, suspended⟩) (.join t flag suspended)
  | divide {t : Transaction} {flag : FlagId} {suspended : List Transaction} :
      Enters settings (some ⟨.transaction t flag, suspended⟩) (.attempts (.savepoint t) suspended)
  | free {scope : Option Scope} : Enters settings scope (.free (setAside scope))
  | begin {scope : Option Scope} :
      Enters settings scope (.attempts (.own settings.isolation) (setAside scope))

namespace Scope

theorem enters_outside {scope : Option Scope} (settings : TransactionSettings)
    (hnone : active? scope = none) :
    Enters settings scope (entry.outside settings (suspendedIn scope)) := by
  have hall : suspendedIn scope = setAside scope := by simp [setAside, hnone]
  rw [entry.outside, hall]
  cases settings.propagation with
  | mandatory => exact .missing hnone
  | supports | notSupported | never => exact .free
  | default | required | requiresNew | nested => exact .begin

/-- A scope is entered in one of these ways, whatever its settings are. -/
theorem enters (scope : Option Scope) (settings : TransactionSettings) :
    Enters settings scope (entry scope settings) := by
  rcases scope with _ | ⟨⟨t, flag⟩ | _, suspended⟩
  · exact enters_outside settings rfl
  · rw [entry]
    cases settings.propagation with
    | never => exact .unwanted
    | requiresNew => exact .begin
    | nested => exact .divide
    | notSupported => exact .free
    | default | required | supports | mandatory => exact .join
  · exact enters_outside settings rfl

variable {scope : Option Scope} {settings : TransactionSettings} {t : Transaction}
  {suspended : List Transaction}

/-- Only the current scope is joined. -/
theorem of_join {flag : FlagId} (h : entry scope settings = .join t flag suspended) :
    scope = some ⟨.transaction t flag, suspended⟩ := by
  have henters := enters scope settings
  rw [h] at henters
  cases henters
  rfl

/-- Savepoints are set in the transaction of the current scope. -/
theorem of_savepoint (h : entry scope settings = .attempts (.savepoint t) suspended) :
    ∃ flag, scope = some ⟨.transaction t flag, suspended⟩ := by
  have henters := enters scope settings
  rw [h] at henters
  cases henters
  exact ⟨_, rfl⟩

end Scope

namespace Manager

open RowMapping.Action

/-- Open what an attempt needs. -/
def openAttempt (m : Manager σ α) : Opening → Action σ τ Opened
  | .own isolation => do
    let t ← m.begin isolation
    let flag ← newFlag
    pure (.own t flag)
  | .savepoint t => do
    let name ← nextSavepoint t
    m.execute t.connection (m.dialect.savepoint name)
    let flag ← newFlag
    pure (.savepoint t name flag)

/-- Close what an attempt has opened, as its work has come out. -/
def closeAttempt (m : Manager σ α) (o : Opened) (result : Except Error ρ) : Action σ τ ρ := do
  let marked ← look (·.flags o.flag)
  match o with
  | .own t _ => m.settle t result marked
  | .savepoint t name _ => m.leave t name result marked

/-- One attempt. -/
def tryOnce (m : Manager σ α) (opening : Opening) (suspended : List Transaction)
    (work : ScopedWork σ τ ρ) (number : Nat) : Action σ τ ρ := do
  let o ← m.openAttempt opening
  let result ← outcome (work (o.scope suspended) o.context number)
  m.closeAttempt o result

/-- What has to hold before the first attempt. -/
def permit (m : Manager σ α) (suspended : List Transaction) : Opening → Action σ τ Unit
  | .own isolation =>
    if m.dialect.locksOnBegin isolation then m.ensureNoWriter suspended else pure ()
  | .savepoint _ => pure ()

theorem perform_openAttempt_own (m : Manager σ α) (isolation : Isolation) (w : World σ τ) :
    (m.openAttempt (.own isolation)).perform w
      = match (m.begin isolation).perform w with
        | (.error e, w₁) => (.error e, w₁)
        | (.ok t, w₁) => (.ok (.own t w₁.nextFlag), { w₁ with nextFlag := w₁.nextFlag + 1 }) := by
  rw [openAttempt, perform_bind]
  rcases (m.begin isolation).perform w with ⟨e | t, w₁⟩ <;> rfl

/-- The steps of opening an attempt. A savepoint takes the next name of its transaction,
whether it can be set or not. -/
inductive OpenSteps (m : Manager σ α) (w : World σ τ) :
    Opening → Except Error Opened → World σ τ → Prop
  | notBegun {isolation : Isolation} {e : Error} {w₁ : World σ τ}
      (hbegin : (m.begin isolation).perform w = (.error e, w₁)) :
      OpenSteps m w (.own isolation) (.error e) w₁
  | begun {isolation : Isolation} {t : Transaction} {w₁ : World σ τ}
      (hbegin : (m.begin isolation).perform w = (.ok t, w₁)) :
      OpenSteps m w (.own isolation) (.ok (.own t w₁.nextFlag))
        { w₁ with nextFlag := w₁.nextFlag + 1 }
  | notSet {t : Transaction} {e : Error} {w₁ : World σ τ}
      (hrun : (m.execute t.connection
          (m.dialect.savepoint ("sp_" ++ toString ((w.stateOf t).savepoints + 1)))).perform
        (w.modifyTransaction t fun s => { s with savepoints := s.savepoints + 1 })
          = (.error e, w₁)) :
      OpenSteps m w (.savepoint t) (.error e) w₁
  | set {t : Transaction} {w₁ : World σ τ}
      (hrun : (m.execute t.connection
          (m.dialect.savepoint ("sp_" ++ toString ((w.stateOf t).savepoints + 1)))).perform
        (w.modifyTransaction t fun s => { s with savepoints := s.savepoints + 1 })
          = (.ok (), w₁)) :
      OpenSteps m w (.savepoint t)
        (.ok (.savepoint t ("sp_" ++ toString ((w.stateOf t).savepoints + 1)) w₁.nextFlag))
        { w₁ with nextFlag := w₁.nextFlag + 1 }

theorem openSteps {m : Manager σ α} {opening : Opening} {w w' : World σ τ}
    {r : Except Error Opened} (h : (m.openAttempt opening).perform w = (r, w')) :
    m.OpenSteps w opening r w' := by
  cases opening with
  | own isolation =>
    rw [perform_openAttempt_own] at h
    rcases hbegin : (m.begin isolation).perform w with ⟨e | t, w₁⟩
    all_goals
      rw [hbegin] at h
      cases h
    · exact .notBegun hbegin
    · exact .begun hbegin
  | savepoint t =>
    rw [openAttempt, perform_bind_ok (perform_nextSavepoint t w), perform_bind] at h
    rcases hrun : (m.execute t.connection
      (m.dialect.savepoint ("sp_" ++ toString ((w.stateOf t).savepoints + 1)))).perform
        (w.modifyTransaction t fun s => { s with savepoints := s.savepoints + 1 }) with ⟨e | _, w₁⟩
    all_goals
      rw [hrun] at h
      cases h
    · exact .notSet hrun
    · exact .set hrun

theorem runNewOnce_eq (m : Manager σ α) (isolation : Isolation) (suspended : List Transaction)
    (work : ScopedWork σ τ ρ) :
    m.runNewOnce isolation suspended work = m.tryOnce (.own isolation) suspended work := by
  funext number w
  show (m.runNewOnce isolation suspended work number).perform w
    = (m.tryOnce (.own isolation) suspended work number).perform w
  rw [runNewOnce, tryOnce, openAttempt, perform_bind, perform_bind, perform_bind]
  rcases (m.begin isolation).perform w with ⟨e | t, w₁⟩ <;> rfl

theorem runNestedOnce_eq (m : Manager σ α) (t : Transaction) (suspended : List Transaction)
    (work : ScopedWork σ τ ρ) :
    m.runNestedOnce t suspended work = m.tryOnce (.savepoint t) suspended work := by
  funext number w
  show (m.runNestedOnce t suspended work number).perform w
    = (m.tryOnce (.savepoint t) suspended work number).perform w
  rw [runNestedOnce, tryOnce, openAttempt, perform_bind_ok (perform_nextSavepoint t w),
    perform_bind, perform_bind, perform_bind_ok (perform_nextSavepoint t w), perform_bind]
  rcases (m.execute t.connection _).perform _ with ⟨e | _, w₁⟩ <;> rfl

theorem perform_tryOnce (m : Manager σ α) (opening : Opening) (suspended : List Transaction)
    (work : ScopedWork σ τ ρ) (number : Nat) (w : World σ τ) :
    (m.tryOnce opening suspended work number).perform w
      = match (m.openAttempt opening).perform w with
        | (.error e, w₁) => (.error e, w₁)
        | (.ok o, w₁) =>
          (m.closeAttempt o ((work (o.scope suspended) o.context number).perform w₁).1).perform
            ((work (o.scope suspended) o.context number).perform w₁).2 := by
  rw [tryOnce, perform_bind]
  rcases (m.openAttempt opening).perform w with ⟨e | o, w₁⟩ <;> rfl

theorem perform_runAlone (m : Manager σ α) (operation : ConnectionId → Action σ τ ρ)
    (w : World σ τ) :
    (m.runAlone operation).perform w
      = match (m.acquire).perform w with
        | (.error e, w₁) => (.error e, w₁)
        | (.ok c, w₁) =>
          (((operation c).perform w₁).1,
            ((m.release c false).perform ((operation c).perform w₁).2).2) := by
  rw [runAlone, perform_bind]
  rcases (m.acquire).perform w with ⟨e | c, w₁⟩ <;> rfl

theorem perform_retrying_succ (once : Nat → Action σ τ ρ) (retries number : Nat)
    (w : World σ τ) :
    (retrying once (retries + 1) number).perform w
      = match (once number).perform w with
        | (.ok x, w') => (.ok x, w')
        | (.error e, w') =>
          if e.isSerializationFailure then (retrying once retries (number + 1)).perform w'
          else (.error e, w') := by
  rw [retrying, perform_outcome_bind]
  rcases (once number).perform w with ⟨e | x, w'⟩
  · dsimp only
    split <;> rfl
  · rfl

/-- What a scope does by its entry. -/
def runEntry (m : Manager σ α) (retries : Nat) (work : ScopedWork σ τ ρ) :
    Entry → Action σ τ ρ
  | .refuse e => throw e
  | .join t flag suspended => work ⟨.transaction t flag, suspended⟩ ⟨some t, flag⟩ 1
  | .free suspended => runWithout suspended work
  | .attempts opening suspended => do
    m.permit suspended opening
    retrying (m.tryOnce opening suspended work) retries 1

theorem runNew_eq (m : Manager σ α) (settings : TransactionSettings)
    (suspended : List Transaction) (work : ScopedWork σ τ ρ) :
    m.runNew settings suspended work
      = m.runEntry settings.retries work (.attempts (.own settings.isolation) suspended) := by
  funext w
  rw [runNew, runEntry, permit, runNewOnce_eq]
  split <;> rfl

theorem runOutside_eq (m : Manager σ α) (settings : TransactionSettings)
    (suspended : List Transaction) (work : ScopedWork σ τ ρ) :
    m.runOutside suspended settings work
      = m.runEntry settings.retries work (Scope.entry.outside settings suspended) := by
  rw [runOutside, Scope.entry.outside, runNew_eq]
  rcases settings.propagation <;> rfl

/-- A scope does what its entry says. -/
theorem withTransaction_eq (m : Manager σ α) (scope : Option Scope)
    (settings : TransactionSettings) (work : ScopedWork σ τ ρ) :
    m.withTransaction scope settings work
      = m.runEntry settings.retries work (Scope.entry scope settings) := by
  rcases scope with _ | ⟨⟨t, flag⟩ | _, suspended⟩
  · exact runOutside_eq m settings [] work
  · show m.runInside t flag suspended settings work = _
    rw [runInside, Scope.entry, runNew_eq, runNested, runNestedOnce_eq]
    rcases settings.propagation <;> rfl
  · exact runOutside_eq m settings suspended work

end Manager

/-! ## The work of a scope -/

namespace Script

open RowMapping.Action

/-- The work of a scope that a script runs. -/
def scopeWork (work : Nat → Script α τ ρ) (db : Database σ α) (contexts : List Context) :
    Manager.ScopedWork σ τ ρ := fun inner ctx attempt => do
  record (.entered attempt ctx.isTransactional)
  (work attempt).run db ⟨some inner, ctx :: contexts⟩

theorem perform_run_scope (settings : TransactionSettings) (work : Nat → Script α τ ρ)
    (next : Except Error ρ → Script α τ ρ) (db : Database σ α) (here : Surroundings)
    (w : World σ τ) :
    ((scope settings work next).run db here).perform w
      = ((next ((db.transaction here.scope settings (scopeWork work db here.contexts)).perform w).1).run
          db here).perform
        ((db.transaction here.scope settings (scopeWork work db here.contexts)).perform w).2 := by
  rw [run, perform_outcome_bind]
  rfl

theorem perform_transaction (db : Database σ α) (scope : Option Scope)
    (settings : TransactionSettings) (work : Manager.ScopedWork σ τ ρ) (w : World σ τ) :
    (db.transaction scope settings work).perform w
      = (db.withTransaction scope (w.settings.normalize settings) work).perform w := by
  rw [Database.transaction, perform_look_bind]

end Script

end RowMapping
