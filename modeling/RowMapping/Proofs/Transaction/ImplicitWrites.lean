/-
Writes outside of every scope.

There a write runs in a transaction that the manager begins for it. The same write could be
the only work of a scope that requires a transaction, and the manager goes another way then:
there is a context, a flag that would prevent the commit, and the scope notes that its
transaction has written. Both ways come to the same whatever fails on them. The flag is new, so
it is not set, and nothing that settles a transaction looks at whether it has written: from
the begin on, the two worlds differ in a mark and in the number of the next flag, and no step
sees this difference.
-/
import RowMapping.Proofs.Storage.Requests
import RowMapping.Proofs.Transaction.Batches

set_option autoImplicit false

namespace RowMapping

variable {σ τ α ρ κ : Type}

/-! ## Worlds that a scope has written in -/

/-- What a scope leaves in the books because it writes in its transaction: the mark of the
write, and the flag it was given. -/
def World.inScope (t : Transaction) (w : World σ τ) : World σ τ :=
  { w.modifyTransaction t fun s => { s with written := true } with nextFlag := w.nextFlag + 1 }

/-- All that is known of the transaction beside this is as it was. -/
theorem World.stateOf_inScope (t : Transaction) (w : World σ τ) :
    (w.inScope t).stateOf t = { w.stateOf t with written := true } :=
  World.stateOf_modifyTransaction t (fun s => { s with written := true }) w

/-- An action comes to the same whether or not the world is changed before, and leaves the
change as it is. -/
def Overlooks (change : World σ τ → World σ τ) (a : Action σ τ ρ) : Prop :=
  ∀ w, a.perform (change w) = ((a.perform w).1, change (a.perform w).2)

namespace Overlooks

open RowMapping.Action RowMapping.Manager

section Parts

variable {change : World σ τ → World σ τ}

theorem conclude (result : Except Error ρ) : Overlooks change (Action.conclude result) :=
  fun _ => rfl

theorem pure (x : ρ) : Overlooks change (Pure.pure x : Action σ τ ρ) := fun _ => rfl

theorem throw (e : Error) : Overlooks change (MonadExcept.throw e : Action σ τ ρ) := fun _ => rfl

theorem bind {a : Action σ τ ρ} {f : ρ → Action σ τ κ} (ha : Overlooks change a)
    (hf : ∀ x, Overlooks change (f x)) : Overlooks change (a >>= f) := by
  intro w
  rw [perform_bind, perform_bind, ha w]
  rcases a.perform w with ⟨e | x, w₁⟩
  · rfl
  · exact hf x w₁

theorem outcome {a : Action σ τ ρ} (ha : Overlooks change a) :
    Overlooks change (Action.outcome a) := by
  intro w
  rw [perform_outcome, perform_outcome, ha w]

end Parts

variable {t : Transaction} {m : Manager σ α}

/-- The storage is not touched by what a scope leaves in the books. -/
theorem onStore {ε : Type} (f : σ → Except ε ρ × σ) (convert : ε → Error) :
    Overlooks (World.inScope (τ := τ) t) (Action.onStore f convert) := fun _ => rfl

theorem record (event : Event τ) :
    Overlooks (World.inScope (σ := σ) t) (Action.record event) := fun _ => rfl

/-- What is noted of the transaction itself does not get in the way of the mark. -/
theorem modify {f : TransactionState → TransactionState}
    (hf : ∀ s, f { s with written := true } = { f s with written := true }) :
    Overlooks (World.inScope (σ := σ) (τ := τ) t) (change (·.modifyTransaction t f)) := by
  intro w
  refine Prod.ext rfl ?_
  show (w.inScope t).modifyTransaction t f = (w.modifyTransaction t f).inScope t
  simp only [World.inScope, World.modifyTransaction]
  congr 1
  funext i
  split
  · exact hf _
  · rfl

theorem execute (c : ConnectionId) (statement : Statement) :
    Overlooks (World.inScope (τ := τ) t) (m.execute c statement) :=
  (onStore _ _).outcome.bind fun _ => (record _).bind fun _ => conclude _

theorem executeAll (c : ConnectionId) (statements : List Statement) :
    Overlooks (World.inScope (τ := τ) t) (m.executeAll c statements) := by
  induction statements with
  | nil => exact pure ()
  | cons statement rest ih => exact (execute c statement).bind fun _ => ih

/-- Whether a transaction is ended depends on whether it is finished, not on what it has
written. -/
theorem finish (statement : Statement) :
    Overlooks (World.inScope (τ := τ) t) (m.finish t statement) := by
  have hcleanUp : Overlooks (World.inScope (τ := τ) t) (m.cleanUp t) := by
    refine (executeAll t.connection _).outcome.bind fun r => ?_
    rcases r with e | _
    · exact modify fun _ => rfl
    · exact pure ()
  have hend : Overlooks (World.inScope (τ := τ) t) (do
      m.execute t.connection statement
      change (·.modifyTransaction t fun s => { s with finished := true })
      m.cleanUp t) :=
    (execute t.connection statement).bind fun _ => (modify fun _ => rfl).bind fun _ => hcleanUp
  intro w
  have hfinished : ((w.inScope t).stateOf t).finished = (w.stateOf t).finished := by
    rw [World.stateOf_inScope]
  rw [finish_eq, perform_look_bind, perform_look_bind, hfinished]
  rcases (w.stateOf t).finished with _ | _
  · exact hend w
  · rfl

theorem complete (result : Except Error ρ) (rollbackOnly : Bool) :
    Overlooks (World.inScope (τ := τ) t) (m.complete t result rollbackOnly) := by
  have hrollback : Overlooks (World.inScope (τ := τ) t) (m.rollback t) := finish _
  rcases result with e | x
  · refine hrollback.outcome.bind fun r => ?_
    rcases r with e' | _
    · exact throw _
    · exact throw e
  rcases rollbackOnly with _ | _
  · have hcommit : Overlooks (World.inScope (τ := τ) t) (m.commit t) := finish _
    refine hcommit.outcome.bind fun r => ?_
    rcases r with e | _
    · exact hrollback.outcome.bind fun _ => throw e
    · exact pure x
  · exact hrollback.bind fun _ => pure x

theorem settle (result : Except Error ρ) (rollbackOnly : Bool) :
    Overlooks (World.inScope (τ := τ) t) (m.settle t result rollbackOnly) := by
  have hdismiss : Overlooks (World.inScope (τ := τ) t) (m.dismiss t) := by
    intro w
    have hunfit : unfit t (w.inScope t) = unfit t w := by
      rw [unfit, unfit, World.stateOf_inScope]
    rw [perform_dismiss, perform_dismiss, hunfit]
    rfl
  exact (complete result rollbackOnly).outcome.bind fun r => hdismiss.bind fun _ => conclude r

end Overlooks

/-! ## Work on the storage -/

/-- An action that works on the storage, and does nothing else. -/
def OnlyStores (a : Action σ τ ρ) : Prop :=
  ∃ f : σ → Except Error ρ × σ, ∀ w,
    a.perform w = ((f w.store).1, { w with store := (f w.store).2 })

namespace OnlyStores

open RowMapping.Action

theorem pure (x : ρ) : OnlyStores (Pure.pure x : Action σ τ ρ) :=
  ⟨fun s => (.ok x, s), fun _ => rfl⟩

theorem onStore {ε : Type} (f : σ → Except ε ρ × σ) (convert : ε → Error) :
    OnlyStores (Action.onStore f convert : Action σ τ ρ) :=
  ⟨fun s => ((f s).1.mapError convert, (f s).2), fun _ => rfl⟩

theorem bind {a : Action σ τ ρ} {f : ρ → Action σ τ κ} (ha : OnlyStores a)
    (hf : ∀ x, OnlyStores (f x)) : OnlyStores (a >>= f) := by
  obtain ⟨first, hfirst⟩ := ha
  choose rest hrest using hf
  refine ⟨fun s => match first s with
    | (.error e, s') => (.error e, s')
    | (.ok x, s') => rest x s', fun w => ?_⟩
  rw [perform_bind, hfirst]
  dsimp only
  rcases first w.store with ⟨e | x, s'⟩
  · rfl
  · exact hrest x { w with store := s' }

theorem updateEach (db : Database σ α) (c : ConnectionId) (queries : List (Query α × List Cell)) :
    OnlyStores (τ := τ) (db.updateEach c queries) := by
  induction queries with
  | nil => exact pure []
  | cons head rest ih => exact (onStore _ _).bind fun _ => ih.bind fun _ => pure _

/-- It does not see what a scope leaves in the books. -/
theorem overlooks {a : Action σ τ ρ} (h : OnlyStores a) (t : Transaction) :
    Overlooks (World.inScope t) a := by
  obtain ⟨f, hf⟩ := h
  intro w
  rw [hf, hf]
  rfl

/-- It leaves the books alone. -/
theorem sameBooks {a : Action σ τ ρ} (h : OnlyStores a) (w : World σ τ) :
    w.SameBooks (a.perform w).2 := by
  obtain ⟨f, hf⟩ := h
  rw [hf]
  exact .of_store w _

end OnlyStores

/-! ## One path and the other -/

namespace Manager

open RowMapping.Action

/-- Beginning a transaction leaves the flags and the settings alone. -/
structure KeepsFlags (w w' : World σ τ) : Prop where
  flags : w'.flags = w.flags
  nextFlag : w'.nextFlag = w.nextFlag
  settings : w'.settings = w.settings

theorem KeepsFlags.trans {w₁ w₂ w₃ : World σ τ} (h₁ : KeepsFlags w₁ w₂) (h₂ : KeepsFlags w₂ w₃) :
    KeepsFlags w₁ w₃ :=
  ⟨h₂.flags.trans h₁.flags, h₂.nextFlag.trans h₁.nextFlag, h₂.settings.trans h₁.settings⟩

theorem composable_keepsFlags :
    Composable fun _ (a : Action σ τ _) => ∀ w, KeepsFlags w (a.perform w).2 where
  still h w := by
    rw [h w]
    exact ⟨rfl, rfl, rfl⟩
  bind ha hf w := by
    rw [perform_bind]
    have hfirst := ha w
    rcases hrun : Action.perform _ w with ⟨e | x, w₁⟩
    all_goals rw [hrun] at hfirst
    · exact hfirst
    · exact hfirst.trans (hf x w₁)
  outcome ha := ha

theorem keepsFlags_begin (m : Manager σ α) (isolation : Isolation) (w : World σ τ) :
    KeepsFlags w ((m.begin isolation).perform w).2 := by
  have hP := composable_keepsFlags (σ := σ) (τ := τ)
  refine hP.bind (fun _ => ⟨rfl, rfl, rfl⟩) (fun c => ?_) w
  refine hP.outcome_bind ?_ (fun e => ?_) fun changes _ => ⟨rfl, rfl, rfl⟩
  · refine hP.bind (hP.executeAll fun statement _ w => ?_) fun _ _ => ⟨rfl, rfl, rfl⟩
    rw [perform_execute]
    exact ⟨rfl, rfl, rfl⟩
  · exact hP.bind (fun _ => ⟨rfl, rfl, rfl⟩) fun _ => hP.still fun _ => rfl

/-- The work of a new transaction that nobody prevents from committing. -/
theorem perform_runImplicit (m : Manager σ α) (isolation : Isolation)
    (operation : ConnectionId → Action σ τ ρ) (w : World σ τ) :
    (m.runImplicit isolation operation).perform w
      = match (m.begin isolation).perform w with
        | (.error e, w₁) => (.error e, w₁)
        | (.ok t, w₁) => (m.settle t ((operation t.connection).perform w₁).1 false).perform
            ((operation t.connection).perform w₁).2 := by
  rw [runImplicit, perform_bind]
  rcases (m.begin isolation).perform w with ⟨e | t, w₁⟩ <;> rfl

/-- An operation outside of every scope, and the same operation as the work of a scope that
requires a transaction. -/
theorem perform_withTransaction_required (m : Manager σ α) (isolation : Isolation)
    {operation : ConnectionId → Action σ τ ρ} (hoperation : ∀ c, OnlyStores (operation c))
    {w : World σ τ} (hunset : w.Unset) {work : ScopedWork σ τ ρ}
    (hwork : ∀ t flag ctx number w', w'.settings = w.settings →
      (work ⟨.transaction t flag, []⟩ ctx number).perform w'
        = (operation t.connection).perform (marked .write t w')) :
    let inside := (m.withTransaction none ⟨.required, isolation, 0⟩ work).perform w
    let outside := (m.runImplicit isolation operation).perform w
    inside.1 = outside.1 ∧ (inside.2 = outside.2 ∨ ∃ t, inside.2 = outside.2.inScope t) := by
  intro inside outside
  have hinside : inside = (m.tryOnce (.own isolation) [] work 1).perform w := by
    show (m.withTransaction none _ work).perform w = _
    rw [withTransaction_eq]
    show (m.permit [] (.own isolation) >>= fun _ => m.tryOnce _ [] work 1).perform w = _
    rw [permit, ensureNoWriter, ite_self, perform_bind_ok (perform_pure () w)]
  have houtside : outside = _ := perform_runImplicit m isolation operation w
  have hbegin := keepsFlags_begin m isolation w
  rw [perform_tryOnce, perform_openAttempt_own] at hinside
  rcases hrun : (m.begin isolation).perform w with ⟨e | t, w₁⟩
  all_goals rw [hrun] at hinside houtside hbegin
  · rw [hinside, houtside]
    exact ⟨rfl, .inl rfl⟩
  -- from here on the scope has its flag, and is marked before the operation is run
  have hran : (work ((Opened.own t w₁.nextFlag).scope []) (Opened.own t w₁.nextFlag).context
      1).perform { w₁ with nextFlag := w₁.nextFlag + 1 }
      = (((operation t.connection).perform w₁).1,
        ((operation t.connection).perform w₁).2.inScope t) :=
    (hwork t _ _ 1 { w₁ with nextFlag := w₁.nextFlag + 1 } hbegin.settings).trans
      ((hoperation t.connection).overlooks t w₁)
  have hbooks := (hoperation t.connection).sameBooks w₁
  have hflag : (((operation t.connection).perform w₁).2.inScope t).flags w₁.nextFlag = false := by
    show ((operation t.connection).perform w₁).2.flags w₁.nextFlag = false
    rw [hbooks.flags, hbegin.flags, hbegin.nextFlag]
    exact hunset _ (Nat.le_refl _)
  dsimp only at hinside houtside
  rw [hran, closeAttempt, perform_look_bind] at hinside
  dsimp only [Opened.flag] at hinside
  rw [hflag, Overlooks.settle] at hinside
  rw [hinside, houtside]
  exact ⟨rfl, .inr ⟨t, rfl⟩⟩

/-! ## What is made of the result -/

/-- A transaction is completed as its work has come out, whatever is made of the result. -/
theorem perform_complete_map (m : Manager σ α) (t : Transaction) (f : ρ → κ)
    (result : Except Error ρ) (rollbackOnly : Bool) (w : World σ τ) :
    (m.complete t (result.map f) rollbackOnly).perform w
      = (((m.complete t result rollbackOnly).perform w).1.map f,
        ((m.complete t result rollbackOnly).perform w).2) := by
  rcases result with e | x
  · show (m.complete t (.error e) rollbackOnly).perform w = _
    rw [perform_complete_error, perform_complete_error]
    rcases (m.rollback t).perform w with ⟨_ | _, _⟩ <;> rfl
  show (m.complete t (.ok (f x)) rollbackOnly).perform w = _
  rcases rollbackOnly with _ | _
  · rw [perform_complete_ok, perform_complete_ok]
    rcases (m.commit t).perform w with ⟨_ | _, _⟩ <;> rfl
  · rw [perform_complete_marked, perform_complete_marked]
    rcases (m.rollback t).perform w with ⟨_ | _, _⟩ <;> rfl

/-- It makes no difference whether something is made of the result on the connection or
afterwards. -/
theorem perform_withConnection_map (m : Manager σ α) (current : Option Scope)
    (implicit : Option Isolation) (access : Access) (operation : ConnectionId → Action σ τ ρ)
    (f : ρ → κ) (w : World σ τ) :
    (m.withConnection current implicit access fun c => do pure (f (← operation c))).perform w
      = (((m.withConnection current implicit access operation).perform w).1.map f,
        ((m.withConnection current implicit access operation).perform w).2) := by
  -- the operation runs in an implicit transaction, in the active one, or alone
  rcases current with _ | ⟨⟨t, flag⟩ | _, suspended⟩
  · rcases implicit with _ | isolation
    · rfl
    · rw [withConnection, withConnection, perform_runImplicit, perform_runImplicit]
      rcases (m.begin isolation).perform w with ⟨e | t, w₁⟩
      · rfl
      · dsimp only
        rw [perform_bind_pure, perform_settle, perform_settle, perform_complete_map]
  · rw [withConnection, withConnection, perform_bind, perform_bind]
    rcases (m.ensureAccess access suspended).perform w with ⟨e | _, w₁⟩
    · rfl
    · dsimp only
      rw [perform_bind, perform_bind, perform_markWritten]
      exact perform_bind_pure _ f _
  · rw [withConnection, withConnection, perform_bind, perform_bind]
    rcases (m.ensureAccess access suspended).perform w with ⟨e | _, w₁⟩
    · rfl
    · dsimp only
      rw [runAlone, runAlone, perform_bind, perform_bind]
      rcases (m.acquire).perform w₁ with ⟨e | c, w₂⟩
      · rfl
      · dsimp only
        rw [perform_outcome_bind, perform_outcome_bind, perform_bind_pure]
        rfl

end Manager

/-! ## Writes -/

/-- A write, by what it reports. -/
inductive WriteCall (α : Type) : Type → Type where
  | update (q : Query α) : WriteCall α Nat
  | updateWithKey (q : Query α) : WriteCall α UpdateResult
  | updateBatch (sql : String) (argumentLists : List (List (Argument α))) : WriteCall α (List Nat)

namespace WriteCall

open RowMapping.Action

/-- Make a write. -/
def run (db : Database σ α) (current : Option Scope) : WriteCall α ρ → Action σ τ ρ
  | update q => db.update current q
  | updateWithKey q => db.updateWithKey current q
  | updateBatch sql argumentLists => db.updateBatch current sql argumentLists

/-- Whether the arguments of a write resolve. -/
def resolves (db : Database σ α) (mode : EnumMode) : WriteCall α ρ → Bool
  | update q => (db.cells mode q.arguments).isOk
  | updateWithKey q => (db.cells mode q.arguments).isOk
  | updateBatch _ argumentLists => (argumentLists.mapM (db.cells mode)).isOk

/-- Make a write as the only work of a scope that requires a transaction. -/
def runRequired (db : Database σ α) (call : WriteCall α ρ) : Action σ τ ρ :=
  db.transaction none { propagation := .required } fun scope _ _ => call.run db (some scope)

/-- A write whose arguments resolve is some work on the storage, which is done on the connection
of its scope. -/
theorem exists_operation (db : Database σ α) (call : WriteCall α ρ) {mode : EnumMode}
    (h : call.resolves db mode = true) :
    ∃ operation : ConnectionId → Action σ τ ρ, (∀ c, OnlyStores (operation c)) ∧
      ∀ (current : Option Scope) (w : World σ τ), w.settings.enumMode = mode →
        (call.run db current).perform w = (db.withConnection current
          w.settings.implicitIsolation? .write operation).perform w := by
  -- the two ways to make a single write differ in what they report of it
  have hsingle : ∀ q : Query α, (db.cells mode q.arguments).isOk = true →
      ∃ operation : ConnectionId → Action σ τ UpdateResult, (∀ c, OnlyStores (operation c)) ∧
        ∀ (current : Option Scope) (w : World σ τ), w.settings.enumMode = mode →
          (db.updateWithKey current q).perform w = (db.withConnection current
            w.settings.implicitIsolation? .write operation).perform w := by
    intro q hq
    rcases hcells : db.cells mode q.arguments with e | cells
    · rw [hcells] at hq
      cases hq
    · refine ⟨fun c => onStore (db.engine.update c q.sql cells) fun e =>
        db.dialect.convertError e q.display, fun c => .onStore _ _, fun current w hw => ?_⟩
      rw [Database.updateWithKey, Database.perform_run, hw, hcells]
  cases call with
  | update q =>
    obtain ⟨operation, hstores, hrun⟩ := hsingle q h
    refine ⟨fun c => do pure (← operation c).rowsAffected,
      fun c => (hstores c).bind fun _ => .pure _, fun current w hw => ?_⟩
    show (db.update current q).perform w = _
    rw [Database.update, perform_bind_pure, hrun current w hw, ← Manager.perform_withConnection_map]
  | updateWithKey q => exact hsingle q h
  | updateBatch sql argumentLists =>
    rcases hcells : argumentLists.mapM (db.cells mode) with e | batches
    · rw [resolves, hcells] at h
      cases h
    · refine ⟨fun c => db.updateEach c
        ((argumentLists.map fun arguments => { sql, arguments }).zip batches),
        fun c => .updateEach db c _, fun current w hw => ?_⟩
      show (db.updateBatch current sql argumentLists).perform w = _
      rw [Database.perform_updateBatch, hw, hcells]

theorem alike {σ' : Type} {view : σ' → σ} {db : Database σ α} {E' : Engine σ'}
    (hE : E'.Mirrors db.engine view) (call : WriteCall α ρ) (current : Option Scope) :
    Alike (τ := τ) view (call.run (db.on E') current) (call.run db current) := by
  cases call with
  | update q => exact (Alike.run hE current .write q hE.update).bind fun _ => .pure _
  | updateWithKey q => exact Alike.run hE current .write q hE.update
  | updateBatch sql argumentLists =>
    refine (Alike.look fun _ => rfl).bind fun settings => (Alike.conclude _).bind fun batches => ?_
    exact Alike.withConnection hE (fun c => Alike.updateEach hE c _) current _ .write

/-- As the work of a scope, a write comes to what it comes to outside of every scope, and to the
same world but for what the scope leaves in the books. -/
theorem perform_runRequired (db : Database σ α) (call : WriteCall α ρ) {w : World σ τ}
    (hunset : w.Unset) (hallow : w.settings.allowImplicit = true)
    (hresolves : call.resolves db w.settings.enumMode = true) :
    let inside := (call.runRequired db).perform w
    let outside := (call.run db none).perform w
    inside.1 = outside.1 ∧ (inside.2 = outside.2 ∨ ∃ t, inside.2 = outside.2.inScope t) := by
  intro inside outside
  obtain ⟨operation, hstores, hrun⟩ := call.exists_operation (τ := τ) db hresolves
  -- both begin with the default isolation and run the operation there once
  have hinside : inside = (db.withTransaction none ⟨.required, w.settings.defaultIsolation, 0⟩
      fun scope _ _ => call.run db (some scope)).perform w :=
    Script.perform_transaction db none _ _ w
  have houtside : outside = (db.runImplicit w.settings.defaultIsolation operation).perform w := by
    show (call.run db none).perform w = _
    rw [hrun none w rfl, DatabaseSettings.implicitIsolation?, hallow]
    rfl
  rw [hinside, houtside]
  refine Manager.perform_withTransaction_required db.toManager _ hstores hunset ?_
  intro t flag ctx number w' hw'
  rw [hrun _ w' (congrArg _ hw')]
  rfl

/-- **Writes outside of every scope.** Where operations may begin transactions by themselves, a
write whose arguments resolve comes to what it comes to as the only work of a scope that
requires a transaction: the result or failure is the same, the engine ends up in the same state,
with all it stores and the states of its connections, the same statements about transactions are
traced, and whatever the engine is asked for on the one way, it is asked for in the same order on
the other one. -/
theorem runRequired_eq_run (db : Database σ α) (call : WriteCall α ρ) {w : World σ τ}
    (hunset : w.Unset) (hallow : w.settings.allowImplicit = true)
    (hresolves : call.resolves db w.settings.enumMode = true) :
    let inside := (call.runRequired db).perform w
    let outside := (call.run db none).perform w
    inside.1 = outside.1 ∧ inside.2.store = outside.2.store ∧ inside.2.trace = outside.2.trace ∧
      ∃ requests : List Request,
        ((call.runRequired (db.on db.engine.listing)).perform w.listing).2.store
          = (inside.2.store, requests) ∧
        ((call.run (db.on db.engine.listing) none).perform w.listing).2.store
          = (outside.2.store, requests) := by
  intro inside outside
  have hstore : ∀ {σ : Type} {w w' : World σ τ}, (w' = w ∨ ∃ t, w' = w.inScope t) →
      w'.store = w.store ∧ w'.trace = w.trace := by
    rintro σ w w' (rfl | ⟨t, rfl⟩) <;> exact ⟨rfl, rfl⟩
  obtain ⟨hresult, hworld⟩ := call.perform_runRequired db hunset hallow hresolves
  -- on the engine that lists its requests the two runs agree as well, and there the list is
  -- part of what is stored
  obtain ⟨-, hlisted⟩ := call.perform_runRequired (db.on db.engine.listing) (w := w.listing) hunset
    hallow hresolves
  have hseen : outside.2.store
      = ((call.run (db.on db.engine.listing) none).perform w.listing).2.store.1 :=
    congrArg (fun run => run.2.store) (call.alike db.engine.mirrors_listing none w.listing)
  refine ⟨hresult, (hstore hworld).1, (hstore hworld).2, _, ?_, Prod.ext hseen.symm rfl⟩
  rw [(hstore hlisted).1, (hstore hworld).1]
  exact Prod.ext hseen.symm rfl

/-- A write that inserts an item. -/
def insertItem : WriteCall Empty Nat :=
  .update { sql := Items.insertSql, arguments := [.value (.text "a")] }

/-- An item is inserted outside of every scope, and in the same way by a scope. -/
theorem runRequired_eq_run_insertItem :
    ((insertItem.run Database.items none).perform Database.noItems).1.toOption = some 1 ∧
      ((insertItem.run Database.items none).perform Database.noItems).2.store.contents.items
        = [(1, .text "a")] ∧
      ((insertItem.runRequired Database.items).perform Database.noItems).1
        = ((insertItem.run Database.items none).perform Database.noItems).1 ∧
      ((insertItem.runRequired Database.items).perform Database.noItems).2.store
        = ((insertItem.run Database.items none).perform Database.noItems).2.store := by
  have hinserted : ((insertItem.run Database.items none).perform Database.noItems).1.toOption
      = some 1 := by decide +kernel
  have hitems : ((insertItem.run Database.items none).perform
      Database.noItems).2.store.contents.items = [(1, .text "a")] := by decide +kernel
  have hunset : Database.noItems.Unset := fun _ _ => rfl
  have hresolves :
      insertItem.resolves Database.items Database.noItems.settings.enumMode = true := by
    decide +kernel
  have hsame := insertItem.runRequired_eq_run Database.items hunset rfl hresolves
  exact ⟨hinserted, hitems, hsame.1, hsame.2.1⟩

end WriteCall

end RowMapping
