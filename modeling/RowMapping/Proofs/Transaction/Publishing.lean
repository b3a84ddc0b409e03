/-
What publishes nothing.

What is committed changes where a COMMIT succeeds, where a savepoint is released that has
begun its transaction, and where something is written outside of transactions. Beginning a
transaction, rolling one back, cleaning up after one and giving connections back publish
nothing, whatever of it fails, and neither does settling a transaction without success.

Whether something was published can be asked of the contents themselves, or of a journal that
tells it of each connection. What is shown here holds of both: of any relation between states
that is kept by everything that leaves what is committed as it is.
-/
import RowMapping.Proofs.Transaction.Watching

set_option autoImplicit false

namespace RowMapping

variable {σ δ τ α ρ : Type} {storage : σ → Storage δ} {schema : Schema δ} {m : Manager σ α}

/-- A relation between states that holds as long as nothing is done which changes what is
committed. -/
structure Engine.Conserves (E : Engine σ) (storage : σ → Storage δ) (R : σ → σ → Prop) :
    Prop where
  refl : ∀ s, R s s
  trans : ∀ {s s₁ s'}, R s s₁ → R s₁ s' → R s s'
  acquire : ∀ s, R s (E.acquire s).2
  execute : ∀ c statement s, (storage (E.execute c statement s).2).contents = (storage s).contents →
    R s (E.execute c statement s).2
  totalChanges : ∀ c s, (storage (E.totalChanges c s).2).contents = (storage s).contents →
    R s (E.totalChanges c s).2
  release : ∀ c close s, (storage (E.release c close s)).contents = (storage s).contents →
    R s (E.release c close s)

/-- What is committed is the same in two states. -/
def SameContents (storage : σ → Storage δ) (s s' : σ) : Prop :=
  (storage s').contents = (storage s).contents

theorem Engine.Unreliable.conserves {E : Engine σ} (hE : E.Unreliable schema storage) :
    E.Conserves storage (SameContents storage) where
  refl _ := rfl
  trans h₁ h₂ := Eq.trans h₂ h₁
  acquire s := by
    rcases hE.acquire s with ⟨-, hstore⟩ | ⟨e, -, hstore⟩
    · rw [SameContents, hstore, Storage.contents_acquire]
    · rw [SameContents, hstore]
  execute _ _ _ h := h
  totalChanges _ _ h := h
  release _ _ _ h := h

/-- A journal tells of one connection what it has published. -/
theorem Engine.Journals.conserves {E : Engine σ} {journal : σ → List (Deed δ)}
    (hj : E.Journals storage journal) (c : ConnectionId) :
    E.Conserves storage (Withheld journal c) where
  refl := .refl
  trans := .trans
  acquire s := .of_same (hj.acquire s)
  execute i statement s h := .of_noted (hj.execute i statement s) fun _ => h
  totalChanges i s h := .of_noted (hj.totalChanges i s) fun _ => h
  release i close s h := .of_noted (hj.release i close s) fun _ => h

/-- A statement that was run without changing what is committed. -/
theorem Manager.conserved_execute {R : σ → σ → Prop} (hR : m.engine.Conserves storage R)
    {c : ConnectionId} {statement : Statement} {w w' : World σ τ} {r : Except Error Unit}
    (h : (m.execute c statement).perform w = (r, w'))
    (hsame : (storage w'.store).contents = (storage w.store).contents) : R w.store w'.store := by
  rw [perform_execute] at h
  obtain ⟨-, rfl⟩ := Prod.mk.inj h
  exact hR.execute c statement w.store hsame

/-! ## Silent actions -/

/-- From what is there before an action to what is there after it a relation holds, whatever
comes of the action. -/
def Silent (R : σ → σ → Prop) (a : Action σ τ ρ) : Prop := ∀ w, R w.store (a.perform w).2.store

namespace Silent

open RowMapping.Action

variable {R : σ → σ → Prop}

theorem run {a : Action σ τ ρ} (ha : Silent R a) {w w' : World σ τ} {r : Except Error ρ}
    (h : a.perform w = (r, w')) : R w.store w'.store := by
  have hsilent := ha w
  rw [h] at hsilent
  exact hsilent

section Parts

variable (hR : m.engine.Conserves storage R)

include hR

theorem still {a : Action σ τ ρ} (h : ∀ w, (a.perform w).2.store = w.store) : Silent R a :=
  fun w => (h w).symm ▸ hR.refl w.store

theorem composable : Composable (τ := τ) fun _ a => Silent R a where
  still h := still hR fun w => by rw [h w]
  outcome h := h
  bind ha hf w := by
    rw [perform_bind]
    rcases hrun : Action.perform _ w with ⟨e | x, w₁⟩
    · exact run ha hrun
    · exact hR.trans (run ha hrun) (hf x w₁)

theorem acquire : Silent R (m.acquire : Action σ τ ConnectionId) :=
  fun w => hR.acquire w.store

end Parts

variable (hE : m.engine.Unreliable schema storage) (hR : m.engine.Conserves storage R)

include hE hR

/-- A statement that neither commits nor releases. -/
theorem execute (c : ConnectionId) {statement : Statement} (hcommit : statement ≠ .commit)
    (hrelease : ∀ name, statement ≠ .release name) :
    Silent R (m.execute c statement : Action σ τ Unit) := by
  intro w
  have hrun : (m.execute c statement).perform w = (((m.execute c statement).perform w).1,
    ((m.execute c statement).perform w).2) := rfl
  refine Manager.conserved_execute hR hrun ?_
  rcases Manager.execute_cases hE c statement hrun with ⟨hstore, -⟩ | ⟨hstore, -⟩
  all_goals rw [hstore]
  exact (Storage.contents_execute schema.check c hrelease _).resolve_right fun h => hcommit h.1

/-- A statement that leaves transactions alone. -/
theorem prepare (c : ConnectionId) {statement : Statement} (h : statement.Prepares) :
    Silent R (m.execute c statement : Action σ τ Unit) := by
  rcases h with ⟨allowed, rfl⟩ | ⟨sql, rfl⟩
  · exact execute hE hR c nofun nofun
  · exact execute hE hR c nofun nofun

theorem totalChanges (c : ConnectionId) : Silent R (m.totalChanges c : Action σ τ Nat) := fun w =>
  hR.totalChanges c w.store (congrArg Storage.contents (Manager.storage_totalChanges hE c w))

/-- Giving a connection back takes back what is open on it. -/
theorem release (c : ConnectionId) (close : Bool) :
    Silent R (m.release c close : Action σ τ Unit) := fun w =>
  hR.release c close w.store (by rw [hE.release, Storage.contents_giveBack])

theorem ensureAccess (access : Access) (suspended : List Transaction) :
    Silent R (m.ensureAccess access suspended : Action σ τ Unit) :=
  (composable hR).ensureAccess (totalChanges hE hR) access suspended

variable (hd : m.dialect.Standard)

include hd

/-- Beginning a transaction. -/
theorem begin (isolation : Isolation) :
    Silent R (m.begin isolation : Action σ τ Transaction) := by
  have hbegin : ∀ c, Silent R (m.executeAll c (m.dialect.begin isolation) : Action σ τ Unit) := by
    intro c
    refine (composable hR).executeAll fun statement hs => ?_
    rcases hd.begin isolation statement hs with (rfl | rfl) | hprepares
    · exact execute hE hR c nofun nofun
    · exact execute hE hR c nofun nofun
    · exact prepare hE hR c hprepares
  refine (composable hR).bind (acquire hR) fun c => ?_
  refine (composable hR).outcome_bind ?_ (fun e => ?_) fun changes => ?_
  · exact (composable hR).bind (hbegin c) fun _ => totalChanges hE hR c
  · exact (composable hR).bind (release hE hR c true) fun _ => still hR fun _ => rfl
  · exact still hR fun _ => rfl

theorem cleaning (t : Transaction) :
    Silent R (m.executeAll t.connection (m.dialect.finish t.isolation) : Action σ τ Unit) :=
  (composable hR).executeAll fun statement hs =>
    prepare hE hR t.connection (hd.finish t.isolation statement hs)

theorem rollback (t : Transaction) : Silent R (m.rollback t : Action σ τ Unit) := by
  rw [Manager.rollback, hd.rollback]
  exact (composable hR).finish (execute hE hR t.connection nofun nofun)
    (still hR fun _ => rfl) (cleaning hE hR hd t) (still hR fun _ => rfl)

end Silent

/-! ## Ending a transaction without success -/

namespace Manager

open RowMapping.Action

variable {R : σ → σ → Prop} {t : Transaction} {w w' : World σ τ}

variable (hE : m.engine.Unreliable schema storage) (hR : m.engine.Conserves storage R)
  (hd : m.dialect.Standard)

include hE hR hd

/-- A COMMIT that fails publishes nothing. -/
theorem conserved_of_commit_error {e : Error} (h : (m.commit t).perform w = (.error e, w')) :
    R w.store w'.store := by
  rw [commit, hd.commit] at h
  rcases finish_error h with ⟨-, rfl⟩ | hrun
  · exact hR.refl _
  refine conserved_execute hR hrun ?_
  rcases execute_cases hE t.connection .commit hrun with ⟨hstore, hok⟩ | ⟨hstore, -⟩
  all_goals rw [hstore]
  -- what the storage commits is not reported as a failure
  have hrelease : ∀ name, Statement.commit ≠ .release name := nofun
  refine (Storage.contents_execute schema.check _ hrelease _).resolve_right fun h => ?_
  cases hok.mpr h.2

/-- Settling a transaction publishes nothing unless it succeeds. -/
theorem conserved_of_settle_error {result : Except Error ρ} {rollbackOnly : Bool} {e : Error}
    (h : (m.settle t result rollbackOnly).perform w = (.error e, w')) :
    R w.store w'.store := by
  have hback : Silent R (m.rollback t : Action σ τ Unit) := .rollback hE hR hd t
  have hcompleted : ∀ {e : Error} {w₁ : World σ τ},
      (m.complete t result rollbackOnly).perform w = (.error e, w₁) → R w.store w₁.store := by
    intro e w₁ hrun
    cases completeSteps hrun with
    | undone hrollback | notUndone hrollback | notDiscarded hrollback => exact hback.run hrollback
    | notCommitted hcommit hrollback =>
      exact hR.trans (conserved_of_commit_error hE hR hd hcommit) (hback.run hrollback)
  rw [perform_settle] at h
  rcases hrun : (m.complete t result rollbackOnly).perform w with ⟨r, w₁⟩
  rw [hrun] at h
  obtain ⟨rfl, rfl⟩ := Prod.mk.inj h
  -- giving the connection back takes back what is still open on it
  exact hR.trans (hcompleted hrun) (Silent.release hE hR t.connection (unfit t w₁) w₁)

end Manager

end RowMapping
