/-
What the actions of the manager leave alone.

Over any engine with a pool: which connections stay taken with their counts, and which
transactions keep their marks. Statements leave everything alone, whether they succeed
or fail. Beginning a transaction adds one on a connection nobody had, and settling it
touches its own connection only.
-/
import RowMapping.Proofs.Storage.EngineLaws
import RowMapping.Proofs.Transaction.Composition

set_option autoImplicit false

namespace RowMapping

variable {σ τ α ρ κ : Type} {P : Pool σ}

/-- Everything that was taken is left alone, but for the connections `mine`, and so are
the marks of all transactions. -/
structure Spares (P : Pool σ) (mine : ConnectionId → Prop) (w w' : World σ τ) : Prop where
  sound : P.sound w'.store
  taken : ∀ i, P.taken w.store i → ¬ mine i → P.taken w'.store i
  count : ∀ i, P.taken w.store i → ¬ mine i → P.count w'.store i = P.count w.store i
  written : ∀ i, i < w.nextTransaction → (w'.transactions i).written = (w.transactions i).written
  held : ∀ i, i < w.nextTransaction → (w'.transactions i).held = (w.transactions i).held
  numbers : w.nextTransaction ≤ w'.nextTransaction

namespace Spares

variable {mine : ConnectionId → Prop} {w w₁ w₂ w' : World σ τ}

theorem refl (h : P.sound w.store) : Spares P mine w w :=
  ⟨h, fun _ h _ => h, fun _ _ _ => rfl, fun _ _ => rfl, fun _ _ => rfl, Nat.le_refl _⟩

theorem trans (h₁ : Spares P mine w w₁) (h₂ : Spares P mine w₁ w₂) : Spares P mine w w₂ where
  sound := h₂.sound
  taken i hi hm := h₂.taken i (h₁.taken i hi hm) hm
  count i hi hm := (h₂.count i (h₁.taken i hi hm) hm).trans (h₁.count i hi hm)
  written i hi := (h₂.written i (Nat.lt_of_lt_of_le hi h₁.numbers)).trans (h₁.written i hi)
  held i hi := (h₂.held i (Nat.lt_of_lt_of_le hi h₁.numbers)).trans (h₁.held i hi)
  numbers := Nat.le_trans h₁.numbers h₂.numbers

theorem weaken {more : ConnectionId → Prop} (h : Spares P mine w w')
    (hmore : ∀ i, mine i → more i) : Spares P more w w' :=
  { h with
    taken := fun i hi hm => h.taken i hi fun h => hm (hmore i h)
    count := fun i hi hm => h.count i hi fun h => hm (hmore i h) }

/-- A connection that nobody had is not missed. -/
theorem of_fresh {c : ConnectionId} (h : Spares P (· = c) w w') (hfresh : ¬ P.taken w.store c) :
    Spares P (fun _ => False) w w' :=
  { h with
    taken := fun i hi _ => h.taken i hi fun heq => hfresh (heq ▸ hi)
    count := fun i hi _ => h.count i hi fun heq => hfresh (heq ▸ hi) }

theorem of_none (h : Spares P (fun _ => False) w w') : Spares P mine w w' :=
  h.weaken fun _ hf => hf.elim

/-- The storage moved, and the books did not. -/
theorem of_store {s : σ} (hs : P.Holds w.store s)
    (hcount : ∀ i, P.taken w.store i → ¬ mine i → P.count s i = P.count w.store i) :
    Spares P mine w { w with store := s } :=
  ⟨hs.sound, fun i hi _ => hs.taken i hi, hcount, fun _ _ => rfl, fun _ _ => rfl, Nat.le_refl _⟩

/-- Only the books moved, and no marks in them. -/
theorem of_books (hstore : w'.store = w.store) (hs : P.sound w.store)
    (hstate : ∀ i, (w'.transactions i).written = (w.transactions i).written
      ∧ (w'.transactions i).held = (w.transactions i).held)
    (hnext : w'.nextTransaction = w.nextTransaction) : Spares P mine w w' where
  sound := hstore ▸ hs
  taken i hi _ := hstore ▸ hi
  count i _ _ := by rw [hstore]
  written i _ := (hstate i).1
  held i _ := (hstate i).2
  numbers := Nat.le_of_eq hnext.symm

end Spares

/-- Work on a connection that stays taken, and whose count can only grow. -/
structure Works (P : Pool σ) (c : ConnectionId) (w w' : World σ τ) : Prop
    extends Spares P (· = c) w w' where
  still : P.taken w.store c → P.taken w'.store c
  grown : P.taken w.store c → P.count w.store c ≤ P.count w'.store c

namespace Works

variable {c : ConnectionId} {w w₁ w₂ w' : World σ τ}

theorem of_spares (h : Spares P (fun _ => False) w w') : Works P c w w' where
  toSpares := h.of_none
  still hc := h.taken c hc fun h => h
  grown hc := Nat.le_of_eq (h.count c hc fun h => h).symm

theorem trans (h₁ : Works P c w w₁) (h₂ : Works P c w₁ w₂) : Works P c w w₂ where
  toSpares := h₁.toSpares.trans h₂.toSpares
  still hc := h₂.still (h₁.still hc)
  grown hc := Nat.le_trans (h₁.grown hc) (h₂.grown (h₁.still hc))

end Works

/-! ## Quiet actions -/

/-- An action leaves everything alone that was taken. -/
def Quiet (P : Pool σ) (a : Action σ τ ρ) : Prop :=
  ∀ w : World σ τ, P.sound w.store → Spares P (fun _ => False) w (a.perform w).2

namespace Quiet

open RowMapping.Action

variable {a : Action σ τ ρ} {f : ρ → Action σ τ κ}

theorem run (ha : Quiet P a) {w w' : World σ τ} {r : Except Error ρ} (hw : P.sound w.store)
    (h : a.perform w = (r, w')) : Spares P (fun _ => False) w w' := by
  have hspares := ha w hw
  rw [h] at hspares
  exact hspares

theorem bind (ha : Quiet P a) (hf : ∀ x, Quiet P (f x)) : Quiet P (a >>= f) := by
  intro w hw
  rw [perform_bind]
  rcases hrun : a.perform w with ⟨e | x, w'⟩
  all_goals have h := ha.run hw hrun
  · exact h
  · exact h.trans (hf x w' h.sound)

theorem outcome (ha : Quiet P a) : Quiet P (Action.outcome a) := fun w hw => ha w hw

theorem still (h : ∀ w, (a.perform w).2 = w) : Quiet P a := by
  intro w hw
  rw [h w]
  exact .refl hw

theorem composable (P : Pool σ) : Composable (τ := τ) fun _ a => Quiet P a :=
  ⟨still, bind, outcome⟩

/-- Changing what is known about a transaction, but for its marks. -/
theorem modify (t : Transaction) (f : TransactionState → TransactionState)
    (hwritten : ∀ s, (f s).written = s.written) (hheld : ∀ s, (f s).held = s.held) :
    Quiet P (Action.change (World.modifyTransaction t f : World σ τ → World σ τ)) := by
  intro w hw
  refine .of_books rfl hw (fun i => ?_) rfl
  show ((w.modifyTransaction t f).transactions i).written = _
    ∧ ((w.modifyTransaction t f).transactions i).held = _
  by_cases h : i = t.id
  · rw [World.modifyTransaction]
    simp [h, hwritten, hheld]
  · simp [World.modifyTransaction, h]

end Quiet

namespace Manager

open RowMapping.Action

variable {m : Manager σ α}

/-! ## Statements -/

theorem quiet_execute (hE : m.engine.Pooled P) (c : ConnectionId) (statement : Statement) :
    Quiet P (τ := τ) (m.execute c statement) := by
  intro w hw
  rw [perform_execute]
  have hstore : Spares P (fun _ => False) w
      { w with store := (m.engine.execute c statement w.store).2 } :=
    .of_store (hE.execute c statement hw) fun i hi _ => hE.execute_count c statement hw hi
  exact hstore.trans (.of_books rfl hstore.sound (fun _ => ⟨rfl, rfl⟩) rfl)

theorem quiet_executeAll (hE : m.engine.Pooled P) (c : ConnectionId)
    (statements : List Statement) : Quiet P (τ := τ) (m.executeAll c statements) :=
  (Quiet.composable P).executeAll fun statement _ => quiet_execute hE c statement

theorem quiet_totalChanges (hE : m.engine.Pooled P) (c : ConnectionId) :
    Quiet P (τ := τ) (m.totalChanges c) := by
  intro w hw
  exact .of_store (hE.totalChanges c hw) fun i hi _ => hE.totalChanges_count c hw hi

theorem quiet_nextSavepoint (t : Transaction) : Quiet P (nextSavepoint t : Action σ τ String) :=
  (Quiet.composable P).nextSavepoint <| .modify t (fun s => { s with savepoints := s.savepoints + 1 })
    (fun _ => rfl) fun _ => rfl

theorem quiet_finish (hE : m.engine.Pooled P) (t : Transaction) (statement : Statement) :
    Quiet P (τ := τ) (m.finish t statement) :=
  (Quiet.composable P).finish (quiet_execute hE _ _)
    (.modify t (fun s => { s with finished := true }) (fun _ => rfl) fun _ => rfl)
    (quiet_executeAll hE _ _)
    (.modify t (fun s => { s with tainted := true }) (fun _ => rfl) fun _ => rfl)

theorem quiet_complete (hE : m.engine.Pooled P) (t : Transaction) (result : Except Error ρ)
    (rollbackOnly : Bool) : Quiet P (τ := τ) (m.complete t result rollbackOnly) :=
  (Quiet.composable P).complete (quiet_finish hE t _) (quiet_finish hE t _) result rollbackOnly

theorem quiet_leave (hE : m.engine.Pooled P) (t : Transaction) (name : String)
    (result : Except Error ρ) (rollbackOnly : Bool) :
    Quiet P (τ := τ) (m.leave t name result rollbackOnly) :=
  (Quiet.composable P).leave (quiet_execute hE _ _) (quiet_execute hE _ _) result rollbackOnly

/-! ## Connections -/

theorem spares_release (hE : m.engine.Pooled P) {c : ConnectionId} (close : Bool)
    {w : World σ τ} (hw : P.sound w.store) (hc : P.taken w.store c) :
    Spares P (· = c) w ((m.release c close).perform w).2 where
  sound := hE.released close hw hc
  taken _ hi hne := hE.release close hw hc hne hi
  count _ hi hne := hE.release_count close hw hc hne hi
  written _ _ := rfl
  held _ _ := rfl
  numbers := Nat.le_refl _

/-- A connection that was taken from the pool. -/
structure Obtains (P : Pool σ) (c : ConnectionId) (w w' : World σ τ) : Prop
    extends Spares P (fun _ => False) w w' where
  fresh : ¬ P.taken w.store c
  obtained : P.taken w'.store c

theorem quiet_acquire (hE : m.engine.Pooled P) : Quiet P (τ := τ) m.acquire := by
  intro w hw
  rw [perform_acquire]
  exact .of_store (hE.acquire hw) fun i hi _ => hE.acquire_count hw hi

theorem obtains_acquire (hE : m.engine.Pooled P) {c : ConnectionId} {w w' : World σ τ}
    (hw : P.sound w.store) (h : (m.acquire).perform w = (.ok c, w')) : Obtains P c w w' := by
  have hquiet := (quiet_acquire hE).run hw h
  rw [perform_acquire] at h
  obtain ⟨hresult, rfl⟩ := Prod.mk.inj h
  have hc : (m.engine.acquire w.store).1 = .ok c := by
    rcases hrun : (m.engine.acquire w.store).1 with e | i
    · rw [hrun] at hresult
      cases hresult
    · rw [hrun] at hresult
      exact congrArg Except.ok (Except.ok.inj hresult)
  obtain ⟨hfresh, htaken⟩ := hE.acquired hw hc
  exact { hquiet with fresh := hfresh, obtained := htaken }

/-- A connection that is obtained, worked on and given back leaves everybody else
alone. -/
theorem Obtains.returned (hE : m.engine.Pooled P) {c : ConnectionId} {w w₁ w₂ : World σ τ}
    (h : Obtains P c w w₁) (hworks : Works P c w₁ w₂) (close : Bool) :
    Spares P (fun _ => False) w ((m.release c close).perform w₂).2 := by
  have hback := spares_release (m := m) hE close hworks.sound (hworks.still h.obtained)
  exact ((h.toSpares.of_none.trans hworks.toSpares).trans hback).of_fresh h.fresh

/-- Operations that work on whatever connection they are given. -/
def OnlyWorks (P : Pool σ) (operation : ConnectionId → Action σ τ ρ) : Prop :=
  ∀ (c : ConnectionId) (w : World σ τ), P.sound w.store →
    Works P c w ((operation c).perform w).2

theorem quiet_runAlone (hE : m.engine.Pooled P) {operation : ConnectionId → Action σ τ ρ}
    (hop : OnlyWorks P operation) : Quiet P (m.runAlone operation) := by
  intro w hw
  rw [perform_runAlone]
  rcases hrun : (m.acquire).perform w with ⟨e | c, w₁⟩
  · exact (quiet_acquire hE).run hw hrun
  · have hobtained := obtains_acquire hE hw hrun
    exact hobtained.returned hE (hop c w₁ hobtained.sound) false

/-! ## Transactions -/

/-- A transaction that has just begun on a connection nobody had. -/
structure Begins (P : Pool σ) (m : Manager σ α) (isolation : Isolation) (w : World σ τ)
    (t : Transaction) (w' : World σ τ) : Prop extends Obtains P t.connection w w' where
  isolation_eq : t.isolation = isolation
  unused : w.nextTransaction ≤ t.id
  numbered : t.id < w'.nextTransaction
  counted : m.engine.Counting P → P.count w'.store t.connection = t.changesAtBegin
  state : w'.stateOf t = { written := m.dialect.locksOnBegin isolation }

/-- The marks of earlier transactions stay when another one is numbered. -/
theorem spares_enlist {w : World σ τ} (hw : P.sound w.store) (c : ConnectionId)
    (isolation : Isolation) (changes : Nat) :
    Spares P (fun _ => False) w ((m.enlist c isolation changes).perform w).2 := by
  have hstate : ∀ i, i < w.nextTransaction →
      ((m.enlist c isolation changes).perform w).2.transactions i = w.transactions i :=
    fun i hi => transactions_enlist m c isolation changes hi
  exact ⟨hw, fun _ h _ => h, fun _ _ _ => rfl, fun i hi => congrArg (·.written) (hstate i hi),
    fun i hi => congrArg (·.held) (hstate i hi), Nat.le_succ _⟩

/-- Either a transaction begins, or nobody notices. -/
theorem spares_begin (hE : m.engine.Pooled P) {isolation : Isolation} {w w' : World σ τ}
    {r : Except Error Transaction} (hw : P.sound w.store)
    (h : (m.begin isolation).perform w = (r, w')) :
    match r with
    | .ok t => Begins P m isolation w t w'
    | .error _ => Spares P (fun _ => False) w w' := by
  -- until it is numbered, a transaction that begins has its connection for itself
  have hobtained : ∀ {c : ConnectionId} {w₁ w₂ : World σ τ} {r : Except Error Unit},
      (m.acquire).perform w = (.ok c, w₁) →
      (m.executeAll c (m.dialect.begin isolation)).perform w₁ = (r, w₂) →
      Obtains P c w w₁ ∧ Spares P (fun _ => False) w₁ w₂ := by
    intro c w₁ w₂ r hacquire hrun
    have hobtained := obtains_acquire hE hw hacquire
    exact ⟨hobtained, (quiet_executeAll hE c _).run hobtained.sound hrun⟩
  cases beginSteps h with
  | unacquired hacquire => exact (quiet_acquire hE).run hw hacquire
  | refused hacquire hrun =>
    obtain ⟨hobtained, hstatements⟩ := hobtained hacquire hrun
    exact hobtained.returned hE (.of_spares hstatements) true
  | @uncounted c _ _ _ _ hacquire hrun hcount =>
    obtain ⟨hobtained, hstatements⟩ := hobtained hacquire hrun
    have hasked := hstatements.trans ((quiet_totalChanges hE c).run hstatements.sound hcount)
    exact hobtained.returned hE (.of_spares hasked) true
  | @begun c changes _ _ w₃ hacquire hrun hcount =>
    obtain ⟨hobtained, hstatements⟩ := hobtained hacquire hrun
    have hasked := hstatements.trans ((quiet_totalChanges hE c).run hstatements.sound hcount)
    have hall := (hobtained.toSpares.trans hasked).trans
      (spares_enlist (m := m) hasked.sound c isolation changes)
    have hcounted : m.engine.Counting P → P.count w₃.store c = changes := by
      intro hcounting
      rw [perform_totalChanges, hcounting.totalChanges_eq] at hcount
      cases hcount
      rfl
    exact { hall with
      fresh := hobtained.fresh
      obtained := hasked.taken c hobtained.obtained fun h => h
      isolation_eq := rfl
      unused := Nat.le_trans hobtained.numbers hasked.numbers
      numbered := Nat.lt_succ_self w₃.nextTransaction
      counted := hcounted
      state := stateOf_enlist m c isolation changes w₃ }

/-- The connection of a transaction that is settled is given back. -/
theorem spares_settle (hE : m.engine.Pooled P) {t : Transaction} {w : World σ τ}
    (hw : P.sound w.store) (ht : P.taken w.store t.connection) (result : Except Error ρ)
    (rollbackOnly : Bool) :
    Spares P (· = t.connection) w ((m.settle t result rollbackOnly).perform w).2 := by
  have hcomplete := quiet_complete hE t result rollbackOnly w hw
  rw [perform_settle, perform_dismiss]
  exact hcomplete.of_none.trans (spares_release hE _ hcomplete.sound
    (hcomplete.taken t.connection ht fun h => h))

theorem quiet_runImplicit (hE : m.engine.Pooled P) (isolation : Isolation)
    {operation : ConnectionId → Action σ τ ρ} (hop : OnlyWorks P operation) :
    Quiet P (m.runImplicit isolation operation) := by
  intro w hw
  rw [runImplicit, perform_bind]
  rcases hrun : (m.begin isolation).perform w with ⟨e | t, w₁⟩
  · exact spares_begin hE hw hrun
  · have hbegins : Begins P m isolation w t w₁ := spares_begin hE hw hrun
    have hworks := hop t.connection w₁ hbegins.sound
    have hsettle := spares_settle hE hworks.sound (hworks.still hbegins.obtained)
      ((operation t.connection).perform w₁).1 false
    dsimp only
    rw [perform_outcome_bind]
    exact ((hbegins.toSpares.of_none.trans hworks.toSpares).trans hsettle).of_fresh hbegins.fresh

/-! ## Attempts -/

theorem Begins.of_books {isolation : Isolation} {w w₁ w₂ : World σ τ} {t : Transaction}
    (h : Begins P m isolation w t w₁) (hstore : w₂.store = w₁.store)
    (hstate : w₂.transactions = w₁.transactions)
    (hnext : w₂.nextTransaction = w₁.nextTransaction) : Begins P m isolation w t w₂ where
  toSpares := h.toSpares.trans (.of_books hstore h.sound (fun i => by rw [hstate]; exact ⟨rfl, rfl⟩)
    hnext)
  fresh := h.fresh
  obtained := hstore ▸ h.obtained
  isolation_eq := h.isolation_eq
  unused := h.unused
  numbered := hnext ▸ h.numbered
  counted := hstore ▸ h.counted
  state := by rw [World.stateOf, hstate]; exact h.state

/-- What an attempt has opened is what it was to open. -/
def Opens (P : Pool σ) (m : Manager σ α) (w w' : World σ τ) : Opening → Opened → Prop
  | .own isolation, .own t _ => Begins P m isolation w t w'
  | .savepoint t, .savepoint u _ _ => u = t ∧ Spares P (fun _ => False) w w'
  | _, _ => False

theorem spares_openAttempt (hE : m.engine.Pooled P) {opening : Opening} {w w' : World σ τ}
    {r : Except Error Opened} (hw : P.sound w.store)
    (h : (m.openAttempt opening).perform w = (r, w')) :
    match r with
    | .ok o => Opens P m w w' opening o
    | .error _ => Spares P (fun _ => False) w w' := by
  -- naming a savepoint and setting it is noticed by nobody
  have hset : ∀ {t : Transaction} {w₁ : World σ τ} {r : Except Error Unit},
      (m.execute t.connection
          (m.dialect.savepoint ("sp_" ++ toString ((w.stateOf t).savepoints + 1)))).perform
        (w.modifyTransaction t fun s => { s with savepoints := s.savepoints + 1 }) = (r, w₁) →
      Spares P (fun _ => False) w w₁ := by
    intro t w₁ r hrun
    have hnamed := (quiet_nextSavepoint t).run hw (perform_nextSavepoint t w)
    exact hnamed.trans ((quiet_execute hE t.connection _).run hnamed.sound hrun)
  cases openSteps h with
  | notBegun hbegin => exact spares_begin hE hw hbegin
  | begun hbegin =>
    have hbegins : Begins P m _ w _ _ := spares_begin hE hw hbegin
    exact hbegins.of_books rfl rfl rfl
  | notSet hrun => exact hset hrun
  | set hrun =>
    have hspares := hset hrun
    exact ⟨rfl, hspares.trans (.of_books rfl hspares.sound (fun _ => ⟨rfl, rfl⟩) rfl)⟩

end Manager

end RowMapping
