/-
What is assumed of a storage engine.

A connection that is taken is handed to nobody else and stays taken until it is given
back. A counting engine also tells how many rows were changed through each connection.
Nothing is said about what statements do or whether they succeed. The snapshot storage
keeps these laws.
-/
import RowMapping.Proofs.Storage.Connections

set_option autoImplicit false

namespace RowMapping

variable {σ δ : Type}

/-! ## Laws -/

/-- The rows a write reports. -/
def rowsOf : Except DriverError UpdateResult → Nat
  | .ok result => result.rowsAffected
  | .error _ => 0

/-- How the state of an engine is read: whether its pool is in order, which connections
are taken, and how many rows were changed through each of them. -/
structure Pool (σ : Type) where
  sound : σ → Prop
  taken : σ → ConnectionId → Prop
  count : σ → ConnectionId → Nat := fun _ _ => 0

/-- From one state to another one, taken connections stay taken. -/
structure Pool.Holds (P : Pool σ) (s s' : σ) : Prop where
  sound : P.sound s'
  taken : ∀ i, P.taken s i → P.taken s' i

/-- Connections that are taken stay with those who took them, in every sound state, and
only writing on a connection changes its count. -/
structure Engine.Pooled (E : Engine σ) (P : Pool σ) : Prop where
  acquired : ∀ {s c}, P.sound s → (E.acquire s).1 = .ok c →
    ¬ P.taken s c ∧ P.taken (E.acquire s).2 c
  acquire : ∀ {s}, P.sound s → P.Holds s (E.acquire s).2
  execute : ∀ {s} (c : ConnectionId) (statement : Statement), P.sound s →
    P.Holds s (E.execute c statement s).2
  update : ∀ {s} (c : ConnectionId) (sql : String) (cells : List Cell), P.sound s →
    P.Holds s (E.update c sql cells s).2
  select : ∀ {s} (c : ConnectionId) (sql : String) (cells : List Cell), P.sound s →
    P.Holds s (E.select c sql cells s).2
  totalChanges : ∀ {s} (c : ConnectionId), P.sound s → P.Holds s (E.totalChanges c s).2
  released : ∀ {s c} (close : Bool), P.sound s → P.taken s c → P.sound (E.release c close s)
  release : ∀ {s c i} (close : Bool), P.sound s → P.taken s c → i ≠ c → P.taken s i →
    P.taken (E.release c close s) i
  acquire_count : ∀ {s i}, P.sound s → P.taken s i → P.count (E.acquire s).2 i = P.count s i
  execute_count : ∀ {s i} (c : ConnectionId) (statement : Statement), P.sound s → P.taken s i →
    P.count (E.execute c statement s).2 i = P.count s i
  update_count : ∀ {s i c} (sql : String) (cells : List Cell), P.sound s → P.taken s i → i ≠ c →
    P.count (E.update c sql cells s).2 i = P.count s i
  update_grown : ∀ {s c} (sql : String) (cells : List Cell), P.sound s → P.taken s c →
    P.count s c ≤ P.count (E.update c sql cells s).2 c
  select_count : ∀ {s i} (c : ConnectionId) (sql : String) (cells : List Cell), P.sound s →
    P.taken s i → P.count (E.select c sql cells s).2 i = P.count s i
  totalChanges_count : ∀ {s i} (c : ConnectionId), P.sound s → P.taken s i →
    P.count (E.totalChanges c s).2 i = P.count s i
  release_count : ∀ {s c i} (close : Bool), P.sound s → P.taken s c → i ≠ c → P.taken s i →
    P.count (E.release c close s) i = P.count s i

/-- The count of a connection is that of the rows changed through it. Asking for it
succeeds and changes nothing. -/
structure Engine.Counting (E : Engine σ) (P : Pool σ) : Prop extends E.Pooled P where
  update_rows : ∀ {s c} (sql : String) (cells : List Cell), P.sound s → P.taken s c →
    P.count (E.update c sql cells s).2 c = P.count s c + rowsOf (E.update c sql cells s).1
  totalChanges_eq : ∀ (s : σ) (c : ConnectionId), E.totalChanges c s = (.ok (P.count s c), s)

/-! ## The snapshot storage -/

namespace Storage

theorem changes_discard (c : ConnectionId) (s : Storage δ) :
    ((s.discard c).sessions c).changes = (s.sessions c).changes := by
  rw [discard, sessions_unlock]
  simp [setTransaction]

/-- No statement about transactions counts as a change of rows. -/
theorem Executed.changes {check : δ → Except DriverError Unit} {c : ConnectionId}
    {statement : Statement} {s : Storage δ} {r : Except DriverError Unit × Storage δ}
    (h : Executed check c s statement r) : (r.2.sessions c).changes = (s.sessions c).changes := by
  have hset : ∀ t, ((s.setTransaction c t).sessions c).changes = (s.sessions c).changes :=
    fun t => by simp [setTransaction]
  have hcommitted : ∀ {t}, Committed check c t s r →
      (r.2.sessions c).changes = (s.sessions c).changes := by
    intro t h
    cases h with
    | refused => rfl
    | published => exact changes_discard c _
    | dropped => exact changes_discard c s
  cases h with
  | refused => rfl
  | begun => exact hset _
  | locked => exact hset _
  | allowed => rw [sessions_setSession]
  | committed _ h => exact hcommitted h
  | rolledBack => exact changes_discard c s
  | marked => exact hset _
  | wentBack => exact hset _
  | released => exact hset _
  | ended _ _ _ h => exact hcommitted h

theorem changes_look (c : ConnectionId) (s : Storage δ) :
    ((s.look c).2.sessions c).changes = (s.sessions c).changes := by
  rcases ht : (s.sessions c).transaction with _ | t
  · rw [look_closed ht]
  · rw [look_within ht]
    simp [setTransaction]

/-- A write counts the rows it reports. -/
theorem Written.changes {schema : Schema δ} {c : ConnectionId} {sql : String} {cells : List Cell}
    {s : Storage δ} {r : Except DriverError UpdateResult × Storage δ}
    (h : Written schema c sql cells s r) :
    (r.2.sessions c).changes = (s.sessions c).changes + rowsOf r.1 := by
  cases h with
  | refused => exact changes_look c s
  | failed => exact changes_look c s
  | changed => simp [countChanges, setTransaction, rowsOf, changes_look]
  | published => simp [countChanges, publish, rowsOf]

/-- The connections of a storage. -/
def pool : Pool (Storage δ) where
  sound := SoundPool
  taken := Taken
  count s c := (s.sessions c).changes

theorem MovesOnly.holds {c : ConnectionId} {s s' : Storage δ} (h : MovesOnly c s s')
    (hs : s.SoundPool) : pool.Holds s s' :=
  ⟨h.soundPool hs, fun i hi => (h.taken i).mpr hi⟩

theorem counting_engine (schema : Schema δ) : (engine schema).Counting pool where
  acquired {s c} hs hc := by
    have hc' : s.acquire.1 = .ok c := hc
    rcases acquire_eq hs with ⟨-, h⟩ | ⟨i, s', -, h, hi⟩
    · rw [h] at hc'
      cases hc'
    · rw [h] at hc'
      cases hc'
      refine ⟨hi.fresh, ?_⟩
      show s.acquire.2.Taken c
      rw [h]
      exact (hi.taken c).mpr (.inl rfl)
  acquire {s} hs := by
    show pool.Holds s s.acquire.2
    rcases acquire_eq hs with ⟨-, h⟩ | ⟨i, s', -, h, hi⟩
    · rw [h]
      exact ⟨hs, fun _ h => h⟩
    · rw [h]
      exact ⟨hi.sound, fun j hj => (hi.taken j).mpr (.inr hj)⟩
  execute c statement hs := (movesOnly_execute schema.check c statement _).holds hs
  update c sql cells hs := (movesOnly_update schema c sql cells _).holds hs
  select c sql cells hs := (movesOnly_select schema c sql cells _).holds hs
  totalChanges c hs := ⟨hs, fun _ h => h⟩
  released close hs hc := soundPool_giveBack hs hc close
  release close _ _ hne hi := (taken_giveBack hne close).mpr hi
  acquire_count {s i} hs hi := by
    show (s.acquire.2.sessions i).changes = (s.sessions i).changes
    rcases acquire_eq hs with ⟨-, h⟩ | ⟨c, s', -, h, hc⟩
    · rw [h]
    · rw [h]
      exact congrArg (fun sessions => (sessions i).changes) hc.sessions
  execute_count {s i} c statement _ _ := by
    show ((s.execute schema.check c statement).2.sessions i).changes = (s.sessions i).changes
    by_cases hne : i = c
    · rw [hne, (executed schema.check c statement s).changes]
    · rw [(movesOnly_execute schema.check c statement s).sessions i hne]
  update_count {s i c} sql cells _ _ hne := by
    show ((s.update schema c sql cells).2.sessions i).changes = (s.sessions i).changes
    rw [(movesOnly_update schema c sql cells s).sessions i hne]
  -- the only count that moves is that of the connection written on
  update_grown {s c} sql cells _ _ := by
    show (s.sessions c).changes ≤ ((s.update schema c sql cells).2.sessions c).changes
    rw [(written schema c sql cells s).changes]
    exact Nat.le_add_right _ _
  select_count {s i} c sql cells _ _ := by
    show ((s.look c).2.sessions i).changes = (s.sessions i).changes
    by_cases hne : i = c
    · rw [hne, changes_look]
    · rw [(movesOnly_look c s).sessions i hne]
  totalChanges_count _ _ _ := rfl
  release_count {s c i} close _ _ hne _ := by
    show ((s.giveBack c close).sessions i).changes = (s.sessions i).changes
    rcases close with _ | _
    · rfl
    · have h := (movesOnly_discard c s).trans (movesOnly_setSession c {} _)
      exact congrArg (·.changes) (h.sessions i hne)
  update_rows {s c} sql cells _ _ := (written schema c sql cells s).changes
  totalChanges_eq _ _ := rfl

end Storage

end RowMapping
