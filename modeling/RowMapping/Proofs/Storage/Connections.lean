/-
What a storage keeps of a connection while others are at work.

Whatever runs on one connection moves that connection alone: the sessions of the
others stay, the pool stays, and if another connection holds the write lock, it
keeps it and what is committed does not change. `MovesOnly` says so, and there is
one lemma for each thing that can run on a connection.

The pool is sound when it lists connections that were opened, each of them once.
Taking a connection then gives one that nobody has, and giving it back makes it
free again.
-/
import RowMapping.Proofs.Storage.Statements

set_option autoImplicit false

namespace RowMapping

variable {δ : Type}

namespace Storage

/-! ## Sessions -/

@[simp] theorem sessions_setSession (c : ConnectionId) (session : Session δ) (s : Storage δ) :
    (s.setSession c session).sessions c = session := by
  simp [setSession]

theorem sessions_setSession_of_ne {c i : ConnectionId} (h : i ≠ c) (session : Session δ)
    (s : Storage δ) : (s.setSession c session).sessions i = s.sessions i := by
  simp [setSession, h]

/-- Unlocking changes nothing but the lock. -/
@[simp] theorem sessions_unlock (c : ConnectionId) (s : Storage δ) :
    (s.unlock c).sessions = s.sessions := by
  unfold unlock
  split <;> rfl

/-! ## Work on one connection -/

/-- Nothing moved but one connection. -/
structure MovesOnly (c : ConnectionId) (s s' : Storage δ) : Prop where
  sessions : ∀ i, i ≠ c → s'.sessions i = s.sessions i
  idle : s'.idle = s.idle
  next : s'.next = s.next
  closed : s'.closed = s.closed
  writer : ∀ i, i ≠ c → (s'.writer = some i ↔ s.writer = some i)
  locked : ∀ i, i ≠ c → s.writer = some i → s'.contents = s.contents ∧ s'.version = s.version

namespace MovesOnly

theorem refl (c : ConnectionId) (s : Storage δ) : MovesOnly c s s :=
  ⟨fun _ _ => rfl, rfl, rfl, rfl, fun _ _ => Iff.rfl, fun _ _ _ => ⟨rfl, rfl⟩⟩

theorem trans {c : ConnectionId} {s₁ s₂ s₃ : Storage δ} (h₁ : MovesOnly c s₁ s₂)
    (h₂ : MovesOnly c s₂ s₃) : MovesOnly c s₁ s₃ where
  sessions i hi := (h₂.sessions i hi).trans (h₁.sessions i hi)
  idle := h₂.idle.trans h₁.idle
  next := h₂.next.trans h₁.next
  closed := h₂.closed.trans h₁.closed
  writer i hi := (h₂.writer i hi).trans (h₁.writer i hi)
  locked i hi hw := by
    obtain ⟨hc₁, hv₁⟩ := h₁.locked i hi hw
    obtain ⟨hc₂, hv₂⟩ := h₂.locked i hi ((h₁.writer i hi).mpr hw)
    exact ⟨hc₂.trans hc₁, hv₂.trans hv₁⟩

end MovesOnly

theorem movesOnly_setSession (c : ConnectionId) (session : Session δ) (s : Storage δ) :
    MovesOnly c s (s.setSession c session) :=
  ⟨fun _ hi => sessions_setSession_of_ne hi session s, rfl, rfl, rfl, fun _ _ => Iff.rfl,
    fun _ _ _ => ⟨rfl, rfl⟩⟩

theorem movesOnly_setTransaction (c : ConnectionId) (t : Option (OpenTransaction δ))
    (s : Storage δ) : MovesOnly c s (s.setTransaction c t) :=
  movesOnly_setSession c _ s

theorem movesOnly_countChanges (c : ConnectionId) (rows : Nat) (s : Storage δ) :
    MovesOnly c s (s.countChanges c rows) :=
  movesOnly_setSession c _ s

theorem movesOnly_unlock (c : ConnectionId) (s : Storage δ) : MovesOnly c s (s.unlock c) := by
  unfold unlock
  split
  · rename_i h
    refine ⟨fun _ _ => rfl, rfl, rfl, rfl, fun i hi => ?_, fun _ _ _ => ⟨rfl, rfl⟩⟩
    simp [h, Ne.symm hi]
  · exact .refl c s

theorem movesOnly_discard (c : ConnectionId) (s : Storage δ) : MovesOnly c s (s.discard c) :=
  (movesOnly_setTransaction c none s).trans (movesOnly_unlock c _)

/-- A connection that finds the lock free for itself, or has it, moves nothing else
by taking it. -/
theorem movesOnly_lock {c : ConnectionId} {s : Storage δ} (h : s.lockedAgainst c = false) :
    MovesOnly c s { s with writer := some c } := by
  have hfree : ∀ i, i ≠ c → s.writer ≠ some i := by
    intro i hi hw
    simp [lockedAgainst, hw, hi] at h
  refine ⟨fun _ _ => rfl, rfl, rfl, rfl, fun i hi => ?_, fun i hi hw => absurd hw (hfree i hi)⟩
  simp [hfree i hi, Ne.symm hi]

/-- Publishing moves nothing else as long as nobody else has the lock. -/
theorem movesOnly_publish {c : ConnectionId} {s : Storage δ} (h : s.lockedAgainst c = false)
    (contents : δ) (dirty : Bool) : MovesOnly c s (s.publish contents dirty) := by
  refine ⟨fun _ _ => rfl, rfl, rfl, rfl, fun _ _ => Iff.rfl, fun i hi hw => ?_⟩
  simp [lockedAgainst, hw, hi] at h

theorem lockedAgainst_of_writer {c : ConnectionId} {s : Storage δ} (h : s.writer = some c) :
    s.lockedAgainst c = false := by
  simp [lockedAgainst, h]

/-! ## Reads and writes -/

theorem movesOnly_look (c : ConnectionId) (s : Storage δ) : MovesOnly c s (s.look c).2 := by
  unfold look
  split
  · exact .refl c s
  · exact movesOnly_setTransaction c _ s

theorem movesOnly_select (schema : Schema δ) (c : ConnectionId) (sql : String)
    (cells : List Cell) (s : Storage δ) : MovesOnly c s (s.select schema c sql cells).2 :=
  movesOnly_look c s

theorem Written.movesOnly {schema : Schema δ} {c : ConnectionId} {sql : String}
    {cells : List Cell} {s : Storage δ} {r : Except DriverError UpdateResult × Storage δ}
    (h : Written schema c sql cells s r) : MovesOnly c s r.2 := by
  have hlook := movesOnly_look c s
  have hlock : s.lockedAgainst c = false → MovesOnly c s { (s.look c).2 with writer := some c } :=
    fun hfree => hlook.trans (movesOnly_lock ((lockedAgainst_look c s).trans hfree))
  cases h with
  | refused => exact hlook
  | failed _ hfree => exact hlock hfree
  | changed _ hfree =>
    exact ((hlock hfree).trans (movesOnly_setTransaction c _ _)).trans (movesOnly_countChanges c _ _)
  | published _ hfree => exact (movesOnly_publish hfree _ _).trans (movesOnly_countChanges c _ _)

theorem movesOnly_update (schema : Schema δ) (c : ConnectionId) (sql : String)
    (cells : List Cell) (s : Storage δ) : MovesOnly c s (s.update schema c sql cells).2 :=
  (written schema c sql cells s).movesOnly

/-! ## Statements -/

theorem Committed.movesOnly {check : δ → Except DriverError Unit} {c : ConnectionId}
    {t : OpenTransaction δ} {s : Storage δ} {r : Except DriverError Unit × Storage δ}
    (h : Committed check c t s r) : MovesOnly c s r.2 := by
  cases h with
  | refused => exact .refl c s
  | published _ hwriter =>
    exact (movesOnly_publish (lockedAgainst_of_writer hwriter) _ _).trans (movesOnly_discard c _)
  | dropped => exact movesOnly_discard c s

theorem Executed.movesOnly {check : δ → Except DriverError Unit} {c : ConnectionId}
    {statement : Statement} {s : Storage δ} {r : Except DriverError Unit × Storage δ}
    (h : Executed check c s statement r) : MovesOnly c s r.2 := by
  cases h with
  | refused => exact .refl c s
  | begun => exact movesOnly_setTransaction c _ s
  | locked _ hfree => exact (movesOnly_setTransaction c _ s).trans (movesOnly_lock hfree)
  | allowed => exact movesOnly_setSession c _ s
  | committed _ h => exact h.movesOnly
  | rolledBack => exact movesOnly_discard c s
  | marked => exact movesOnly_setTransaction c _ s
  | wentBack => exact movesOnly_setTransaction c _ s
  | released => exact movesOnly_setTransaction c _ s
  | ended _ _ _ h => exact h.movesOnly

/-- Whatever a statement does, it moves only the connection it runs on. -/
theorem movesOnly_execute (check : δ → Except DriverError Unit) (c : ConnectionId)
    (statement : Statement) (s : Storage δ) :
    MovesOnly c s (s.execute check c statement).2 :=
  (executed check c statement s).movesOnly

/-! ## The pool -/

/-- A connection is taken when it was opened and is not in the pool. One that is
closed stays taken, so it is never handed out again. -/
def Taken (s : Storage δ) (c : ConnectionId) : Prop := c < s.next ∧ c ∉ s.idle

/-- The pool lists opened connections, each of them once. -/
structure SoundPool (s : Storage δ) : Prop where
  nodup : s.idle.Nodup
  opened : ∀ c ∈ s.idle, c < s.next

namespace MovesOnly

variable {c : ConnectionId} {s s' : Storage δ}

theorem taken (h : MovesOnly c s s') (i : ConnectionId) : s'.Taken i ↔ s.Taken i := by
  rw [Taken, Taken, h.next, h.idle]

theorem soundPool (h : MovesOnly c s s') (hs : s.SoundPool) : s'.SoundPool :=
  ⟨h.idle ▸ hs.nodup, by rw [h.idle, h.next]; exact hs.opened⟩

end MovesOnly

/-- Taking a connection: the pool hands out one that is free, and nothing else
changes. -/
structure Acquires (c : ConnectionId) (s s' : Storage δ) : Prop where
  fresh : ¬ s.Taken c
  taken : ∀ i, s'.Taken i ↔ i = c ∨ s.Taken i
  sound : s'.SoundPool
  sessions : s'.sessions = s.sessions
  contents : s'.contents = s.contents
  version : s'.version = s.version
  writer : s'.writer = s.writer
  closed : s'.closed = s.closed
  next : s.next ≤ s'.next

/-- Only a closed storage refuses a connection. -/
theorem acquire_eq {s : Storage δ} (hs : s.SoundPool) :
    (s.closed = true ∧ s.acquire = (.error .closed, s)) ∨
      ∃ c s', s.closed = false ∧ s.acquire = (.ok c, s') ∧ Acquires c s s' := by
  rcases hclosed : s.closed with _ | _
  · right
    rcases hidle : s.idle with _ | ⟨c, idle⟩
    · -- a new connection is opened when the pool is empty
      refine ⟨s.next, { s with next := s.next + 1 }, rfl, by simp [acquire, hclosed, hidle], ?_⟩
      refine ⟨fun h => absurd h.1 (Nat.lt_irrefl _), fun i => ?_, ⟨hs.nodup, fun i hi => ?_⟩, rfl,
        rfl, rfl, rfl, rfl, Nat.le_succ _⟩
      · simp only [Taken, hidle, List.not_mem_nil, not_false_eq_true, and_true]
        exact Nat.lt_succ_iff_lt_or_eq.trans or_comm
      · exact Nat.lt_succ_of_lt (hs.opened i hi)
    · -- otherwise the first idle one is handed out, and it is not in the rest of the pool
      have hnodup := hs.nodup
      rw [hidle] at hnodup
      refine ⟨c, { s with idle := idle }, rfl, by simp [acquire, hclosed, hidle], ?_⟩
      refine ⟨fun h => h.2 (by simp [hidle]), fun i => ?_,
        ⟨(List.nodup_cons.mp hnodup).2, fun i hi => hs.opened i (by simp [hidle, hi])⟩, rfl, rfl,
        rfl, rfl, rfl, Nat.le_refl _⟩
      have hc : c < s.next := hs.opened c (by simp [hidle])
      have hnot : c ∉ idle := (List.nodup_cons.mp hnodup).1
      simp only [Taken, hidle, List.mem_cons, not_or]
      constructor
      · rintro ⟨hlt, hni⟩
        by_cases hi : i = c
        · exact .inl hi
        · exact .inr ⟨hlt, hi, hni⟩
      · rintro (rfl | ⟨hlt, -, hni⟩)
        · exact ⟨hc, hnot⟩
        · exact ⟨hlt, hni⟩
  · exact .inl ⟨rfl, by simp [acquire, hclosed]⟩

/-! ## What others keep -/

/-- Connections that were taken and are not among `mine` are kept as they were: they
stay taken, with their sessions, and with the write lock if one of them has it. -/
structure Keeps (mine : ConnectionId → Prop) (s s' : Storage δ) : Prop where
  taken : ∀ c, s.Taken c → ¬ mine c → s'.Taken c
  sessions : ∀ c, s.Taken c → ¬ mine c → s'.sessions c = s.sessions c
  writer : ∀ c, s.Taken c → ¬ mine c → (s'.writer = some c ↔ s.writer = some c)
  locked : ∀ c, s.Taken c → ¬ mine c → s.writer = some c →
    s'.contents = s.contents ∧ s'.version = s.version

theorem Keeps.refl (mine : ConnectionId → Prop) (s : Storage δ) : Keeps mine s s :=
  ⟨fun _ h _ => h, fun _ _ _ => rfl, fun _ _ _ => Iff.rfl, fun _ _ _ _ => ⟨rfl, rfl⟩⟩

/-- What is kept twice is kept. It is enough that nobody outside of `mine` who was
there from the start is concerned by one of the two. -/
theorem Keeps.trans {mine first second : ConnectionId → Prop} {s₁ s₂ s₃ : Storage δ}
    (h₁ : Keeps first s₁ s₂) (h₂ : Keeps second s₂ s₃)
    (h : ∀ c, s₁.Taken c → ¬ mine c → ¬ first c ∧ ¬ second c) : Keeps mine s₁ s₃ where
  taken c hc hm := h₂.taken c (h₁.taken c hc (h c hc hm).1) (h c hc hm).2
  sessions c hc hm := by
    obtain ⟨hf, hs⟩ := h c hc hm
    rw [h₂.sessions c (h₁.taken c hc hf) hs, h₁.sessions c hc hf]
  writer c hc hm := by
    obtain ⟨hf, hs⟩ := h c hc hm
    rw [h₂.writer c (h₁.taken c hc hf) hs, h₁.writer c hc hf]
  locked c hc hm hw := by
    obtain ⟨hf, hs⟩ := h c hc hm
    obtain ⟨hc₁, hv₁⟩ := h₁.locked c hc hf hw
    obtain ⟨hc₂, hv₂⟩ := h₂.locked c (h₁.taken c hc hf) hs ((h₁.writer c hc hf).mpr hw)
    exact ⟨hc₂.trans hc₁, hv₂.trans hv₁⟩

theorem MovesOnly.keeps {c : ConnectionId} {s s' : Storage δ} (h : MovesOnly c s s') :
    Keeps (· = c) s s' where
  taken i hi _ := (h.taken i).mpr hi
  sessions i _ hi := h.sessions i hi
  writer i _ hi := h.writer i hi
  locked i _ hi hw := h.locked i hi hw

theorem Acquires.keeps {c : ConnectionId} {s s' : Storage δ} (h : Acquires c s s') :
    Keeps (fun _ => False) s s' where
  taken i hi _ := (h.taken i).mpr (.inr hi)
  sessions i _ _ := congrFun h.sessions i
  writer i _ _ := by rw [h.writer]
  locked _ _ _ _ := ⟨h.contents, h.version⟩

/-! ## Giving back -/

theorem taken_giveBack {c i : ConnectionId} {s : Storage δ} (h : i ≠ c) (close : Bool) :
    (s.giveBack c close).Taken i ↔ s.Taken i := by
  unfold giveBack
  split
  · exact ((movesOnly_discard c s).trans (movesOnly_setSession c _ _)).taken i
  · simp [Taken, h]

/-- Giving a connection back leaves the pool sound. -/
theorem soundPool_giveBack {c : ConnectionId} {s : Storage δ} (hs : s.SoundPool)
    (hc : s.Taken c) (close : Bool) : (s.giveBack c close).SoundPool := by
  unfold giveBack
  split
  · exact ((movesOnly_discard c s).trans (movesOnly_setSession c _ _)).soundPool hs
  · refine ⟨List.nodup_append.mpr ⟨hs.nodup, by simp, ?_⟩, fun i hi => ?_⟩
    · intro a ha b hb
      rw [List.mem_singleton] at hb
      rintro rfl
      exact hc.2 (hb ▸ ha)
    · rcases List.mem_append.mp hi with h | h
      · exact hs.opened i h
      · exact (List.mem_singleton.mp h) ▸ hc.1

theorem keeps_giveBack (c : ConnectionId) (close : Bool) (s : Storage δ) :
    Keeps (· = c) s (s.giveBack c close) := by
  rcases close with _ | _
  · exact ⟨fun i hi hne => (taken_giveBack hne false).mpr hi, fun _ _ _ => rfl,
      fun _ _ _ => Iff.rfl, fun _ _ _ _ => ⟨rfl, rfl⟩⟩
  · exact ((movesOnly_discard c s).trans (movesOnly_setSession c {} _)).keeps

/-! ## Tidy storages -/

/-- An open storage with nothing left over: connections that nobody has taken have no
transaction and do not hold the lock. -/
structure Tidy (s : Storage δ) : Prop where
  pool : s.SoundPool
  isOpen : s.closed = false
  vacant : ∀ c, ¬ s.Taken c → (s.sessions c).transaction = none
  owned : ∀ c, s.writer = some c → s.Taken c

namespace Tidy

variable {c : ConnectionId} {s s' : Storage δ}

/-- Work on a connection that is taken leaves the storage tidy. -/
theorem of_movesOnly (hs : s.Tidy) (hc : s.Taken c) (h : MovesOnly c s s') : s'.Tidy where
  pool := h.soundPool hs.pool
  isOpen := h.closed.trans hs.isOpen
  vacant i hi := by
    rw [h.taken] at hi
    have hne : i ≠ c := fun heq => hi (heq ▸ hc)
    rw [h.sessions i hne, hs.vacant i hi]
  owned i hw := by
    rw [h.taken]
    by_cases hi : i = c
    · exact hi ▸ hc
    · exact hs.owned i ((h.writer i hi).mp hw)

/-- A tidy storage hands out a connection with nothing open on it, and stays tidy. -/
theorem acquire (hs : s.Tidy) : ∃ c s', s.acquire = (.ok c, s') ∧ Acquires c s s' ∧ s'.Tidy := by
  rcases acquire_eq hs.pool with ⟨hclosed, -⟩ | ⟨c, s', -, hrun, h⟩
  · rw [hs.isOpen] at hclosed
    exact absurd hclosed (by simp)
  refine ⟨c, s', hrun, h, h.sound, h.closed.trans hs.isOpen, fun i hi => ?_, fun i hw => ?_⟩
  · rw [h.sessions]
    exact hs.vacant i fun ht => hi ((h.taken i).mpr (.inr ht))
  · exact (h.taken i).mpr (.inr (hs.owned i (h.writer ▸ hw)))

/-- A connection that is given back with nothing open on it leaves the storage tidy,
and goes to the end of the pool. -/
theorem giveBack (hs : s.Tidy) (hc : s.Taken c) (hvacant : (s.sessions c).transaction = none)
    (hwriter : s.writer ≠ some c) : (s.giveBack c false).Tidy := by
  refine ⟨soundPool_giveBack hs.pool hc false, hs.isOpen, fun i hi => ?_, fun i hw => ?_⟩
  · by_cases hne : i = c
    · exact hne ▸ hvacant
    · exact hs.vacant i fun ht => hi ((taken_giveBack hne false).mpr ht)
  · have hne : i ≠ c := fun heq => hwriter (heq ▸ hw)
    exact (taken_giveBack hne false).mpr (hs.owned i hw)

end Tidy

end Storage

end RowMapping
