/-
Connections at rest.

A connection is at rest when nothing is open on it and its settings are the default
ones. What runs on a connection keeps its settings, unless it is the statement that
changes them, and the write lock is only ever held by a connection with a transaction
open on it. So a connection on which nothing is open can be given back as it is.

A transaction that was begun as such, not by a savepoint, stays open until it is ended,
and until then nothing of it is committed.
-/
import RowMapping.Proofs.Storage.Connections

set_option autoImplicit false

namespace RowMapping

variable {δ : Type}

/-- Nothing is open on a connection, and its settings are the default ones. -/
structure Session.AtRest (x : Session δ) : Prop where
  transaction : x.transaction = none
  settings : x.readUncommitted = false

namespace Storage

/-- A transaction is open on a connection that no savepoint has begun. -/
def Opened (s : Storage δ) (c : ConnectionId) : Prop :=
  ∃ t, (s.sessions c).transaction = some t ∧ t.bySavepoint = false

/-- If a connection holds the write lock, a transaction is open on it. -/
def LocksWithin (s : Storage δ) (c : ConnectionId) : Prop :=
  s.writer = some c → (s.sessions c).transaction ≠ none

variable {c : ConnectionId} {s s' : Storage δ}

theorem Opened.bySavepoint {t : OpenTransaction δ} (h : s.Opened c)
    (ht : (s.sessions c).transaction = some t) : t.bySavepoint = false := by
  obtain ⟨u, hu, hby⟩ := h
  cases ht.symm.trans hu
  exact hby

theorem not_opened (hnone : (s.sessions c).transaction = none) : ¬ s.Opened c := by
  rintro ⟨t, ht, -⟩
  cases hnone.symm.trans ht

/-! ## What runs on a connection -/

/-- Work on a connection that keeps its settings. -/
structure Behaves (c : ConnectionId) (s s' : Storage δ) : Prop extends MovesOnly c s s' where
  settings : (s'.sessions c).readUncommitted = (s.sessions c).readUncommitted
  locks : s.LocksWithin c → s'.LocksWithin c

theorem Behaves.refl (c : ConnectionId) (s : Storage δ) : Behaves c s s :=
  { MovesOnly.refl c s with settings := rfl, locks := fun h => h }

theorem Behaves.trans {c : ConnectionId} {s₁ s₂ s₃ : Storage δ} (h₁ : Behaves c s₁ s₂)
    (h₂ : Behaves c s₂ s₃) : Behaves c s₁ s₃ :=
  { h₁.toMovesOnly.trans h₂.toMovesOnly with
    settings := h₂.settings.trans h₁.settings
    locks := fun h => h₂.locks (h₁.locks h) }

/-- Work in a transaction that stays open, and of which nothing is committed. -/
structure Stays (c : ConnectionId) (s s' : Storage δ) : Prop where
  opened : s.Opened c → s'.Opened c
  contents : s.Opened c → s'.contents = s.contents

theorem Stays.refl (c : ConnectionId) (s : Storage δ) : Stays c s s := ⟨fun h => h, fun _ => rfl⟩

theorem Stays.trans {c : ConnectionId} {s₁ s₂ s₃ : Storage δ} (h₁ : Stays c s₁ s₂)
    (h₂ : Stays c s₂ s₃) : Stays c s₁ s₃ where
  opened h := h₂.opened (h₁.opened h)
  contents h := (h₂.contents (h₁.opened h)).trans (h₁.contents h)

/-- Where no transaction was begun as such, none has to stay. -/
theorem Stays.of_not_opened (h : ¬ s.Opened c) : Stays c s s' :=
  ⟨fun ho => absurd ho h, fun ho => absurd ho h⟩

theorem Stays.of_transaction {t : OpenTransaction δ} (ht : (s'.sessions c).transaction = some t)
    (hby : s.Opened c → t.bySavepoint = false) (hcontents : s'.contents = s.contents) :
    Stays c s s' :=
  ⟨fun ho => ⟨t, ht, hby ho⟩, fun _ => hcontents⟩

theorem behaves_setTransaction (c : ConnectionId) (t : OpenTransaction δ) (s : Storage δ) :
    Behaves c s (s.setTransaction c (some t)) :=
  { movesOnly_setTransaction c (some t) s with
    settings := by simp [setTransaction]
    locks := fun _ _ => by simp [setTransaction] }

theorem stays_setTransaction {t : OpenTransaction δ} (h : s.Opened c → t.bySavepoint = false) :
    Stays c s (s.setTransaction c (some t)) :=
  .of_transaction (by simp [setTransaction]) h rfl

theorem behaves_countChanges (c : ConnectionId) (rows : Nat) (s : Storage δ) :
    Behaves c s (s.countChanges c rows) :=
  { movesOnly_countChanges c rows s with
    settings := by simp [countChanges]
    locks := fun h hw => by
      have hopen := h hw
      simpa [countChanges] using hopen }

/-- The lock is taken in a transaction. -/
theorem behaves_lock (hopen : (s.sessions c).transaction ≠ none)
    (hfree : s.lockedAgainst c = false) : Behaves c s { s with writer := some c } :=
  { movesOnly_lock hfree with settings := rfl, locks := fun _ _ => hopen }

theorem behaves_publish (hfree : s.lockedAgainst c = false) (contents : δ) (dirty : Bool) :
    Behaves c s (s.publish contents dirty) :=
  { movesOnly_publish hfree contents dirty with settings := rfl, locks := fun h => h }

/-- Once its transaction is gone a connection does not hold the lock. -/
theorem writer_discard (c : ConnectionId) (s : Storage δ) : (s.discard c).writer ≠ some c := by
  unfold discard unlock
  split
  · simp
  · assumption

theorem transaction_discard (c : ConnectionId) (s : Storage δ) :
    ((s.discard c).sessions c).transaction = none := by
  simp [discard, setTransaction]

theorem contents_discard (c : ConnectionId) (s : Storage δ) :
    (s.discard c).contents = s.contents := by
  unfold discard unlock
  split <;> rfl

theorem behaves_discard (c : ConnectionId) (s : Storage δ) : Behaves c s (s.discard c) :=
  { movesOnly_discard c s with
    settings := by simp [discard, setTransaction]
    locks := fun _ hw => absurd hw (writer_discard c s) }

/-! ## Reads and writes -/

theorem behaves_look (c : ConnectionId) (s : Storage δ) : Behaves c s (s.look c).2 := by
  rcases ht : (s.sessions c).transaction with _ | t
  · rw [look_closed ht]
    exact .refl c s
  · rw [look_within ht]
    exact behaves_setTransaction c _ s

theorem closed_look (h : (s.sessions c).transaction = none) :
    ((s.look c).2.sessions c).transaction = none := by
  rwa [look_closed h]

theorem stays_look (c : ConnectionId) (s : Storage δ) : Stays c s (s.look c).2 := by
  rcases ht : (s.sessions c).transaction with _ | t
  · exact .of_not_opened (not_opened ht)
  · rw [look_within ht]
    exact stays_setTransaction fun ho => (ho.bySavepoint ht :)

section Writes

variable {schema : Schema δ} {sql : String} {cells : List Cell}
  {r : Except DriverError UpdateResult × Storage δ}

theorem Written.behaves (h : Written schema c sql cells s r) : Behaves c s r.2 := by
  have hlook := behaves_look c s
  have hlock : ∀ {t}, (s.sessions c).transaction = some t → s.lockedAgainst c = false →
      Behaves c s { (s.look c).2 with writer := some c } := by
    intro t ht hfree
    refine hlook.trans (behaves_lock ?_ ((lockedAgainst_look c s).trans hfree))
    rw [look_within ht]
    simp [setTransaction]
  cases h with
  | refused => exact hlook
  | failed ht hfree => exact hlock ht hfree
  | changed ht hfree =>
    exact ((hlock ht hfree).trans (behaves_setTransaction c _ _)).trans (behaves_countChanges c _ _)
  | published _ hfree => exact (behaves_publish hfree _ _).trans (behaves_countChanges c _ _)

theorem Written.stays (h : Written schema c sql cells s r) : Stays c s r.2 := by
  have hlook := stays_look c s
  cases h with
  | refused => exact hlook
  | failed => exact ⟨hlook.opened, hlook.contents⟩
  | @changed t change ht =>
    refine .of_transaction (t := { t with view := some ((s.viewOf t).changed change) })
      (by simp [countChanges, setTransaction]) (fun ho => (ho.bySavepoint ht :)) ?_
    rw [look_within ht]
    rfl
  | published hnone => exact .of_not_opened (not_opened hnone)

/-- A write outside of a transaction opens none. -/
theorem Written.closed (h : Written schema c sql cells s r)
    (hnone : (s.sessions c).transaction = none) : (r.2.sessions c).transaction = none := by
  cases h with
  | refused => rwa [look_closed hnone]
  | failed ht => cases hnone.symm.trans ht
  | changed ht => cases hnone.symm.trans ht
  | published => simpa [countChanges, publish] using hnone

end Writes

theorem behaves_update (schema : Schema δ) (c : ConnectionId) (sql : String)
    (cells : List Cell) (s : Storage δ) : Behaves c s (s.update schema c sql cells).2 :=
  (written schema c sql cells s).behaves

theorem stays_update (schema : Schema δ) (c : ConnectionId) (sql : String)
    (cells : List Cell) (s : Storage δ) : Stays c s (s.update schema c sql cells).2 :=
  (written schema c sql cells s).stays

theorem update_closed {schema : Schema δ} (h : (s.sessions c).transaction = none) (sql : String)
    (cells : List Cell) : ((s.update schema c sql cells).2.sessions c).transaction = none :=
  (written schema c sql cells s).closed h

/-! ## Statements -/

section Statements

variable {check : δ → Except DriverError Unit} {t : OpenTransaction δ} {statement : Statement}
  {r : Except DriverError Unit × Storage δ}

theorem Committed.behaves (h : Committed check c t s r) : Behaves c s r.2 := by
  cases h with
  | refused => exact .refl c s
  | published _ hwriter =>
    exact (behaves_publish (lockedAgainst_of_writer hwriter) _ _).trans (behaves_discard c _)
  | dropped => exact behaves_discard c s

/-- What is committed is not open any longer. -/
theorem Committed.closed (h : Committed check c t s r) (hok : r.1 = .ok ()) :
    (r.2.sessions c).transaction = none := by
  cases h with
  | refused => cases hok
  | published => exact transaction_discard c _
  | dropped => exact transaction_discard c s

/-- What cannot be committed changes nothing. -/
theorem Committed.contents (h : Committed check c t s r) :
    r.2.contents = s.contents ∨ r.1 = .ok () := by
  cases h with
  | refused => exact .inl rfl
  | published => exact .inr rfl
  | dropped => exact .inr rfl

theorem Executed.behaves (h : Executed check c s statement r)
    (hkeeps : statement.KeepsSettings) : Behaves c s r.2 := by
  cases h with
  | refused => exact .refl c s
  | begun => exact behaves_setTransaction c _ s
  | locked _ hfree =>
    exact (behaves_setTransaction c _ s).trans (behaves_lock (by simp [setTransaction]) hfree)
  | allowed allowed => exact absurd rfl (hkeeps allowed)
  | committed _ h => exact h.behaves
  | rolledBack => exact behaves_discard c s
  | marked => exact behaves_setTransaction c _ s
  | wentBack => exact behaves_setTransaction c _ s
  | released => exact behaves_setTransaction c _ s
  | ended _ _ _ h => exact h.behaves

/-- Releasing a savepoint commits only what a savepoint has begun, and within a transaction
none can be begun. -/
theorem Executed.stays (h : Executed check c s statement r) (hends : statement.EndsNothing) :
    Stays c s r.2 := by
  cases h with
  | refused => exact .refl c s
  | begun hnone => exact .of_not_opened (not_opened hnone)
  | locked hnone => exact .of_not_opened (not_opened hnone)
  | allowed =>
    refine ⟨fun ⟨t, ht, hby⟩ => ⟨t, ?_, hby⟩, fun _ => rfl⟩
    rw [sessions_setSession]
    exact ht
  | committed => exact absurd rfl hends.1
  | rolledBack => exact absurd rfl hends.2
  | marked name =>
    refine stays_setTransaction ?_
    rintro ⟨t, ht, hby⟩
    rw [ht]
    exact hby
  | wentBack ht => exact stays_setTransaction fun ho => (ho.bySavepoint ht :)
  | released ht => exact stays_setTransaction fun ho => (ho.bySavepoint ht :)
  | ended ht _ hby =>
    refine .of_not_opened fun ho => ?_
    rw [ho.bySavepoint ht] at hby
    cases hby

theorem Executed.opened (h : Executed check c s statement r) (hbegins : statement.Begins)
    (hok : r.1 = .ok ()) : r.2.Opened c := by
  cases h with
  | refused => cases hok
  | begun => exact ⟨{}, by simp [setTransaction], rfl⟩
  | locked => exact ⟨{ view := some (s.viewOf {}) }, by simp [setTransaction], rfl⟩
  | _ => simp [Statement.Begins] at hbegins

theorem Executed.closed (h : Executed check c s statement r)
    (hend : statement = .commit ∨ statement = .rollback) (hok : r.1 = .ok ()) :
    (r.2.sessions c).transaction = none := by
  cases h with
  | refused => cases hok
  | committed _ h => exact h.closed hok
  | rolledBack => exact transaction_discard c s
  | _ => simp at hend

/-- Where no transaction is open, only some statements open one. -/
theorem Executed.staysClosed (h : Executed check c s statement r) (hopens : ¬ statement.Opens)
    (hnone : (s.sessions c).transaction = none) : (r.2.sessions c).transaction = none := by
  cases h with
  | refused => exact hnone
  | begun => exact absurd (.inl (.inl rfl)) hopens
  | locked => exact absurd (.inl (.inr rfl)) hopens
  | allowed =>
    rw [sessions_setSession]
    exact hnone
  | marked name => exact absurd (.inr ⟨name, rfl⟩) hopens
  -- everything else was found to be within a transaction
  | committed ht | rolledBack ht | wentBack ht | released ht | ended ht =>
    cases hnone.symm.trans ht

theorem Executed.contents (h : Executed check c s statement r)
    (hrelease : ∀ name, statement ≠ .release name) :
    r.2.contents = s.contents ∨ statement = .commit ∧ r.1 = .ok () := by
  cases h with
  | committed _ h => exact h.contents.imp_right fun hok => ⟨rfl, hok⟩
  | rolledBack => exact .inl (contents_discard c s)
  | released => exact absurd rfl (hrelease _)
  | ended => exact absurd rfl (hrelease _)
  | _ => exact .inl rfl

end Statements

/-- Every statement keeps the settings, but the one that changes them. -/
theorem behaves_execute (check : δ → Except DriverError Unit) (c : ConnectionId)
    {statement : Statement} (hkeeps : statement.KeepsSettings) (s : Storage δ) :
    Behaves c s (s.execute check c statement).2 :=
  (executed check c statement s).behaves hkeeps

/-- A transaction stays open until it is ended. -/
theorem stays_execute (check : δ → Except DriverError Unit) (c : ConnectionId)
    {statement : Statement} (hends : statement.EndsNothing) (s : Storage δ) :
    Stays c s (s.execute check c statement).2 :=
  (executed check c statement s).stays hends

/-- A transaction that begins is open. -/
theorem opened_execute {check : δ → Except DriverError Unit} {statement : Statement}
    (hbegins : statement.Begins) (hok : (s.execute check c statement).1 = .ok ()) :
    (s.execute check c statement).2.Opened c :=
  (executed check c statement s).opened hbegins hok

/-- Once a transaction has been ended, nothing is open. -/
theorem closed_execute {check : δ → Except DriverError Unit} {statement : Statement}
    (hend : statement = .commit ∨ statement = .rollback)
    (hok : (s.execute check c statement).1 = .ok ()) :
    ((s.execute check c statement).2.sessions c).transaction = none :=
  (executed check c statement s).closed hend hok

theorem execute_closed (check : δ → Except DriverError Unit) {statement : Statement}
    (hopens : ¬ statement.Opens) (hnone : (s.sessions c).transaction = none) :
    ((s.execute check c statement).2.sessions c).transaction = none :=
  (executed check c statement s).staysClosed hopens hnone

/-- Releasing aside, only a COMMIT that succeeds commits anything. -/
theorem contents_execute (check : δ → Except DriverError Unit) (c : ConnectionId)
    {statement : Statement} (hrelease : ∀ name, statement ≠ .release name) (s : Storage δ) :
    (s.execute check c statement).2.contents = s.contents ∨
      statement = .commit ∧ (s.execute check c statement).1 = .ok () :=
  (executed check c statement s).contents hrelease

/-! ## The connections that nobody uses -/

/-- All connections are at rest but those that are used. -/
structure Rests (used : List ConnectionId) (s : Storage δ) : Prop where
  pool : s.SoundPool
  taken : ∀ c ∈ used, s.Taken c
  atRest : ∀ c, c ∉ used → (s.sessions c).AtRest
  locks : ∀ c, s.LocksWithin c

namespace Rests

variable {used : List ConnectionId} {c : ConnectionId} {s s' : Storage δ}

/-- A storage that nobody has used yet. -/
theorem initial (contents : δ) : Rests [] ({ contents } : Storage δ) where
  pool := ⟨List.nodup_nil, nofun⟩
  taken := nofun
  atRest _ _ := ⟨rfl, rfl⟩
  locks _ := nofun

theorem movesOnly (h : s.Rests used) (hc : c ∈ used) (hm : MovesOnly c s s')
    (hlocks : s.LocksWithin c → s'.LocksWithin c) : s'.Rests used where
  pool := hm.soundPool h.pool
  taken i hi := (hm.taken i).mpr (h.taken i hi)
  atRest i hi := by
    have hne : i ≠ c := fun heq => hi (heq ▸ hc)
    rw [hm.sessions i hne]
    exact h.atRest i hi
  locks i := by
    by_cases hi : i = c
    · rw [hi]
      exact hlocks (h.locks c)
    · intro hw
      rw [hm.sessions i hi]
      exact h.locks i ((hm.writer i hi).mp hw)

theorem behaves (h : s.Rests used) (hc : c ∈ used) (hb : Behaves c s s') : s'.Rests used :=
  h.movesOnly hc hb.toMovesOnly hb.locks

/-- Statements run on connections that are used only. -/
theorem execute (h : s.Rests used) (hc : c ∈ used) (check : δ → Except DriverError Unit)
    (statement : Statement) : (s.execute check c statement).2.Rests used := by
  by_cases hsettings : ∃ allowed, statement = .readUncommitted allowed
  · obtain ⟨allowed, rfl⟩ := hsettings
    refine h.movesOnly hc (movesOnly_setSession c _ s) fun hlocks hw => ?_
    show ((s.setSession c _).sessions c).transaction ≠ none
    rw [sessions_setSession]
    exact hlocks hw
  · exact h.behaves hc (behaves_execute check c (fun allowed heq => hsettings ⟨allowed, heq⟩) s)

theorem mem_of_opened (h : s.Rests used) (hc : s.Opened c) : c ∈ used := by
  by_cases hmem : c ∈ used
  · exact hmem
  · obtain ⟨t, ht, -⟩ := hc
    exact absurd ((h.atRest c hmem).transaction.symm.trans ht) (by simp)

/-- A connection that is taken from the pool is at rest. -/
theorem acquire (h : s.Rests used) (hrun : s.acquire = (.ok c, s')) :
    c ∉ used ∧ s'.Rests (c :: used) ∧ (s'.sessions c).AtRest ∧ s'.sessions = s.sessions ∧
      s'.contents = s.contents := by
  rcases acquire_eq h.pool with ⟨-, hclosed⟩ | ⟨i, s₁, -, hopen, hi⟩
  · rw [hclosed] at hrun
    cases hrun
  · rw [hopen] at hrun
    cases hrun
    have hc : c ∉ used := fun hc => hi.fresh (h.taken c hc)
    refine ⟨hc, ⟨hi.sound, ?_, ?_, ?_⟩, ?_, hi.sessions, hi.contents⟩
    · intro i hmem
      rcases List.mem_cons.mp hmem with rfl | hused
      · exact (hi.taken i).mpr (.inl rfl)
      · exact (hi.taken i).mpr (.inr (h.taken i hused))
    · intro i hmem
      rw [hi.sessions]
      exact h.atRest i fun hused => hmem (List.mem_cons_of_mem c hused)
    · intro i hw
      rw [hi.sessions]
      exact h.locks i (hi.writer ▸ hw)
    · rw [hi.sessions]
      exact h.atRest c hc

theorem acquire_error {e : ConnectionError} (h : s.Rests used) (hrun : s.acquire = (.error e, s')) :
    s' = s := by
  rcases acquire_eq h.pool with ⟨-, hclosed⟩ | ⟨i, s₁, -, hopen, -⟩
  · rw [hclosed] at hrun
    exact (Prod.mk.inj hrun).2.symm
  · rw [hopen] at hrun
    cases hrun

/-- A connection that is closed is at rest afterwards, whatever it was like. -/
theorem close (h : s.Rests (c :: used)) (hc : c ∉ used) : (s.giveBack c true).Rests used where
  pool := soundPool_giveBack h.pool (h.taken c (List.mem_cons_self ..)) true
  taken i hi := by
    have hne : i ≠ c := fun heq => hc (heq ▸ hi)
    exact (taken_giveBack hne true).mpr (h.taken i (List.mem_cons_of_mem c hi))
  atRest i hi := by
    show (((s.discard c).setSession c {}).sessions i).AtRest
    by_cases hne : i = c
    · rw [hne, sessions_setSession]
      exact ⟨rfl, rfl⟩
    · rw [sessions_setSession_of_ne hne, (movesOnly_discard c s).sessions i hne]
      refine h.atRest i fun hmem => ?_
      rcases List.mem_cons.mp hmem with heq | hused
      · exact hne heq
      · exact hi hused
  locks i hw := by
    have hne : i ≠ c := fun heq => writer_discard c s (heq ▸ hw)
    show ((((s.discard c).setSession c {}).sessions i).transaction) ≠ none
    rw [sessions_setSession_of_ne hne, (movesOnly_discard c s).sessions i hne]
    exact h.locks i (((movesOnly_discard c s).writer i hne).mp hw)

/-- A connection at rest can be given back as it is. -/
theorem giveBack (h : s.Rests (c :: used)) (hc : c ∉ used) (hrest : (s.sessions c).AtRest) :
    (s.giveBack c false).Rests used where
  pool := soundPool_giveBack h.pool (h.taken c (List.mem_cons_self ..)) false
  taken i hi := by
    have hne : i ≠ c := fun heq => hc (heq ▸ hi)
    exact (taken_giveBack hne false).mpr (h.taken i (List.mem_cons_of_mem c hi))
  atRest i hi := by
    show (s.sessions i).AtRest
    by_cases hne : i = c
    · exact hne ▸ hrest
    · refine h.atRest i fun hmem => ?_
      rcases List.mem_cons.mp hmem with heq | hused
      · exact hne heq
      · exact hi hused
  locks := h.locks

end Rests

theorem contents_acquire (s : Storage δ) : s.acquire.2.contents = s.contents := by
  unfold acquire
  split
  · rfl
  · split <;> rfl

theorem contents_giveBack (c : ConnectionId) (close : Bool) (s : Storage δ) :
    (s.giveBack c close).contents = s.contents := by
  unfold giveBack
  split
  · exact contents_discard c s
  · rfl

theorem sessions_giveBack_of_ne {c i : ConnectionId} (h : i ≠ c) (close : Bool) (s : Storage δ) :
    (s.giveBack c close).sessions i = s.sessions i := by
  unfold giveBack
  split
  · rw [sessions_setSession_of_ne h, (movesOnly_discard c s).sessions i h]
  · rfl

end Storage

end RowMapping
