/-
One transaction on a snapshot storage, from its beginning to its end.

Beginning takes a connection that nobody has and opens a transaction on it that
shows what is committed. Settling commits what the transaction shows or drops it, as
its work has come out, and gives the connection back with nothing open on it. In
between the other connections keep what they have.
-/
import RowMapping.Proofs.Storage.Sessions
import RowMapping.Proofs.Transaction.Meaning
import RowMapping.Proofs.Transaction.Statements

set_option autoImplicit false

namespace RowMapping

variable {δ τ α ρ : Type}

/-! ## Statements about the session only -/

/-- Only the settings of one session moved. -/
structure Storage.Resets (c : ConnectionId) (s s' : Storage δ) : Prop where
  moves : s.MovesOnly c s'
  contents : s'.contents = s.contents
  version : s'.version = s.version
  writer : s'.writer = s.writer
  transaction : (s'.sessions c).transaction = (s.sessions c).transaction
  changes : (s'.sessions c).changes = (s.sessions c).changes

theorem Storage.Resets.refl (c : ConnectionId) (s : Storage δ) : s.Resets c s :=
  ⟨.refl c s, rfl, rfl, rfl, rfl, rfl⟩

theorem Storage.resets_readUncommitted (c : ConnectionId) (allowed : Bool) (s : Storage δ) :
    s.Resets c (s.setSession c { s.sessions c with readUncommitted := allowed }) :=
  ⟨movesOnly_setSession c _ s, rfl, rfl, rfl, by rw [sessions_setSession],
    by rw [sessions_setSession]⟩

namespace Premises

open RowMapping.Action RowMapping.Manager

variable (g : Premises δ α)

theorem perform_acquire_ok {w : World (Storage δ) τ} {c : ConnectionId} {s : Storage δ}
    (h : w.store.acquire = (.ok c, s)) :
    (g.database.acquire).perform w = (.ok c, { w with store := s }) := by
  have h' : g.database.engine.acquire w.store = (.ok c, s) := h
  rw [perform_acquire, h']
  rfl

theorem perform_execute_ok {w : World (Storage δ) τ} {c : ConnectionId} {statement : Statement}
    (h : (w.store.execute g.schema.check c statement).1 = .ok ()) :
    (g.database.execute c statement).perform w
      = (.ok (), g.database.afterStatement c statement w) := by
  have h' : (g.database.engine.execute c statement w.store).1 = .ok () := h
  rw [perform_execute, h']
  rfl

/-! ## Beginning -/

/-- What a transaction is like when it has begun. -/
structure Begun (w w' : World (Storage δ) τ) (t : Transaction) (lock : Bool) : Prop where
  number : t.id = w.nextTransaction
  next : w'.nextTransaction = w.nextTransaction + 1
  fresh : ¬ w.store.Taken t.connection
  taken : w'.store.Taken t.connection
  keeps : w.store.Keeps (fun _ => False) w'.store
  tidy : w'.store.Tidy
  shows : w'.store.Shows t.connection [] lock w.store.contents
  contents : w'.store.contents = w.store.contents
  writer : ∀ c, w'.store.writer = some c → c = t.connection ∨ w.store.writer = some c
  state : w'.stateOf t = { written := lock }
  states : ∀ i, i ≠ t.id → w'.transactions i = w.transactions i
  changes : (w'.store.sessions t.connection).changes = t.changesAtBegin
  flags : w'.flags = w.flags
  nextFlag : w'.nextFlag = w.nextFlag
  settings : w'.settings = w.settings

/-- The statements that begin a transaction open one that shows what is committed. -/
theorem perform_executeAll_begin (isolation : Isolation) (c : ConnectionId)
    (w : World (Storage δ) τ) (hvacant : (w.store.sessions c).transaction = none)
    (hother : w.store.writer ≠ some c)
    (hfree : g.database.dialect.locksOnBegin isolation = true → w.store.writer = none) :
    ∃ w', (g.database.executeAll c (g.database.dialect.begin isolation)).perform w
        = (.ok (), w') ∧
      w.SameBooks w' ∧ w.store.MovesOnly c w'.store ∧
      w'.store.Shows c [] (g.database.dialect.locksOnBegin isolation) w.store.contents ∧
      w'.store.contents = w.store.contents := by
  -- a transaction that takes nothing can begin on any connection that has none
  have hdeferred : ∀ w₁ : World (Storage δ) τ, (w₁.store.sessions c).transaction = none →
      w₁.store.writer ≠ some c →
      ∃ w', (g.database.executeAll c [.beginDeferred]).perform w₁ = (.ok (), w') ∧
        w₁.SameBooks w' ∧ w₁.store.MovesOnly c w'.store ∧
        w'.store.Shows c [] false w₁.store.contents ∧
        w'.store.contents = w₁.store.contents := by
    intro w₁ h₁ hw₁
    obtain ⟨hok, hshows, hcontents⟩ := Storage.begin_deferred h₁ hw₁
    refine ⟨g.database.afterStatement c .beginDeferred w₁, ?_, sameBooks_afterStatement _ _ _ _,
      Storage.movesOnly_execute g.schema.check c .beginDeferred w₁.store, hshows, hcontents⟩
    rw [executeAll, perform_execute_bind_ok hok]
    rfl
  -- two isolations have statements of their own, and the others begin as the default does
  cases isolation with
  | serializable =>
    obtain ⟨hok, hshows, hcontents⟩ := Storage.begin_immediate hvacant (hfree rfl)
    refine ⟨g.database.afterStatement c .beginImmediate w, ?_, sameBooks_afterStatement _ _ _ _,
      Storage.movesOnly_execute g.schema.check c .beginImmediate w.store, hshows, hcontents⟩
    show (g.database.executeAll c [.beginImmediate]).perform w = _
    rw [executeAll, perform_execute_bind_ok hok]
    rfl
  | readUncommitted =>
    have hreset := Storage.resets_readUncommitted c true w.store
    obtain ⟨w', hrun, hbooks, hmoves, hshows, hcontents⟩ :=
      hdeferred (g.database.afterStatement c (.readUncommitted true) w)
        (hreset.transaction.trans hvacant) hother
    refine ⟨w', ?_, (sameBooks_afterStatement _ _ _ _).trans hbooks, hreset.moves.trans hmoves,
      hshows, hcontents⟩
    show (g.database.executeAll c [.readUncommitted true, .beginDeferred]).perform w = _
    rw [executeAll, perform_execute_bind_ok rfl]
    exact hrun
  | default => exact hdeferred w hvacant hother
  | readCommitted => exact hdeferred w hvacant hother
  | repeatableRead => exact hdeferred w hvacant hother

/-- Beginning a transaction succeeds on a tidy storage if, should it lock from the
beginning, nobody has the lock. -/
theorem perform_begin {isolation : Isolation} {w : World (Storage δ) τ} (htidy : w.store.Tidy)
    (hfree : g.database.dialect.locksOnBegin isolation = true → w.store.writer = none) :
    ∃ t w', (g.database.begin isolation).perform w = (.ok t, w') ∧
      Begun w w' t (g.database.dialect.locksOnBegin isolation) ∧ t.isolation = isolation := by
  obtain ⟨c, s, hacquire, hs, hstidy⟩ := htidy.acquire
  -- a writer has a connection that is taken
  have hother : s.writer ≠ some c := fun hw => hs.fresh (htidy.owned c (hs.writer ▸ hw))
  have htaken : s.Taken c := (hs.taken c).mpr (.inl rfl)
  obtain ⟨w', hrun, hbooks, hmoves, hshows, hcontents⟩ :=
    g.perform_executeAll_begin isolation c { w with store := s }
      (by rw [hs.sessions]; exact htidy.vacant c hs.fresh) hother
      (fun h => hs.writer.trans (hfree h))
  let t : Transaction := ⟨w.nextTransaction, c, isolation, (w'.store.sessions c).changes⟩
  let lock := g.database.dialect.locksOnBegin isolation
  refine ⟨t, { w' with
      nextTransaction := w.nextTransaction + 1
      transactions := fun i => if i = t.id then { written := lock } else w.transactions i },
    ?_, ?_, rfl⟩
  · rw [Manager.begin, perform_bind_ok (g.perform_acquire_ok hacquire), perform_outcome_bind,
      perform_bind_ok hrun]
    show (g.database.enlist c isolation (w'.store.sessions c).changes).perform w' = _
    rw [enlist, Action.perform, Action.of, hbooks.nextTransaction]
    simp only [World.modifyTransaction, hbooks.transactions]
    rfl
  · exact {
      number := rfl
      next := rfl
      fresh := hs.fresh
      taken := (hmoves.taken c).mpr htaken
      keeps := hs.keeps.trans hmoves.keeps fun i hi _ =>
        ⟨fun h => h, fun heq => hs.fresh (heq ▸ hi)⟩
      tidy := hstidy.of_movesOnly htaken hmoves
      shows := hs.contents ▸ hshows
      contents := hcontents.trans hs.contents
      writer := fun i hi => by
        by_cases heq : i = c
        · exact .inl heq
        · exact .inr (hs.writer ▸ (hmoves.writer i heq).mp hi)
      state := by simp [World.stateOf, lock]
      states := fun i hi => by simp [hi]
      changes := rfl
      flags := hbooks.flags
      nextFlag := hbooks.nextFlag
      settings := hbooks.settings }

/-! ## Ending -/

/-- What is left when a transaction has been settled. -/
structure Settled (w w' : World (Storage δ) τ) (t : Transaction) : Prop where
  books : w'.nextTransaction = w.nextTransaction ∧ w'.flags = w.flags ∧
    w'.nextFlag = w.nextFlag ∧ w'.settings = w.settings
  states : ∀ i, i ≠ t.id → w'.transactions i = w.transactions i
  keeps : w.store.Keeps (· = t.connection) w'.store
  tidy : w'.store.Tidy
  writer : ∀ c, w'.store.writer = some c → c ≠ t.connection ∧ w.store.writer = some c

/-- What moved on the trace alone does not matter to what is left. -/
theorem Settled.of_sameBooks {w₁ w₂ w' : World (Storage δ) τ} {t : Transaction}
    (h : Settled w₂ w' t) (hbooks : w₁.SameBooks w₂) (hstore : w₂.store = w₁.store) :
    Settled w₁ w' t where
  books := ⟨h.books.1.trans hbooks.nextTransaction, h.books.2.1.trans hbooks.flags,
    h.books.2.2.1.trans hbooks.nextFlag, h.books.2.2.2.trans hbooks.settings⟩
  states i hi := (h.states i hi).trans (congrFun hbooks.transactions i)
  keeps := hstore ▸ h.keeps
  tidy := h.tidy
  writer := hstore ▸ h.writer

/-- What cleans up after a transaction, if anything does, resets one setting. -/
theorem finish_eq (isolation : Isolation) :
    g.database.dialect.finish isolation = [] ∨
      g.database.dialect.finish isolation = [.readUncommitted false] := by
  cases isolation with
  | readUncommitted => exact .inr rfl
  | _ => exact .inl rfl

/-- Ending a transaction by a statement that succeeds leaves its session as the
statement left it, but for its settings. -/
theorem perform_finish (statement : Statement) {t : Transaction} {w : World (Storage δ) τ}
    (hstate : (w.stateOf t).finished = false)
    (hok : (w.store.execute g.schema.check t.connection statement).1 = .ok ()) :
    ∃ w', (g.database.finish t statement).perform w = (.ok (), w') ∧
      (g.database.afterEnd t statement w).SameBooks w' ∧
      (w.store.execute g.schema.check t.connection statement).2.Resets t.connection w'.store := by
  have hok' : (g.database.engine.execute t.connection statement w.store).1 = .ok () := hok
  rcases g.finish_eq t.isolation with hclean | hclean
  · refine ⟨g.database.afterEnd t statement w, ?_, .refl _, .refl _ _⟩
    rw [perform_finish_ok hstate hok', hclean]
    rfl
  · refine ⟨g.database.afterStatement t.connection (.readUncommitted false)
      (g.database.afterEnd t statement w), ?_, sameBooks_afterStatement _ _ _ _,
      Storage.resets_readUncommitted _ false _⟩
    rw [perform_finish_ok hstate hok', hclean, executeAll, perform_execute_bind_ok rfl]
    rfl

/-- A transaction that was ended by a statement and let go of is settled. -/
theorem settled_of_end {t : Transaction} {statement : Statement} {w w' : World (Storage δ) τ}
    {s : Storage δ} (htidy : w.store.Tidy) (htaken : w.store.Taken t.connection)
    (hbooks : (g.database.afterEnd t statement w).SameBooks w')
    (hmoves : w.store.MovesOnly t.connection s) (hreset : s.Resets t.connection w'.store)
    (hvacant : (s.sessions t.connection).transaction = none)
    (hwriter : s.writer ≠ some t.connection) :
    Settled w { w' with store := w'.store.giveBack t.connection false } t := by
  have hall := hmoves.trans hreset.moves
  have hwriter' : w'.store.writer ≠ some t.connection := by rw [hreset.writer]; exact hwriter
  refine {
    books := ⟨hbooks.nextTransaction, hbooks.flags, hbooks.nextFlag, hbooks.settings⟩
    states := fun i hi => ?_
    keeps := hall.keeps.trans (Storage.keeps_giveBack t.connection false w'.store)
      fun c _ hc => ⟨hc, hc⟩
    tidy := (htidy.of_movesOnly htaken hall).giveBack ((hall.taken _).mpr htaken)
      (hreset.transaction.trans hvacant) hwriter'
    writer := fun c hc => ?_ }
  · show w'.transactions i = _
    rw [hbooks.transactions]
    exact if_neg hi
  · have hne : c ≠ t.connection := fun heq => hwriter' (heq ▸ hc)
    exact ⟨hne, (hall.writer c hne).mp hc⟩

/-- Letting go of a transaction whose end succeeded gives its connection back. -/
theorem dismiss_of_end {t : Transaction} {statement : Statement} {w w' : World (Storage δ) τ}
    (htainted : (w.stateOf t).tainted = false)
    (hbooks : (g.database.afterEnd t statement w).SameBooks w') :
    ((g.database.dismiss t).perform w').2
      = { w' with store := w'.store.giveBack t.connection false } := by
  have hstate : w'.stateOf t = { w.stateOf t with finished := true } := by
    rw [World.stateOf, hbooks.transactions]
    exact World.stateOf_modifyTransaction t _ _
  rw [perform_dismiss, unfit, hstate, htainted]
  rfl

variable {t : Transaction} {w : World (Storage δ) τ} {marks : List (Savepoint δ)} {locks : Bool}
  {d : δ}

/-- Rolling back a transaction and letting go of it settles it, and leaves what is
committed. -/
theorem settled_rollback (htidy : w.store.Tidy) (htaken : w.store.Taken t.connection)
    (hfinished : (w.stateOf t).finished = false) (htainted : (w.stateOf t).tainted = false)
    (hshows : w.store.Shows t.connection marks locks d) :
    ∃ w₁, (g.database.rollback t).perform w = (.ok (), w₁) ∧
      Settled w ((g.database.dismiss t).perform w₁).2 t ∧
      ((g.database.dismiss t).perform w₁).2.store.contents = w.store.contents := by
  obtain ⟨hok, hcontents, hvacant, hwriter⟩ := Storage.rollback_shows hshows
  obtain ⟨w₁, hrun, hbooks, hreset⟩ := g.perform_finish .rollback hfinished hok
  refine ⟨w₁, hrun, ?_, ?_⟩ <;> rw [g.dismiss_of_end htainted hbooks]
  · exact g.settled_of_end htidy htaken hbooks
      (Storage.movesOnly_execute g.schema.check _ .rollback _) hreset hvacant hwriter
  · exact hreset.contents.trans hcontents

/-- Committing a transaction and letting go of it settles it, and publishes what it
shows. -/
theorem settled_commit (htidy : w.store.Tidy) (htaken : w.store.Taken t.connection)
    (hfinished : (w.stateOf t).finished = false) (htainted : (w.stateOf t).tainted = false)
    (hshows : w.store.Shows t.connection marks locks d)
    (hcheck : (if locks then g.schema.check d else .ok ()) = .ok ()) :
    ∃ w₁, (g.database.commit t).perform w = (.ok (), w₁) ∧
      Settled w ((g.database.dismiss t).perform w₁).2 t ∧
      ((g.database.dismiss t).perform w₁).2.store.contents = d := by
  have hcommit := Storage.commit_shows g.schema.check hshows
  rw [hcheck] at hcommit
  obtain ⟨hok, hcontents, hvacant, hwriter⟩ := hcommit
  obtain ⟨w₁, hrun, hbooks, hreset⟩ := g.perform_finish .commit hfinished hok
  refine ⟨w₁, hrun, ?_, ?_⟩ <;> rw [g.dismiss_of_end htainted hbooks]
  · exact g.settled_of_end htidy htaken hbooks
      (Storage.movesOnly_execute g.schema.check _ .commit _) hreset hvacant hwriter
  · exact hreset.contents.trans hcontents

/-- A transaction whose changes break a constraint is not committed, and the attempt
leaves no mark but on the trace. -/
theorem perform_commit_error (hfinished : (w.stateOf t).finished = false)
    (hshows : w.store.Shows t.connection marks locks d) {e : DriverError}
    (hcheck : (if locks then g.schema.check d else .ok ()) = .error e) :
    ∃ w₁, (g.database.commit t).perform w = (.error (g.failure e (describe "COMMIT")), w₁) ∧
      w.SameBooks w₁ ∧ w₁.store = w.store := by
  have hcommit := Storage.commit_shows g.schema.check hshows
  rw [hcheck] at hcommit
  have herror : (g.database.engine.execute t.connection .commit w.store).1 = .error e := by
    show (w.store.commit g.schema.check t.connection).1 = _
    rw [hcommit]
  refine ⟨_, perform_finish_error hfinished herror, sameBooks_afterStatement _ _ _ _, ?_⟩
  show (w.store.commit g.schema.check t.connection).2 = _
  rw [hcommit]

/-- **Settling.** What becomes of a transaction is what its meaning says: the same
result, and the same writes committed. -/
theorem perform_settle {l : Ledger} (result : Except Error ρ) (marked : Bool)
    (htidy : w.store.Tidy) (htaken : w.store.Taken t.connection)
    (hfinished : (w.stateOf t).finished = false) (htainted : (w.stateOf t).tainted = false)
    (hcontents : w.store.contents = replay g.schema l.committed g.initial)
    (hshows : w.store.Shows t.connection marks l.locks (g.contents {} l)) :
    ∃ w', (g.database.settle t result marked).perform w
        = ((g.conclude result marked l).1, w') ∧
      Settled w w' t ∧
      w'.store.contents = replay g.schema (g.conclude result marked l).2 g.initial := by
  obtain ⟨w₁, hrollback, hsettled, hkept⟩ :=
    g.settled_rollback htidy htaken hfinished htainted hshows
  have hcommitted := hkept.trans hcontents
  -- rolled back or not, what is committed is told by the ledger
  rw [Manager.perform_settle]
  rcases result with e | x
  · rw [perform_complete_error, hrollback]
    exact ⟨_, rfl, hsettled, hcommitted⟩
  rcases marked with _ | _
  · rw [perform_complete_ok]
    simp only [conclude, Bool.false_eq_true, if_false]
    rcases hcheck : (if l.locks then g.schema.check (g.contents {} l) else .ok ()) with e | _
    · -- nothing has changed, so rolling back goes on as if from the start
      obtain ⟨w₁, hcommit, hbooks, hstore⟩ := g.perform_commit_error hfinished hshows hcheck
      have hstate : w₁.stateOf t = w.stateOf t := congrFun hbooks.transactions t.id
      rw [← hstore] at htidy htaken hshows hcontents
      obtain ⟨w₂, hrollback₂, hsettled₂, hkept₂⟩ := g.settled_rollback htidy htaken
        (hstate ▸ hfinished) (hstate ▸ htainted) hshows
      rw [hcommit]
      simp only [hrollback₂]
      exact ⟨_, rfl, hsettled₂.of_sameBooks hbooks hstore, hkept₂.trans hcontents⟩
    · obtain ⟨w₂, hcommit, hsettled₂, hpublished⟩ :=
        g.settled_commit htidy htaken hfinished htainted hshows hcheck
      rw [hcommit]
      refine ⟨_, rfl, hsettled₂, hpublished.trans ?_⟩
      simp only [contents, List.append_nil]
  · rw [perform_complete_marked, hrollback]
    exact ⟨_, rfl, hsettled, hcommitted⟩

end Premises

end RowMapping
