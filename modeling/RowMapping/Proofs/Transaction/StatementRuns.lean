/-
Which statements the actions of the manager run.

Beginning runs the statements of the dialect on the connection that was taken. A
savepoint is left by releasing it, after going back to it where its work is dropped. A
transaction that is not finished yet is ended once. All of this stands unless a
statement fails that should not.
-/
import RowMapping.Proofs.Transaction.Attempts
import RowMapping.Proofs.Transaction.StatementBlocks

set_option autoImplicit false

namespace RowMapping

variable {σ τ α ρ : Type}

/-- The statement that commits is none of the others. -/
structure Dialect.CommitApart (d : Dialect α) : Prop where
  begin : ∀ isolation, d.commit ∉ d.begin isolation
  finish : ∀ isolation, d.commit ∉ d.finish isolation
  rollback : d.commit ≠ d.rollback
  savepoint : ∀ name, d.commit ≠ d.savepoint name
  rollbackTo : ∀ name, d.commit ≠ d.rollbackTo name
  release : ∀ name, d.commit ≠ d.release name

theorem Dialect.commitApart_sqlite : (Dialect.sqlite : Dialect α).CommitApart where
  begin isolation := by cases isolation <;> simp [sqlite, sqliteBegin]
  finish isolation := by cases isolation <;> simp [sqlite, sqliteFinish]
  rollback := by simp [sqlite]
  savepoint _ := by simp [sqlite]
  rollbackTo _ := by simp [sqlite]
  release _ := by simp [sqlite]

theorem Dialect.commitApart_generic : (Dialect.generic : Dialect α).CommitApart where
  begin isolation := by cases isolation <;> simp [generic, Isolation.sqlName?]
  finish _ := by simp [generic]
  rollback := by simp [generic]
  savepoint _ := by simp [generic]
  rollbackTo _ := by simp [generic]
  release _ := by simp [generic]

/-- Asking for the rows changed through a connection succeeds. -/
def Engine.CountsAlways (E : Engine σ) : Prop :=
  ∀ (s : σ) (c : ConnectionId), ∃ changes, (E.totalChanges c s).1 = .ok changes

/-- No statement fails but those that commit. -/
def OnlyCommitFails (d : Dialect α) (events : List (Event τ)) : Prop :=
  ∀ execution statement, .executed execution statement ∈ events → execution.succeeded = false →
    statement = d.commit

/-- A statement failed that does not commit. -/
def Fails (d : Dialect α) (said : List Said) : Prop := ∃ s, (s, false) ∈ said ∧ d.commit ≠ s

theorem OnlyCommitFails.not_fails {d : Dialect α} {c : ConnectionId} {said : List Said}
    (h : OnlyCommitFails d (eventsOn c said : List (Event τ))) : ¬ Fails d said := by
  rintro ⟨s, hs, hne⟩
  exact hne (h ⟨c, false⟩ s (List.mem_map.mpr ⟨(s, false), hs, rfl⟩) rfl).symm

theorem Fails.append_right {d : Dialect α} {said : List Said} (h : Fails d said)
    (before : List Said) : Fails d (before ++ said) := by
  obtain ⟨s, hs, hne⟩ := h
  exact ⟨s, List.mem_append_right before hs, hne⟩

/-- Certain statements were run on a connection, and nothing else happened that is
traced. -/
def Ran (c : ConnectionId) (said : List Said) (w w' : World σ τ) : Prop :=
  w'.trace = w.trace ++ eventsOn c said

theorem Ran.nothing {c : ConnectionId} {w w' : World σ τ} (h : w'.trace = w.trace) :
    Ran c [] w w' := by
  rw [Ran, h]
  exact (List.append_nil _).symm

theorem Ran.trans {c : ConnectionId} {first second : List Said} {w w₁ w' : World σ τ}
    (h₁ : Ran c first w w₁) (h₂ : Ran c second w₁ w') : Ran c (first ++ second) w w' := by
  rw [Ran] at *
  rw [h₂, h₁, List.append_assoc, eventsOn, eventsOn, eventsOn, List.map_append]

namespace Manager

open RowMapping.Action

variable {m : Manager σ α}

theorem ran_afterStatement (c : ConnectionId) (statement : Statement) (w : World σ τ) :
    Ran c [(statement, (m.engine.execute c statement w.store).1.isOk)] w
      (m.afterStatement c statement w) := rfl

/-- A statement succeeds or fails, and is said to. -/
theorem ran_execute (c : ConnectionId) (statement : Statement) {w w' : World σ τ}
    {r : Except Error Unit} (h : (m.execute c statement).perform w = (r, w')) :
    w.SameBooks w' ∧ Ran c [(statement, r.isOk)] w w' := by
  rw [perform_execute] at h
  obtain ⟨rfl, rfl⟩ := Prod.mk.inj h
  refine ⟨sameBooks_afterStatement m c statement w, ?_⟩
  have hran := ran_afterStatement (m := m) c statement w
  rcases hrun : (m.engine.execute c statement w.store).1 with e | _
  · rw [hrun] at hran
    exact hran
  · rw [hrun] at hran
    exact hran

/-- The error of a statement that fails is the driver's, as the dialect converts it. -/
theorem converted_execute {c : ConnectionId} {statement : Statement} {w w' : World σ τ} {e : Error}
    (h : (m.execute c statement).perform w = (.error e, w')) :
    ∃ source, e = m.dialect.convertError source (describe statement.sql) := by
  rw [perform_execute] at h
  rcases hrun : (m.engine.execute c statement w.store).1 with source | _
  all_goals
    rw [hrun] at h
    cases h
  exact ⟨source, rfl⟩

theorem ran_executeAll (c : ConnectionId) (statements : List Statement) {w w' : World σ τ}
    {r : Except Error Unit} (h : (m.executeAll c statements).perform w = (r, w')) :
    w.SameBooks w' ∧ ∃ said, Ran c said w w' ∧
      match r with
      | .ok _ => said = succeeded statements
      | .error _ => ∃ s ∈ statements, (s, false) ∈ said := by
  induction statements generalizing w with
  | nil =>
    obtain ⟨rfl, rfl⟩ := Prod.mk.inj h
    exact ⟨.refl w, [], .nothing rfl, rfl⟩
  | cons statement rest ih =>
    rw [executeAll, perform_bind] at h
    rcases hrun : (m.execute c statement).perform w with ⟨e | _, w₁⟩
    · -- once a statement has failed, the rest is not run
      obtain ⟨hbooks, hran⟩ := ran_execute c statement hrun
      rw [hrun] at h
      obtain ⟨rfl, rfl⟩ := Prod.mk.inj h
      exact ⟨hbooks, _, hran, statement, List.mem_cons_self .., List.mem_cons_self ..⟩
    · obtain ⟨hbooks, hran⟩ := ran_execute c statement hrun
      rw [hrun] at h
      obtain ⟨hbooks', said, hran', hsaid⟩ := ih h
      refine ⟨hbooks.trans hbooks', _, hran.trans hran', ?_⟩
      rcases r with e | _
      · obtain ⟨s, hs, hfailed⟩ := hsaid
        exact ⟨s, List.mem_cons_of_mem _ hs, List.mem_cons_of_mem _ hfailed⟩
      · have heq : said = succeeded rest := hsaid
        rw [heq]
        rfl

/-- No transactions moved but perhaps one. -/
structure OthersStay (t : Transaction) (w w' : World σ τ) : Prop where
  transactions : ∀ i, i ≠ t.id → w'.transactions i = w.transactions i
  next : w'.nextTransaction = w.nextTransaction

theorem OthersStay.of_books {w w' : World σ τ} (h : w.SameBooks w') (t : Transaction) :
    OthersStay t w w' :=
  ⟨fun _ _ => by rw [h.transactions], h.nextTransaction⟩

theorem OthersStay.modify (t : Transaction) (f : TransactionState → TransactionState)
    (w : World σ τ) : OthersStay t w (w.modifyTransaction t f) :=
  ⟨fun _ hi => if_neg hi, rfl⟩

theorem OthersStay.trans {t : Transaction} {w₁ w₂ w₃ : World σ τ} (h₁ : OthersStay t w₁ w₂)
    (h₂ : OthersStay t w₂ w₃) : OthersStay t w₁ w₃ :=
  ⟨fun i hi => (h₂.transactions i hi).trans (h₁.transactions i hi), h₂.next.trans h₁.next⟩

/-! ## Beginning -/

/-- A transaction that begins is the next one, and the statements of the dialect were run
for it. Where it does not begin, one of them has failed, or none was run. -/
theorem ran_begin (hd : m.dialect.CommitApart) (htotal : m.engine.CountsAlways)
    {isolation : Isolation} {w w' : World σ τ} {r : Except Error Transaction}
    (h : (m.begin isolation).perform w = (r, w')) :
    match r with
    | .ok t => t.isolation = isolation ∧ t.id = w.nextTransaction ∧
      w'.nextTransaction = w.nextTransaction + 1 ∧ (∀ i, i ≠ t.id → w'.transactions i
        = w.transactions i) ∧ Ran t.connection (succeeded (m.dialect.begin isolation)) w w'
    | .error _ => w.SameBooks w' ∧ ∃ c said, Ran c said w w' ∧ (said = [] ∨ Fails m.dialect said) := by
  have hacquired : ∀ {r : Except Error ConnectionId} {w₁ : World σ τ},
      (m.acquire).perform w = (r, w₁) → w.SameBooks w₁ ∧ w₁.trace = w.trace := by
    intro r w₁ hacquire
    rw [perform_acquire] at hacquire
    cases hacquire
    exact ⟨.of_store w _, rfl⟩
  cases beginSteps h with
  | unacquired hacquire =>
    obtain ⟨hbooks, htrace⟩ := hacquired hacquire
    exact ⟨hbooks, 0, [], .nothing htrace, .inl rfl⟩
  | @refused c _ _ w₂ hacquire hrun =>
    obtain ⟨hbooks, htrace⟩ := hacquired hacquire
    obtain ⟨hbooks', said, hran, s, hs, hfailed⟩ := ran_executeAll c _ hrun
    refine ⟨(hbooks.trans hbooks').trans (.of_store w₂ _), c, said, ?_, .inr ⟨s, hfailed, ?_⟩⟩
    · exact (Ran.nothing htrace).trans hran
    · exact fun heq => hd.begin isolation (heq ▸ hs)
  | @uncounted c _ _ w₂ _ _ _ hcount =>
    -- excluded: changes can always be counted
    obtain ⟨changes, hchanges⟩ := htotal w₂.store c
    rw [perform_totalChanges, hchanges] at hcount
    cases hcount
  | @begun c changes _ w₂ w₃ hacquire hrun hcount =>
    obtain ⟨hbooks, htrace⟩ := hacquired hacquire
    obtain ⟨hbooks', said, hran, hsaid⟩ := ran_executeAll c _ hrun
    rw [perform_totalChanges] at hcount
    obtain ⟨-, rfl⟩ := Prod.mk.inj hcount
    have hall : w.SameBooks w₂ := hbooks.trans hbooks'
    refine ⟨rfl, hall.nextTransaction, congrArg (· + 1) hall.nextTransaction, fun i hi => ?_, ?_⟩
    · rw [← hall.transactions]
      exact if_neg hi
    · have hsaid' : said = succeeded (m.dialect.begin isolation) := hsaid
      rw [← hsaid']
      exact (Ran.nothing htrace).trans hran

/-! ## Ending -/

/-- A transaction that is not finished is ended by the statement, unless it fails. -/
theorem ran_finish (hd : m.dialect.CommitApart) {t : Transaction} {statement : Statement}
    {w w' : World σ τ} {r : Except Error Unit} (hfinished : (w.stateOf t).finished = false)
    (h : (m.finish t statement).perform w = (r, w')) :
    OthersStay t w w' ∧ ∃ said, Ran t.connection said w w' ∧
      match r with
      | .ok _ => said = (statement, true) :: succeeded (m.dialect.finish t.isolation) ∨
        Fails m.dialect said
      | .error e => said = [(statement, false)] ∧ (w'.stateOf t).finished = false ∧
        ∃ source, e = m.dialect.convertError source (describe statement.sql) := by
  have hmarked : ∀ {w₁ : World σ τ},
      (m.execute t.connection statement).perform w = (.ok (), w₁) →
      OthersStay t w (w₁.modifyTransaction t fun s => { s with finished := true }) ∧
        Ran t.connection [(statement, true)] w
          (w₁.modifyTransaction t fun s => { s with finished := true }) := by
    intro w₁ hrun
    obtain ⟨hbooks, hran⟩ := ran_execute _ _ hrun
    exact ⟨(OthersStay.of_books hbooks t).trans (.modify t _ _), hran⟩
  cases finishSteps h with
  | again hagain =>
    rw [hfinished] at hagain
    cases hagain
  | refused _ hrun =>
    obtain ⟨hbooks, hran⟩ := ran_execute _ _ hrun
    refine ⟨.of_books hbooks t, _, hran, rfl, ?_, converted_execute hrun⟩
    rw [World.stateOf, hbooks.transactions]
    exact hfinished
  | tainted _ hrun hclean =>
    -- the transaction has ended all the same: that a statement has failed is seen only in the trace
    obtain ⟨hothers, hran⟩ := hmarked hrun
    obtain ⟨hbooks, said, hran', s, hs, hfailed⟩ := ran_executeAll t.connection _ hclean
    refine ⟨(hothers.trans (.of_books hbooks t)).trans (.modify t _ _), _, hran.trans hran', .inr ?_⟩
    exact ⟨s, List.mem_append_right _ hfailed, fun heq => hd.finish t.isolation (heq ▸ hs)⟩
  | cleaned _ hrun hclean =>
    obtain ⟨hothers, hran⟩ := hmarked hrun
    obtain ⟨hbooks, said, hran', hsaid⟩ := ran_executeAll t.connection _ hclean
    have hsaid' : said = succeeded (m.dialect.finish t.isolation) := hsaid
    rw [← hsaid']
    exact ⟨hothers.trans (.of_books hbooks t), _, hran.trans hran', .inl rfl⟩

/-- How a transaction was ended, unless a statement has failed that should not. -/
def Ended (d : Dialect α) (isolation : Isolation) (said : List Said) : Prop :=
  (∃ ending, Ending d ending ∧ said = ending ++ succeeded (d.finish isolation)) ∨ Fails d said

theorem ended_rollback (hd : m.dialect.CommitApart) {t : Transaction} {w w' : World σ τ}
    {r : Except Error Unit} (hfinished : (w.stateOf t).finished = false)
    (h : (m.rollback t).perform w = (r, w')) :
    OthersStay t w w' ∧ ∃ said, Ran t.connection said w w' ∧
      (said = (m.dialect.rollback, true) :: succeeded (m.dialect.finish t.isolation) ∨
        Fails m.dialect said) := by
  obtain ⟨hothers, said, hran, hsaid⟩ := ran_finish hd hfinished h
  refine ⟨hothers, said, hran, ?_⟩
  rcases r with e | _
  · obtain ⟨rfl, -⟩ := hsaid
    exact .inr ⟨m.dialect.rollback, List.mem_cons_self .., hd.rollback⟩
  · exact hsaid

theorem ended_of_rollback {d : Dialect α} {isolation : Isolation} {said : List Said}
    (h : said = (d.rollback, true) :: succeeded (d.finish isolation) ∨ Fails d said) :
    Ended d isolation said := by
  rcases h with rfl | hfails
  · exact .inl ⟨_, .rolledBack, rfl⟩
  · exact .inr hfails

/-- Completing a transaction that is not finished ends it once. -/
theorem ended_complete (hd : m.dialect.CommitApart) {t : Transaction} {w w' : World σ τ}
    {result r : Except Error ρ} {rollbackOnly : Bool}
    (hfinished : (w.stateOf t).finished = false)
    (h : (m.complete t result rollbackOnly).perform w = (r, w')) :
    OthersStay t w w' ∧ ∃ said, Ran t.connection said w w' ∧
      Ended m.dialect t.isolation said := by
  cases completeSteps h with
  | undone hrun | notUndone hrun | discarded hrun | notDiscarded hrun =>
    obtain ⟨hothers, said, hran, hsaid⟩ := ended_rollback hd hfinished hrun
    exact ⟨hothers, said, hran, ended_of_rollback hsaid⟩
  | committed hrun =>
    obtain ⟨hothers, said, hran, hsaid⟩ := ran_finish hd hfinished hrun
    refine ⟨hothers, said, hran, ?_⟩
    rcases hsaid with rfl | hfails
    · exact .inl ⟨_, .committed, rfl⟩
    · exact .inr hfails
  | notCommitted hrun hback =>
    -- the transaction is still unfinished, so it can be rolled back
    obtain ⟨hothers, said, hran, rfl, hstill, -⟩ := ran_finish hd hfinished hrun
    obtain ⟨hothers', said', hran', hsaid'⟩ := ended_rollback hd hstill hback
    refine ⟨hothers.trans hothers', _, hran.trans hran', ?_⟩
    rcases hsaid' with rfl | hfails
    · exact .inl ⟨_, .notCommitted, rfl⟩
    · exact .inr (hfails.append_right _)

theorem ended_settle (hd : m.dialect.CommitApart) {t : Transaction} {w w' : World σ τ}
    {result r : Except Error ρ} {rollbackOnly : Bool}
    (hfinished : (w.stateOf t).finished = false)
    (h : (m.settle t result rollbackOnly).perform w = (r, w')) :
    OthersStay t w w' ∧ ∃ said, Ran t.connection said w w' ∧
      Ended m.dialect t.isolation said := by
  rw [perform_settle, perform_dismiss] at h
  obtain ⟨rfl, rfl⟩ := Prod.mk.inj h
  obtain ⟨hothers, said, hran, hended⟩ := ended_complete hd hfinished
    (rfl : (m.complete t result rollbackOnly).perform w = (_, _))
  exact ⟨⟨hothers.transactions, hothers.next⟩, said, hran, hended⟩

/-! ## Savepoints -/

/-- A savepoint gets the next name. -/
theorem ran_openAttempt_savepoint {t : Transaction} {w w' : World σ τ} {r : Except Error Opened}
    (h : (m.openAttempt (.savepoint t)).perform w = (r, w')) :
    OthersStay t w w' ∧
      w'.stateOf t = { w.stateOf t with savepoints := (w.stateOf t).savepoints + 1 } ∧
      Ran t.connection
        [(m.dialect.savepoint (savepointName ((w.stateOf t).savepoints + 1)), r.isOk)] w w' ∧
      ∀ o, r = .ok o →
        ∃ flag, o = .savepoint t (savepointName ((w.stateOf t).savepoints + 1)) flag := by
  have hnamed : OthersStay t w
      (w.modifyTransaction t fun s => { s with savepoints := s.savepoints + 1 }) := .modify t _ w
  -- the savepoint is counted before its statement is run, and so also where that fails
  have hset : ∀ {w₁ : World σ τ} {r : Except Error Unit},
      (m.execute t.connection
          (m.dialect.savepoint (savepointName ((w.stateOf t).savepoints + 1)))).perform
        (w.modifyTransaction t fun s => { s with savepoints := s.savepoints + 1 }) = (r, w₁) →
      OthersStay t w w₁ ∧
        w₁.stateOf t = { w.stateOf t with savepoints := (w.stateOf t).savepoints + 1 } ∧
        Ran t.connection
          [(m.dialect.savepoint (savepointName ((w.stateOf t).savepoints + 1)), r.isOk)] w w₁ := by
    intro w₁ r hrun
    obtain ⟨hbooks, hran⟩ := ran_execute _ _ hrun
    refine ⟨hnamed.trans ⟨fun i _ => by rw [hbooks.transactions], hbooks.nextTransaction⟩, ?_, hran⟩
    rw [World.stateOf, hbooks.transactions]
    exact World.stateOf_modifyTransaction t _ w
  cases openSteps h with
  | notSet hrun =>
    obtain ⟨hothers, hstate, hran⟩ := hset hrun
    exact ⟨hothers, hstate, hran, fun o ho => by cases ho⟩
  | set hrun =>
    obtain ⟨hothers, hstate, hran⟩ := hset hrun
    refine ⟨⟨hothers.transactions, hothers.next⟩, hstate, hran, fun o ho => ?_⟩
    cases ho
    exact ⟨_, rfl⟩

theorem ran_undo (hd : m.dialect.CommitApart) {t : Transaction} {name : String}
    {w w' : World σ τ} {r : Except Error Unit} (h : (m.undo t name).perform w = (r, w')) :
    w.SameBooks w' ∧ ∃ said, Ran t.connection said w w' ∧
      (said = [(m.dialect.rollbackTo name, true), (m.dialect.release name, true)] ∨
        Fails m.dialect said) := by
  rw [undo, perform_bind] at h
  rcases hback : (m.execute t.connection (m.dialect.rollbackTo name)).perform w with ⟨e | _, w₁⟩
  · obtain ⟨hbooks, hran⟩ := ran_execute _ _ hback
    rw [hback] at h
    obtain ⟨rfl, rfl⟩ := Prod.mk.inj h
    exact ⟨hbooks, _, hran, .inr ⟨_, List.mem_cons_self .., hd.rollbackTo name⟩⟩
  · obtain ⟨hbooks, hran⟩ := ran_execute _ _ hback
    rw [hback] at h
    obtain ⟨hbooks', hran'⟩ := ran_execute _ _ h
    refine ⟨hbooks.trans hbooks', _, hran.trans hran', ?_⟩
    rcases r with e | _
    · exact .inr ⟨m.dialect.release name, by simp [Except.isOk, Except.toBool], hd.release name⟩
    · exact .inl rfl

/-- A savepoint is released, perhaps after going back to it, unless one of this fails. -/
theorem ran_leave (hd : m.dialect.CommitApart) {t : Transaction} {name : String}
    {result r : Except Error ρ} {rollbackOnly : Bool} {w w' : World σ τ}
    (h : (m.leave t name result rollbackOnly).perform w = (r, w')) :
    w.SameBooks w' ∧ ∃ said, Ran t.connection said w w' ∧
      (said = [(m.dialect.release name, true)] ∨
        said = [(m.dialect.rollbackTo name, true), (m.dialect.release name, true)] ∨
        Fails m.dialect said) := by
  cases leaveSteps h with
  | undone hrun | notUndone hrun | discarded hrun | notDiscarded hrun =>
    obtain ⟨hbooks, said, hran, hsaid⟩ := ran_undo hd hrun
    exact ⟨hbooks, said, hran, .inr hsaid⟩
  | kept hrun =>
    obtain ⟨hbooks, hran⟩ := ran_execute _ _ hrun
    exact ⟨hbooks, _, hran, .inl rfl⟩
  | notKept hrun =>
    obtain ⟨hbooks, hran⟩ := ran_execute _ _ hrun
    exact ⟨hbooks, _, hran, .inr (.inr ⟨_, List.mem_cons_self .., hd.release name⟩)⟩

end Manager

end RowMapping
