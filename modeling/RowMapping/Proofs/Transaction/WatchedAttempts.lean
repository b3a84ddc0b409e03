/-
Watching a transaction while attempts are made.

An attempt opens a transaction on a connection that nobody had, or sets a savepoint. The
first has nothing to do with the transaction that is watched. The second may be a
savepoint of just that one: then its work goes on above the savepoint, and leaving it
gives back what was below.
-/
import RowMapping.Proofs.Transaction.AttemptSequence
import RowMapping.Proofs.Transaction.Suspension
import RowMapping.Proofs.Transaction.Watching

set_option autoImplicit false

namespace RowMapping

variable {σ δ τ α ρ κ : Type} {storage : σ → Storage δ} {schema : Schema δ} {m : Manager σ α}
  {W : Watch}

/-! ## Connections from the pool -/

/-- A connection is obtained that nobody had. -/
theorem Abides.acquire (hE : m.engine.Unreliable schema storage) {w w' : World σ τ}
    (hw : Watched storage W w) {r : Except Error ConnectionId}
    (h : (m.acquire).perform w = (r, w')) :
    Abides m.engine storage W [] w w' ∧
      ∀ c, r = .ok c → ¬ (storage w.store).Taken c ∧ (storage w'.store).Taken c := by
  rw [Manager.perform_acquire] at h
  obtain ⟨rfl, rfl⟩ := Prod.mk.inj h
  have hsame : ∀ journal, m.engine.Journals storage journal → ∀ c,
      Withheld journal c w.store (m.engine.acquire w.store).2 :=
    fun journal hj _ => .of_same (hj.acquire w.store)
  -- what an unchanged storage is like
  have hstill : storage (m.engine.acquire w.store).2 = storage w.store →
      Abides m.engine storage W [] w { w with store := (m.engine.acquire w.store).2 } := by
    intro hstore
    refine .of_sameBooks (.of_store w _) (List.append_nil _).symm (fun _ _ => rfl)
      ⟨?_, fun c hc => ?_, fun hu t ht => ?_, fun _ t _ journal hj => hsame journal hj _,
        fun t _ => ?_⟩
    · exact hstore ▸ hw.sound
    · exact hstore ▸ hc
    · exact hstore ▸ hw.isOpen hu t ht
    · exact .of_transaction (by rw [hstore]) fun journal hj => hsame journal hj _
  -- the pool is closed, or there is a connection, or asking for it has failed
  rcases hE.acquire w.store with ⟨hresult, hstore⟩ | ⟨e, hresult, hstore⟩
  · rcases Storage.acquire_eq hw.sound with ⟨-, hclosed⟩ | ⟨c, s', -, hopen, hc⟩
    · rw [hclosed] at hresult hstore
      refine ⟨hstill hstore, fun c hok => ?_⟩
      rw [hresult] at hok
      cases hok
    · rw [hopen] at hresult hstore
      refine ⟨.of_sameBooks (.of_store w _) (List.append_nil _).symm (fun _ _ => rfl)
        ⟨?_, fun i hi => ?_, fun hu t ht => ?_, fun _ t _ journal hj => hsame journal hj _,
          fun t _ => ?_⟩, fun i hok => ?_⟩
      · exact hstore ▸ hc.sound
      · show (storage (m.engine.acquire w.store).2).Taken i
        rw [hstore]
        exact (hc.taken i).mpr (.inr hi)
      · obtain ⟨x, hx, hby⟩ := hw.isOpen hu t ht
        refine ⟨x, ?_, hby⟩
        rw [hstore, hc.sessions]
        exact hx
      · refine .of_transaction ?_ fun journal hj => hsame journal hj _
        rw [hstore, hc.sessions]
      · rw [hresult] at hok
        cases hok
        refine ⟨hc.fresh, ?_⟩
        show (storage (m.engine.acquire w.store).2).Taken c
        rw [hstore]
        exact (hc.taken c).mpr (.inl rfl)
  · refine ⟨hstill hstore, fun c hok => ?_⟩
    rw [hresult] at hok
    cases hok

/-- A connection that nobody had at first can be given back without anybody noticing. -/
theorem Abides.returned (hE : m.engine.Unreliable schema storage) {new : List (Event τ)}
    {w w' : World σ τ} (hw : Watched storage W w) (h : Abides m.engine storage W new w w')
    {c : ConnectionId} (hfresh : ¬ (storage w.store).Taken c)
    (htaken : (storage w'.store).Taken c) (close : Bool) :
    Abides m.engine storage W new w ((m.release c close).perform w').2 := by
  have hstore : storage ((m.release c close).perform w').2.store
      = (storage w'.store).giveBack c close := hE.release c close w'.store
  -- the watched transaction has had its connection all the time, so it is not this one
  have hother : ∀ t ∈ W.transaction, t.connection ≠ c := fun t ht heq =>
    hfresh (heq ▸ hw.taken t ht)
  have hsessions : ∀ t ∈ W.transaction,
      (storage ((m.release c close).perform w').2.store).sessions t.connection
        = (storage w'.store).sessions t.connection := by
    intro t ht
    rw [hstore, Storage.sessions_giveBack_of_ne (hother t ht)]
  have hnothing : ∀ t ∈ W.transaction, ∀ journal, m.engine.Journals storage journal →
      Withheld journal t.connection w'.store ((m.release c close).perform w').2.store :=
    fun t ht journal hj =>
      .of_noted (hj.release c close w'.store) fun heq => absurd heq.symm (hother t ht)
  refine { h with
    sound := ?_
    taken := fun i hi => ?_
    isOpen := fun hu t ht => ?_
    withheld := fun hu t ht journal hj => (h.withheld hu t ht journal hj).trans ?_
    carried := fun t ht => (h.carried t ht).trans ?_
    unset := h.unset
    counted := h.counted
    finished := h.finished }
  · rw [hstore]
    exact Storage.soundPool_giveBack h.sound htaken close
  · have hne : i ≠ c := fun heq => hfresh (heq ▸ hi)
    rw [hstore, Storage.taken_giveBack hne]
    exact h.taken i hi
  · obtain ⟨x, hx, hby⟩ := h.isOpen hu t ht
    exact ⟨x, by rw [hsessions t ht, hx], hby⟩
  · exact hnothing t ht journal hj
  · exact .of_transaction (by rw [hsessions t ht]) (hnothing t ht)

namespace Abiding

open RowMapping.Action

/-- Something is done with a connection from the pool, which is given back. -/
theorem runAlone (hE : m.engine.Unreliable schema storage)
    {operation : ConnectionId → Action σ τ ρ}
    (hop : ∀ c, Abiding m.engine storage W (operation c)) :
    Abiding m.engine storage W (m.runAlone operation) := by
  intro w hw
  rw [Manager.perform_runAlone]
  rcases hrun : (m.acquire).perform w with ⟨e | c, w₁⟩
  · exact ⟨[], (Abides.acquire hE hw hrun).1⟩
  · obtain ⟨hacquired, htaken⟩ := Abides.acquire hE hw hrun
    obtain ⟨hfresh, hc⟩ := htaken c rfl
    obtain ⟨new, hran⟩ := hop c w₁ (hacquired.watched hw)
    exact ⟨[] ++ new, (hacquired.trans hran).returned hE hw hfresh (hran.taken c hc) false⟩

theorem useConnection (hE : m.engine.Unreliable schema storage) (ctx : Context)
    {operation : ConnectionId → Action σ τ ρ}
    (hop : ∀ c, Abiding m.engine storage W (operation c)) :
    Abiding m.engine storage W (m.useConnection ctx operation) := by
  obtain ⟨_ | t, flag⟩ := ctx
  · exact runAlone hE hop
  · exact hop t.connection

end Abiding

/-! ## Transactions of their own -/

/-- In the transaction on a connection nothing was done yet. -/
def Untouched (storage : σ → Storage δ) (c : ConnectionId) (w : World σ τ) : Prop :=
  ∃ x, ((storage w.store).sessions c).transaction = some x ∧ x.Fresh (storage w.store).contents

/-- A transaction that has just begun has nothing in common with any that was there. -/
structure Begun (storage : σ → Storage δ) (m : Manager σ α) (isolation : Isolation)
    (w : World σ τ) (t : Transaction) (w' : World σ τ) : Prop where
  id_eq : t.id = w.nextTransaction
  fresh : ¬ (storage w.store).Taken t.connection
  taken : (storage w'.store).Taken t.connection
  numbered : t.id < w'.nextTransaction
  isolation_eq : t.isolation = isolation
  state : w'.stateOf t = { written := m.dialect.locksOnBegin isolation }
  flags : w'.flags = w.flags ∧ w'.nextFlag = w.nextFlag
  untouched : m.dialect.Standard → Untouched storage t.connection w'

theorem Begun.apart {isolation : Isolation} {w w' : World σ τ} {u : Transaction}
    (h : Begun storage m isolation w u w') (hw : Watched storage W w) :
    ∀ t ∈ W.transaction, t.Apart u := by
  intro t ht
  refine ⟨fun heq => ?_, fun heq => h.fresh (heq ▸ hw.taken t ht)⟩
  have hlt := hw.numbered t ht
  rw [heq, h.id_eq] at hlt
  exact Nat.lt_irrefl _ hlt

theorem Begun.opened {isolation : Isolation} {w w' : World σ τ} {u : Transaction}
    (h : Begun storage m isolation w u w') (hd : m.dialect.Standard) :
    (storage w'.store).Opened u.connection := by
  obtain ⟨x, hx, hfresh⟩ := h.untouched hd
  exact ⟨x, hx, hfresh.bySavepoint⟩

theorem Begun.unfinished {isolation : Isolation} {w w' : World σ τ} {u : Transaction}
    (h : Begun storage m isolation w u w') : (w'.stateOf u).finished = false := by
  rw [h.state]

/-- The statements that begin a transaction do nothing in it. -/
theorem Manager.untouched_executeAll (hE : m.engine.Unreliable schema storage) {c : ConnectionId}
    {statements : List Statement}
    (hstatements : ∀ statement ∈ statements, statement.Begins ∨ statement.Prepares)
    {w w' : World σ τ} (h : (m.executeAll c statements).perform w = (.ok (), w'))
    (hbegins : (∃ statement ∈ statements, statement.Begins) ∨ Untouched storage c w) :
    Untouched storage c w' := by
  -- on the statements: one of them is still to begin the transaction, or it has begun
  induction statements generalizing w with
  | nil =>
    obtain ⟨-, rfl⟩ := Prod.mk.inj h
    rcases hbegins with ⟨_, hmem, -⟩ | huntouched
    · cases hmem
    · exact huntouched
  | cons statement rest ih =>
    obtain ⟨w₁, hrun, hrest⟩ := executeAll_cons_ok h
    obtain ⟨hstore, hok⟩ := execute_ok hE hrun
    refine ih (fun other hmem => hstatements other (List.mem_cons_of_mem statement hmem)) hrest ?_
    have hbegun : statement.Begins → Untouched storage c w₁ := by
      intro hstatement
      rw [Untouched, hstore]
      exact Storage.execute_begins schema.check hstatement hok
    rcases hbegins with ⟨other, hmem, hother⟩ | ⟨x, hx, hfresh⟩
    · rcases List.mem_cons.mp hmem with rfl | hmem
      · exact .inr (hbegun hother)
      · exact .inl ⟨other, hmem, hother⟩
    · rcases hstatements statement (List.mem_cons_self ..) with hstatement | hstatement
      · exact .inr (hbegun hstatement)
      · obtain ⟨hsame, hcontents⟩ := Storage.execute_prepares schema.check hstatement _
        rw [Untouched, hstore, hsame, hcontents]
        exact .inr ⟨x, hx, hfresh⟩

namespace Manager

open RowMapping.Action

/-- In a transaction that begins nothing was done yet. -/
theorem untouched_begin (hE : m.engine.Unreliable schema storage) (hd : m.dialect.Standard)
    {isolation : Isolation} {w w' : World σ τ} {t : Transaction}
    (h : (m.begin isolation).perform w = (.ok t, w')) : Untouched storage t.connection w' := by
  cases beginSteps h with
  | @begun c changes _ w₂ w₃ _ hbegin hcount =>
    have hstore : storage w₃.store = storage w₂.store := by
      have hsame := storage_totalChanges hE c w₂
      rw [hcount] at hsame
      exact hsame
    show ∃ x, ((storage w₃.store).sessions c).transaction = some x ∧
      x.Fresh (storage w₃.store).contents
    rw [hstore]
    exact untouched_executeAll hE (hd.begin isolation) hbegin (.inl (hd.begins isolation))

/-- A transaction that begins has nothing in common with any that was there. -/
theorem begun_of_begin (hE : m.engine.Unreliable schema storage) {isolation : Isolation}
    {w w' : World σ τ} {t : Transaction} (hsound : (storage w.store).SoundPool)
    (h : (m.begin isolation).perform w = (.ok t, w')) : Begun storage m isolation w t w' := by
  have huntouched : m.dialect.Standard → Untouched storage t.connection w' :=
    fun hd => untouched_begin hE hd h
  cases beginSteps h with
  | @begun c changes w₁ w₂ w₃ hacquire hbegin hcount =>
    -- nothing has to be watched to see that the connection stays taken
    have hw := Watched.nothing hsound
    obtain ⟨hacquired, htaken⟩ := Abides.acquire hE hw hacquire
    obtain ⟨hfresh, hc⟩ := htaken c rfl
    obtain ⟨new, hran⟩ := Abiding.executeAll_apart hE (fun _ ht => by cases ht)
      (m.dialect.begin isolation) w₁ (hacquired.watched hw)
    rw [hbegin] at hran
    obtain ⟨new', hasked⟩ := Abiding.totalChanges hE c w₂ ((hacquired.trans hran).watched hw)
    rw [hcount] at hasked
    have hbooks : w.SameBooks w₃ := by
      have hobtained : w.SameBooks ((m.acquire).perform w).2 := .of_store w _
      have hexecuted := ran_executeAll c (m.dialect.begin isolation) hbegin
      have hcounted : w₂.SameBooks ((m.totalChanges c).perform w₂).2 := .of_store w₂ _
      rw [hacquire] at hobtained
      rw [hcount] at hcounted
      exact (hobtained.trans hexecuted.1).trans hcounted
    exact {
      id_eq := hbooks.nextTransaction
      fresh := hfresh
      taken := hasked.taken _ (hran.taken _ hc)
      numbered := Nat.lt_succ_self _
      isolation_eq := rfl
      state := stateOf_enlist m c isolation changes w₃
      flags := ⟨hbooks.flags, hbooks.nextFlag⟩
      untouched := huntouched }

end Manager

namespace Abiding

open RowMapping.Action

/-- A transaction is given a number that no other one has. -/
theorem enlist (c : ConnectionId) (isolation : Isolation) (changes : Nat) :
    Abiding m.engine storage W (m.enlist c isolation changes : Action σ τ Transaction) := by
  intro w hw
  refine ⟨[], .of_books hw rfl (Nat.le_succ _) (Nat.le_refl _) (fun h => h) rfl fun t ht => ?_⟩
  have hsame : (w.modifyTransaction ⟨w.nextTransaction, c, isolation, changes⟩ fun _ =>
      { written := m.dialect.locksOnBegin isolation }).stateOf t = w.stateOf t :=
    World.stateOf_modifyTransaction_of_ne (Nat.ne_of_lt (hw.numbered t ht)) _ _
  exact ⟨congrArg (·.savepoints) hsame, congrArg (·.finished) hsame⟩

/-- Nobody notices whether a transaction begins. -/
theorem begin (hE : m.engine.Unreliable schema storage) (isolation : Isolation) :
    Abiding m.engine storage W (m.begin isolation : Action σ τ Transaction) := by
  intro w hw
  rw [Manager.begin, perform_bind]
  rcases hrun : (m.acquire).perform w with ⟨e | c, w₁⟩
  · exact ⟨[], (Abides.acquire hE hw hrun).1⟩
  obtain ⟨hacquired, htaken⟩ := Abides.acquire hE hw hrun
  obtain ⟨hfresh, hc⟩ := htaken c rfl
  have hother : ∀ t ∈ W.transaction, t.connection ≠ c := fun t ht heq =>
    hfresh (heq ▸ hw.taken t ht)
  have hstart : Abiding m.engine storage W
      (m.executeAll c (m.dialect.begin isolation) >>= fun _ => m.totalChanges c :
        Action σ τ Nat) :=
    (executeAll_apart hE hother _).bind fun _ => totalChanges hE c
  obtain ⟨new, hran⟩ := hstart w₁ (hacquired.watched hw)
  have hall := hacquired.trans hran
  dsimp only
  rw [perform_outcome_bind]
  rcases hbegun : (m.executeAll c (m.dialect.begin isolation) >>= fun _ =>
    m.totalChanges c).perform w₁ with ⟨e | changes, w₂⟩
  all_goals rw [hbegun] at hran hall
  · -- the connection is closed on which nothing could begin
    exact ⟨_, hall.returned hE hw hfresh (hran.taken c hc) true⟩
  · obtain ⟨new', hnumbered⟩ := enlist c isolation changes w₂ (hall.watched hw)
    exact ⟨_, hall.trans hnumbered⟩

/-- A transaction is ended that is not watched. -/
theorem finish_apart (hE : m.engine.Unreliable schema storage) {u : Transaction}
    (hu : ∀ t ∈ W.transaction, t.Apart u) (statement : Statement) :
    Abiding m.engine storage W (m.finish u statement : Action σ τ Unit) := by
  have hconnection : ∀ t ∈ W.transaction, t.connection ≠ u.connection := fun t ht => (hu t ht).2
  have hmark : ∀ f : TransactionState → TransactionState, Abiding m.engine storage W
      (Action.change (World.modifyTransaction u f : World σ τ → World σ τ)) := fun f =>
    modify u f fun t ht hid => absurd hid (hu t ht).1
  exact (composable m.engine storage W).finish (execute_apart hE hconnection statement)
    (hmark fun s => { s with finished := true }) (executeAll_apart hE hconnection _)
    (hmark fun s => { s with tainted := true })

theorem complete_apart (hE : m.engine.Unreliable schema storage) {u : Transaction}
    (hu : ∀ t ∈ W.transaction, t.Apart u) (result : Except Error ρ) (rollbackOnly : Bool) :
    Abiding m.engine storage W (m.complete u result rollbackOnly : Action σ τ ρ) :=
  (composable m.engine storage W).complete (finish_apart hE hu _) (finish_apart hE hu _) result
    rollbackOnly

end Abiding

/-- Nobody notices whether a transaction that has begun is settled. -/
theorem Abides.settled (hE : m.engine.Unreliable schema storage) {isolation : Isolation}
    {w w₁ w₂ : World σ τ} {t : Transaction} {new : List (Event τ)} (hw : Watched storage W w)
    (hbegun : Begun storage m isolation w t w₁) (hall : Abides m.engine storage W new w w₂)
    (htaken : (storage w₂.store).Taken t.connection) (result : Except Error ρ)
    (rollbackOnly : Bool) :
    ∃ new, Abides m.engine storage W new w ((m.settle t result rollbackOnly).perform w₂).2 := by
  obtain ⟨new', hcompleted⟩ := Abiding.complete_apart hE (hbegun.apart hw) result rollbackOnly w₂
    (hall.watched hw)
  rw [Manager.perform_settle]
  exact ⟨_, (hall.trans hcompleted).returned hE hw hbegun.fresh
    (hcompleted.taken t.connection htaken) _⟩

namespace Abiding

open RowMapping.Action

theorem runImplicit (hE : m.engine.Unreliable schema storage) (isolation : Isolation)
    {operation : ConnectionId → Action σ τ ρ}
    (hop : ∀ c, Abiding m.engine storage W (operation c)) :
    Abiding m.engine storage W (m.runImplicit isolation operation) := by
  intro w hw
  rw [Manager.runImplicit, perform_bind]
  have hbegins := begin hE isolation w hw
  rcases hrun : (m.begin isolation).perform w with ⟨e | t, w₁⟩
  all_goals rw [hrun] at hbegins
  · exact hbegins
  · obtain ⟨new, hbegin⟩ := hbegins
    have hbegun := Manager.begun_of_begin hE hw.sound hrun
    obtain ⟨new', hran⟩ := hop t.connection w₁ (hbegin.watched hw)
    dsimp only
    rw [perform_outcome_bind]
    exact (hbegin.trans hran).settled hE hw hbegun (hran.taken t.connection hbegun.taken) _ _

end Abiding

/-! ## The savepoint of an attempt -/

/-- Which flags may be set makes no difference to what becomes of the world. -/
theorem Abides.of_flags {E : Engine σ} {bound : FlagId} {new : List (Event τ)} {w w' : World σ τ}
    (h : Abides E storage { W with flags := bound } new w w') : Abides E storage W new w w' :=
  ⟨⟨h.sound, h.taken, h.isOpen, h.withheld, h.carried⟩, h.numbers, h.nextFlag, h.unset, h.trace,
    h.counted, h.finished⟩

/-- The flags of a scope are handed out before its work runs. -/
theorem Watched.of_flags {w : World σ τ} (hw : Watched storage W w) :
    Watched storage { W with flags := w.nextFlag } w :=
  ⟨hw.sound, Nat.le_refl _, hw.taken, hw.numbered, hw.isOpen⟩

namespace Manager

open RowMapping.Action

/-- The name of the next savepoint of a transaction. -/
def nextName (t : Transaction) (w : World σ τ) : String :=
  savepointName ((w.stateOf t).savepoints + 1)

/-- The world when a savepoint was tried to be set. -/
def afterSavepoint (m : Manager σ α) (t : Transaction) (w : World σ τ) :
    Except Error Unit × World σ τ :=
  (m.execute t.connection (m.dialect.savepoint (nextName t w))).perform
    (w.modifyTransaction t fun s => { s with savepoints := s.savepoints + 1 })

theorem perform_openAttempt_savepoint (m : Manager σ α) (t : Transaction) (w : World σ τ) :
    (m.openAttempt (.savepoint t)).perform w
      = match m.afterSavepoint t w with
        | (.error e, w₁) => (.error e, w₁)
        | (.ok _, w₁) => (.ok (.savepoint t (nextName t w) w₁.nextFlag),
            { w₁ with nextFlag := w₁.nextFlag + 1 }) := by
  rw [openAttempt, perform_bind_ok (perform_nextSavepoint t w), perform_bind, afterSavepoint,
    nextName, savepointName]
  rcases (m.execute t.connection _).perform _ with ⟨e | _, w₁⟩ <;> rfl

/-- What an attempt that begins a transaction has opened. -/
theorem opened_own {isolation : Isolation} {w w' : World σ τ} {o : Opened}
    (h : (m.openAttempt (.own isolation)).perform w = (.ok o, w')) :
    ∃ t w₁, (m.begin isolation).perform w = (.ok t, w₁) ∧ o = .own t w₁.nextFlag ∧
      w' = { w₁ with nextFlag := w₁.nextFlag + 1 } := by
  cases openSteps h with
  | begun hbegin => exact ⟨_, _, hbegin, rfl, rfl⟩

/-- What an attempt that sets a savepoint has opened. -/
theorem opened_savepoint {t : Transaction} {w w' : World σ τ} {o : Opened}
    (h : (m.openAttempt (.savepoint t)).perform w = (.ok o, w')) :
    ∃ w₁, m.afterSavepoint t w = (.ok (), w₁) ∧
      o = .savepoint t (nextName t w) w₁.nextFlag ∧
      w' = { w₁ with nextFlag := w₁.nextFlag + 1 } := by
  cases openSteps h with
  | set hrun => exact ⟨_, hrun, rfl, rfl⟩

end Manager

/-- A savepoint is set in the watched transaction or in one that has nothing to do with it. -/
def Concerns (m : Manager σ α) (W : Watch) (u : Transaction) : Prop :=
  ∀ t ∈ W.transaction, (t = u ∧ m.dialect.Standard) ∨ t.Apart u

theorem Concerns.apart {u : Transaction} (h : Concerns m W u) (hu : W.transaction ≠ some u) :
    ∀ t ∈ W.transaction, t.Apart u := by
  intro t ht
  rcases h t ht with ⟨rfl, -⟩ | hapart
  · exact absurd ht hu
  · exact hapart

theorem Concerns.standard {u : Transaction} (h : Concerns m W u) (hu : W.transaction = some u) :
    m.dialect.Standard := by
  rcases h u hu with ⟨-, hd⟩ | hapart
  · exact hd
  · exact absurd rfl hapart.1

/-- Setting a savepoint counts it, whether it succeeds or not. -/
theorem Abides.setSavepoint (hE : m.engine.Unreliable schema storage) {u : Transaction}
    (hu : Concerns m W u) {w : World σ τ} (hw : Watched storage W w) :
    ∃ new, Abides m.engine storage W new w (m.afterSavepoint u w).2 ∧
      (W.transaction = some u → savepointsOn u.connection new = [Manager.nextName u w]) := by
  have hcounted : ∀ i, i ≠ u.id →
      (w.modifyTransaction u fun s => { s with savepoints := s.savepoints + 1 }).transactions i
        = w.transactions i := fun i hi => if_neg hi
  by_cases hmine : W.transaction = some u
  · -- the number goes up even if the savepoint cannot be set, and so does the count of names
    have hset : m.dialect.savepoint (Manager.nextName u w) = .savepoint (Manager.nextName u w) :=
      (hu.standard hmine).savepoint _
    have hname : ∀ execution : Execution, execution.connection = u.connection →
        savepointsOn u.connection
          ([.executed execution (.savepoint (Manager.nextName u w))] : List (Event τ))
            = [Manager.nextName u w] := fun _ h => by
      rw [savepointsOn_executed, if_pos h]
      rfl
    have hmem : ∀ execution : Execution, execution.connection = u.connection →
        Manager.nextName u w ∈ savepointsOn u.connection
          ([.executed execution (.savepoint (Manager.nextName u w))] : List (Event τ)) :=
      fun execution h => (hname execution h).symm ▸ List.mem_singleton_self _
    have hdivides : (Statement.savepoint (Manager.nextName u w)).Divides := ⟨_, .inl rfl⟩
    rw [Manager.afterSavepoint, hset, Manager.perform_execute]
    refine ⟨_, ⟨.of_mayFail hw
      (hE.execute u.connection (.savepoint (Manager.nextName u w)) w.store)
      (Storage.movesOnly_execute schema.check u.connection _ _)
      (fun _ _ _ _ => Storage.stays_execute schema.check u.connection hdivides.endsNothing _)
      (fun _ _ _ => Storage.carries_savepoint (.inl (hmem _ rfl)) _)
      fun journal hj => hj.execute _ _ w.store, Nat.le_refl _, Nat.le_refl _, fun h => h, rfl,
      fun t ht => ?_, fun t ht => ?_⟩, fun _ => ?_⟩
    · cases hmine.symm.trans ht
      refine ⟨1, ?_, hname _ rfl⟩
      exact congrArg (·.savepoints) (World.stateOf_modifyTransaction u
        (fun s : TransactionState => { s with savepoints := s.savepoints + 1 }) w)
    · cases hmine.symm.trans ht
      exact congrArg (·.finished) (World.stateOf_modifyTransaction u
        (fun s : TransactionState => { s with savepoints := s.savepoints + 1 }) w)
    · exact hname _ rfl
  · -- another transaction counts its own savepoints
    have hapart := hu.apart hmine
    have hcount : Abiding m.engine storage W (Action.change (World.modifyTransaction u fun s =>
        { s with savepoints := s.savepoints + 1 } : World σ τ → World σ τ)) :=
      .modify u _ fun t ht hid => absurd hid (hapart t ht).1
    obtain ⟨new₁, h₁⟩ := hcount w hw
    obtain ⟨new₂, h₂⟩ := Abiding.execute_apart hE (fun t ht => (hapart t ht).2)
      (m.dialect.savepoint (Manager.nextName u w)) _ (h₁.watched hw)
    exact ⟨_, h₁.trans h₂, fun h => absurd h hmine⟩

/-- Work that is given a flag of its own, which it may set like those handed out before. -/
def WorkAbides (E : Engine σ) (storage : σ → Storage δ) (W : Watch)
    (work : FlagId → Action σ τ ρ) : Prop :=
  ∀ flag bound, flag < bound → W.flags ≤ bound →
    Abiding E storage { W with flags := bound } (work flag)

/-- The flag is handed out just before. -/
theorem WorkAbides.run {E : Engine σ} {work : FlagId → Action σ τ ρ}
    (hwork : WorkAbides E storage W work) {w : World σ τ} (hw : Watched storage W w) :
    ∃ new, Abides E storage W new w
      ((work w.nextFlag).perform { w with nextFlag := w.nextFlag + 1 }).2 := by
  obtain ⟨new, hflag⟩ := Abiding.newFlag (E := E) w hw
  have hwatched := (hflag.watched hw).of_flags
  obtain ⟨new', hrun⟩ := hwork w.nextFlag (w.nextFlag + 1) (Nat.lt_succ_self _)
    (Nat.le_succ_of_le hw.flags) _ hwatched
  exact ⟨_, hflag.trans hrun.of_flags⟩

namespace Abiding

open RowMapping.Action

variable {suspended : List Transaction} {work : Manager.ScopedWork σ τ ρ} {number : Nat}

/-- An attempt in a transaction of its own has nothing to do with the one that is watched. -/
theorem tryOnce_own (hE : m.engine.Unreliable schema storage) {isolation : Isolation}
    (hwork : ∀ u, (∀ t ∈ W.transaction, t.Apart u) → WorkAbides m.engine storage W fun flag =>
      work ⟨.transaction u flag, suspended⟩ ⟨some u, flag⟩ number) :
    Abiding m.engine storage W (m.tryOnce (.own isolation) suspended work number) := by
  intro w hw
  rw [Manager.perform_tryOnce, Manager.perform_openAttempt_own]
  have hbegins := begin hE isolation w hw
  rcases hrun : (m.begin isolation).perform w with ⟨e | u, w₁⟩
  all_goals rw [hrun] at hbegins
  · exact hbegins
  · obtain ⟨new, hbegin⟩ := hbegins
    have hbegun := Manager.begun_of_begin hE hw.sound hrun
    obtain ⟨new', hran⟩ := (hwork u (hbegun.apart hw)).run (hbegin.watched hw)
    exact (hbegin.trans hran).settled hE hw hbegun (hran.taken u.connection hbegun.taken) _ _

theorem leave_apart (hE : m.engine.Unreliable schema storage) {u : Transaction}
    (hu : ∀ t ∈ W.transaction, t.Apart u) (name : String) (result : Except Error ρ)
    (rollbackOnly : Bool) :
    Abiding m.engine storage W (m.leave u name result rollbackOnly : Action σ τ ρ) := by
  have hconnection : ∀ t ∈ W.transaction, t.connection ≠ u.connection := fun t ht => (hu t ht).2
  exact (composable m.engine storage W).leave (execute_apart hE hconnection _)
    (execute_apart hE hconnection _) result rollbackOnly

/-- However a savepoint of the watched transaction is left, it is not left for good. -/
theorem leave (hE : m.engine.Unreliable schema storage) (hd : m.dialect.Standard)
    (u : Transaction) (name : String) (result : Except Error ρ) (rollbackOnly : Bool) :
    Abiding m.engine storage W (m.leave u name result rollbackOnly : Action σ τ ρ) :=
  (composable m.engine storage W).leave
    (execute_leaving hE u.connection (.inl (hd.rollbackTo name)))
    (execute_leaving hE u.connection (.inr (hd.release name))) result rollbackOnly

/-- An attempt in a savepoint, be it one of the watched transaction or not. -/
theorem tryOnce_savepoint (hE : m.engine.Unreliable schema storage) {u : Transaction}
    (hu : Concerns m W u) (hwork : WorkAbides m.engine storage W fun flag =>
      work ⟨.transaction u flag, suspended⟩ ⟨some u, flag⟩ number) :
    Abiding m.engine storage W (m.tryOnce (.savepoint u) suspended work number) := by
  intro w hw
  rw [Manager.perform_tryOnce, Manager.perform_openAttempt_savepoint]
  obtain ⟨new₁, hset, -⟩ := Abides.setSavepoint hE hu hw
  rcases hopen : m.afterSavepoint u w with ⟨e | _, w₁⟩
  all_goals rw [hopen] at hset
  · exact ⟨new₁, hset⟩
  dsimp only
  obtain ⟨new₂, hran⟩ := hwork.run (hset.watched hw)
  have hleave : ∀ (result : Except Error ρ) (rollbackOnly : Bool), Abiding m.engine storage W
      (m.leave u (Manager.nextName u w) result rollbackOnly : Action σ τ ρ) := by
    by_cases hmine : W.transaction = some u
    · exact leave hE (hu.standard hmine) u _
    · exact leave_apart hE (hu.apart hmine) _
  have hworked := hset.trans hran
  obtain ⟨new₃, hleft⟩ := hleave _ _ _ (hworked.watched hw)
  exact ⟨_, hworked.trans hleft⟩

end Abiding

/-- What an attempt opens is opened with everything abiding that is watched. -/
theorem Abides.openAttempt (hE : m.engine.Unreliable schema storage) {opening : Opening}
    (hopening : ∀ t, opening = .savepoint t → Concerns m W t) {w w' : World σ τ}
    (hw : Watched storage W w) {o : Opened}
    (h : (m.openAttempt opening).perform w = (.ok o, w')) :
    ∃ new, Abides m.engine storage W new w w' := by
  have hflag : ∀ {new : List (Event τ)} {w₁ : World σ τ}, Abides m.engine storage W new w w₁ →
      w' = { w₁ with nextFlag := w₁.nextFlag + 1 } →
        ∃ new, Abides m.engine storage W new w w' := by
    rintro new w₁ h₁ rfl
    obtain ⟨new', h'⟩ := Abiding.newFlag (E := m.engine) w₁ (h₁.watched hw)
    exact ⟨_, h₁.trans h'⟩
  rcases opening with isolation | t
  · obtain ⟨t, w₁, hrun, -, heq⟩ := Manager.opened_own h
    obtain ⟨new, hbegin⟩ := Abiding.begin hE isolation w hw
    rw [hrun] at hbegin
    exact hflag hbegin heq
  · obtain ⟨w₁, hrun, -, heq⟩ := Manager.opened_savepoint h
    obtain ⟨new, hset, -⟩ := Abides.setSavepoint hE (hopening t rfl) hw
    rw [hrun] at hset
    exact hflag hset heq

/-- So does everything on the way to any attempt. -/
theorem Abides.beforeAttempt {E : Engine σ} {once : Nat → Action σ τ ρ}
    (honce : ∀ n, Abiding E storage W (once n)) {w : World σ τ} (hw : Watched storage W w)
    (i : Nat) : ∃ new, Abides E storage W new w (Manager.beforeAttempt once w i) := by
  induction i with
  | zero => exact ⟨[], .refl hw⟩
  | succ i ih =>
    obtain ⟨new, h⟩ := ih
    obtain ⟨new', h'⟩ := honce (i + 1) _ (h.watched hw)
    exact ⟨_, h.trans h'⟩

end RowMapping
