/-
What operations leave behind on connections, whatever fails.

An operation works on the connection of its transaction, or on one that it takes from the
pool for itself. That one is given back with nothing open on it, or closed.
-/
import RowMapping.Proofs.Transaction.Cleaning
import RowMapping.Proofs.Transaction.Operations
import RowMapping.Proofs.Transaction.Stack

set_option autoImplicit false

namespace RowMapping

variable {σ δ τ α ρ κ : Type} {storage : σ → Storage δ} {schema : Schema δ}

/-- An action that leaves all connections at rest that are not used. The transactions of
others are open from the beginning. -/
def Tending (storage : σ → Storage δ) (T : Terms) (used : List ConnectionId)
    (a : Action σ τ ρ) : Prop :=
  ∀ w, T.first ≤ w.nextTransaction → (storage w.store).Rests used →
    (T.strict → ∀ c ∈ T.mine, (storage w.store).Opened c) →
    Tends storage T used used w (a.perform w).2

namespace Tending

open RowMapping.Action

variable {T : Terms} {used : List ConnectionId} {a : Action σ τ ρ}

theorem bind {f : ρ → Action σ τ κ} (ha : Tending storage T used a)
    (hf : ∀ x, Tending storage T used (f x)) :
    Tending storage T used (a >>= f) := by
  intro w hfirst hw hmine
  have h := ha w hfirst hw hmine
  rw [perform_bind]
  rcases hrun : a.perform w with ⟨e | x, w₁⟩
  · rw [hrun] at h
    exact h
  · rw [hrun] at h
    refine h.next (hf x w₁ (Nat.le_trans hfirst h.numbers) h.rests fun hstrict c hc => ?_)
    have ho := hmine hstrict c hc
    exact h.opened hstrict c (hw.mem_of_opened ho) ho

theorem outcome (ha : Tending storage T used a) :
    Tending storage T used (Action.outcome a) := ha

theorem still {a : Action σ τ ρ} (h : ∀ w, (a.perform w).2 = w) :
    Tending storage T used a := by
  intro w _ hw _
  rw [h w]
  exact .refl hw

theorem composable (storage : σ → Storage δ) (T : Terms) (used : List ConnectionId) :
    Composable (τ := τ) fun _ a => Tending storage T used a :=
  ⟨still, bind, outcome⟩

/-- Nothing becomes of the storage, nor of what has ended. -/
theorem aside {a : Action σ τ ρ}
    (hstore : ∀ w, storage (a.perform w).2.store = storage w.store)
    (hgrown : ∀ w, w.trace <+: (a.perform w).2.trace)
    (hstates : ∀ w i, ((a.perform w).2.transactions i).finished = (w.transactions i).finished)
    (hnext : ∀ w, (a.perform w).2.nextTransaction = w.nextTransaction) :
    Tending storage T used a :=
  fun w _ hw _ => .of_storage hw (hstore w) (hgrown w) (hstates w) (hnext w)

/-- Changing what is known about a transaction, but for its end. -/
theorem modify (t : Transaction) (f : TransactionState → TransactionState)
    (hfinished : ∀ s, (f s).finished = s.finished) :
    Tending storage T used
      (Action.change (World.modifyTransaction t f : World σ τ → World σ τ)) := by
  refine aside (fun _ => rfl) (fun w => List.prefix_refl _) (fun w i => ?_) fun _ => rfl
  show ((w.modifyTransaction t f).transactions i).finished = _
  by_cases h : i = t.id
  · rw [World.modifyTransaction]
    simp [h, hfinished]
  · simp [World.modifyTransaction, h]

theorem newFlag : Tending storage T used (Action.newFlag : Action σ τ FlagId) :=
  aside (fun _ => rfl) (fun _ => List.prefix_refl _) (fun _ _ => rfl) fun _ => rfl

variable {m : Manager σ α}

/-! ## Savepoints -/

theorem execute_within (hE : m.engine.Unreliable schema storage) {c : ConnectionId}
    (hc : c ∈ used) (hmine : c ∈ T.mine) {statement : Statement} (h : statement.Divides) :
    Tending storage T used (m.execute c statement : Action σ τ Unit) :=
  fun _ _ hw hopen =>
    Manager.tends_execute_within hE hw hc hmine (fun hstrict _ => hopen hstrict c hmine) h

theorem openAttempt_savepoint (hE : m.engine.Unreliable schema storage)
    (hd : m.dialect = .sqlite) {t : Transaction} (hc : t.connection ∈ used)
    (hmine : t.connection ∈ T.mine) :
    Tending storage T used (m.openAttempt (.savepoint t) : Action σ τ Opened) := by
  refine (composable storage T used).openAttempt_savepoint ?_ (fun name => ?_) newFlag
  · exact modify t (fun s => { s with savepoints := s.savepoints + 1 }) fun _ => rfl
  · have hset : m.dialect.savepoint name = .savepoint name := by
      rw [hd]
      rfl
    exact execute_within hE hc hmine ⟨name, .inl hset⟩

theorem leave (hE : m.engine.Unreliable schema storage) (hd : m.dialect = .sqlite)
    {t : Transaction} (hc : t.connection ∈ used) (hmine : t.connection ∈ T.mine) (name : String)
    (result : Except Error ρ) (rollbackOnly : Bool) :
    Tending storage T used (m.leave t name result rollbackOnly : Action σ τ ρ) := by
  have hstatements : m.dialect.rollbackTo name = .rollbackTo name ∧
      m.dialect.release name = .release name := by
    rw [hd]
    exact ⟨rfl, rfl⟩
  exact (composable storage T used).leave
    (execute_within hE hc hmine ⟨_, .inr (.inl hstatements.1)⟩)
    (execute_within hE hc hmine ⟨_, .inr (.inr hstatements.2)⟩) result rollbackOnly

/-! ## Suspended transactions -/

theorem totalChanges (hE : m.engine.Unreliable schema storage) (c : ConnectionId) :
    Tending storage T used (m.totalChanges c : Action σ τ Nat) :=
  aside (fun w => Manager.storage_totalChanges hE c w) (fun _ => List.prefix_refl _)
    (fun _ _ => rfl) fun _ => rfl

theorem permit (hE : m.engine.Unreliable schema storage) (suspended : List Transaction)
    (opening : Opening) :
    Tending storage T used (m.permit suspended opening : Action σ τ Unit) :=
  (composable storage T used).permit (totalChanges hE) suspended opening

theorem ensureAccess (hE : m.engine.Unreliable schema storage) (access : Access)
    (suspended : List Transaction) :
    Tending storage T used (m.ensureAccess access suspended : Action σ τ Unit) :=
  (composable storage T used).ensureAccess (totalChanges hE) access suspended

theorem markWritten (access : Access) (t : Transaction) :
    Tending storage T used (Manager.markWritten access t : Action σ τ Unit) :=
  (composable storage T used).markWritten
    (modify t (fun s => { s with written := true }) fun _ => rfl) access

end Tending

/-! ## Operations -/

/-- An operation that can be run on whatever connection it is given: it opens nothing, and
commits nothing where a transaction is open. -/
structure Serving (storage : σ → Storage δ) (operation : ConnectionId → Action σ τ ρ) : Prop where
  tends : ∀ {T used c w}, c ∈ used → (storage w.store).Rests used →
    (T.strict → T.calm → (storage w.store).Opened c) →
    Tends storage T used used w ((operation c).perform w).2
  closed : ∀ {c w}, ((storage w.store).sessions c).transaction = none →
    ((storage ((operation c).perform w).2.store).sessions c).transaction = none

namespace Serving

open RowMapping.Action

theorem still {operation : ConnectionId → Action σ τ ρ}
    (h : ∀ c w, ((operation c).perform w).2 = w) : Serving storage operation where
  tends {T used c w} _ hw _ := by
    rw [h c w]
    exact .refl hw
  closed {c w} hc := by
    rw [h c w]
    exact hc

/-- One after the other. -/
theorem bind {first : ConnectionId → Action σ τ ρ} {f : ConnectionId → ρ → Action σ τ κ}
    (h : Serving storage first) (hf : ∀ x, Serving storage fun c => f c x) :
    Serving storage fun c => first c >>= f c where
  tends {T used c w} hc hw hopened := by
    have h₁ := h.tends hc hw hopened
    show Tends storage T used used w ((first c >>= f c).perform w).2
    rw [perform_bind]
    rcases hrun : (first c).perform w with ⟨e | x, w₁⟩
    · rw [hrun] at h₁
      exact h₁
    · rw [hrun] at h₁
      refine h₁.next ((hf x).tends hc h₁.rests fun hstrict hcalm => ?_)
      exact h₁.opened hstrict c hc (hopened hstrict hcalm)
  closed {c w} hc := by
    have h₁ := h.closed hc
    show ((storage ((first c >>= f c).perform w).2.store).sessions c).transaction = none
    rw [perform_bind]
    rcases hrun : (first c).perform w with ⟨e | x, w₁⟩
    · rw [hrun] at h₁
      exact h₁
    · rw [hrun] at h₁
      exact (hf x).closed h₁

variable {E : Engine σ}

theorem update (hE : E.Unreliable schema storage) (sql : String) (cells : List Cell)
    (convert : DriverError → Error) :
    Serving (τ := τ) storage fun c => onStore (E.update c sql cells) convert where
  tends {T used c w} hc hw hopened :=
    .of_mayFail hw hc (hE.update c sql cells w.store) (Storage.behaves_update schema c sql cells _)
      (fun _ => Storage.stays_update schema c sql cells _)
      (fun _ hnone => Storage.update_closed hnone sql cells) hopened
  closed {c w} hc := by
    show ((storage (E.update c sql cells w.store).2).sessions c).transaction = none
    rcases hE.update c sql cells w.store with ⟨-, hstore⟩ | ⟨e, -, hstore⟩
    · rw [hstore]
      exact Storage.update_closed hc sql cells
    · rw [hstore]
      exact hc

theorem select (hE : E.Unreliable schema storage) (sql : String) (cells : List Cell)
    (convert : DriverError → Error) :
    Serving (τ := τ) storage fun c => onStore (E.select c sql cells) convert where
  tends {T used c w} hc hw hopened :=
    .of_mayFail hw hc (hE.select c sql cells w.store) (Storage.behaves_look c _)
      (fun _ => Storage.stays_look c _) (fun _ hnone => Storage.closed_look hnone) hopened
  closed {c w} hc := by
    show ((storage (E.select c sql cells w.store).2).sessions c).transaction = none
    rcases hE.select c sql cells w.store with ⟨-, hstore⟩ | ⟨e, -, hstore⟩
    · rw [hstore]
      exact Storage.closed_look hc
    · rw [hstore]
      exact hc

theorem updateEach {db : Database σ α} (hE : db.engine.Unreliable schema storage)
    (queries : List (Query α × List Cell)) :
    Serving (τ := τ) storage fun c => db.updateEach c queries := by
  induction queries with
  | nil => exact still fun _ _ => rfl
  | cons head rest ih =>
    obtain ⟨q, cells⟩ := head
    exact (update hE q.sql cells _).bind fun result => ih.bind fun _ => still fun _ _ => rfl

end Serving

namespace Tending

open RowMapping.Action

variable {T : Terms} {used : List ConnectionId} {m : Manager σ α}
  {operation : ConnectionId → Action σ τ ρ}

/-- An operation on the connection of a transaction. -/
theorem serving {c : ConnectionId} (hop : Serving storage operation) (hc : c ∈ used)
    (hmine : c ∈ T.mine) : Tending storage T used (operation c) :=
  fun _ _ hw hopen => hop.tends hc hw fun hstrict _ => hopen hstrict c hmine

/-- A connection that only an operation of the database was run on is given back. -/
theorem runAlone (hE : m.engine.Unreliable schema storage) (hcalm : ¬ T.calm)
    (hop : Serving storage operation) :
    Tending storage T used (m.runAlone operation) := by
  intro w _ hw _
  rw [Manager.perform_runAlone]
  rcases hacquire : (m.acquire).perform w with ⟨e | c, w₁⟩
  · exact Manager.tends_acquire hE hw hacquire
  · obtain ⟨hc, hacquired, hrest⟩ := Manager.tends_acquire (T := T) hE hw hacquire
    have hmem : c ∈ c :: used := List.mem_cons_self ..
    have hran := hop.tends (T := T) hmem hacquired.rests
      fun _ hcalm' => absurd hcalm' hcalm
    have htends := hacquired.trans hran fun i hi => List.mem_cons_of_mem c hi
    exact htends.released hE hc false fun _ =>
      ⟨hop.closed hrest.transaction, (hran.settings c hmem).trans hrest.settings⟩

/-- Whatever fails, an operation in a transaction of its own ends it. -/
theorem runImplicit (hE : m.engine.Unreliable schema storage) (hd : m.dialect = .sqlite)
    (isolation : Isolation) (hop : Serving storage operation) :
    Tending storage T used (m.runImplicit isolation operation) := by
  intro w hfirst hw _
  rw [Manager.runImplicit, perform_bind]
  rcases hbegin : (m.begin isolation).perform w with ⟨e | t, w₁⟩
  · exact Manager.enters_begin hE hd hfirst hw hbegin
  · have henters : Manager.Enters storage T used w t w₁ :=
      Manager.enters_begin hE hd hfirst hw hbegin
    have hmem : t.connection ∈ t.connection :: used := List.mem_cons_self ..
    -- the operation does not end the transaction that it runs in
    have hran := hop.tends (T := { T with first := t.id + 1 }) hmem henters.rests
      fun _ _ => henters.isOpen
    have hid : T.first ≤ t.id := Nat.le_trans hfirst henters.unused
    have hsettling : Manager.Settling storage t used ((operation t.connection).perform w₁).2 := by
      refine .of_unfinished hran.rests ?_ ?_
      · rw [Manager.Suits, hran.settings t.connection hmem]
        exact henters.suits
      · exact (hran.finished t.id (Nat.lt_succ_self _)).trans henters.unfinished
    have hsettled := Manager.tends_settle (T := T) hE hd henters.fresh hid hsettling
      ((operation t.connection).perform w₁).1 false
    have hran' : Tends storage T used (t.connection :: used) w _ :=
      henters.toTends.trans (hran.lower (Nat.le_succ_of_le hid)) fun i hi =>
        List.mem_cons_of_mem _ hi
    exact hran'.next hsettled

/-- Where an operation is run, and whether it may be run outside of transactions. -/
theorem withConnection (hE : m.engine.Unreliable schema storage) (hd : m.dialect = .sqlite)
    {scope : Option Scope}
    (hactive : ∀ t, Scope.active? scope = some t → t.connection ∈ used ∧ t.connection ∈ T.mine)
    (hcalm : T.calm → ∀ suspended, scope ≠ some ⟨.nonTransactional, suspended⟩)
    (implicit : Option Isolation) (access : Access) (hop : Serving storage operation) :
    Tending storage T used (m.withConnection scope implicit access operation) := by
  rcases scope with _ | ⟨⟨t, flag⟩ | _, suspended⟩
  · rcases implicit with _ | isolation
    · exact still fun _ => rfl
    · exact runImplicit hE hd isolation hop
  · obtain ⟨hc, hmine⟩ := hactive t rfl
    exact (ensureAccess hE access suspended).bind fun _ => (markWritten access t).bind fun _ =>
      serving hop hc hmine
  · refine (ensureAccess hE access suspended).bind fun _ => runAlone hE (fun h => ?_) hop
    exact hcalm h suspended rfl

variable {db : Database σ α}

theorem run (hE : db.engine.Unreliable schema storage) (hd : db.dialect = .sqlite)
    {scope : Option Scope}
    (hactive : ∀ t, Scope.active? scope = some t → t.connection ∈ used ∧ t.connection ∈ T.mine)
    (hcalm : T.calm → ∀ suspended, scope ≠ some ⟨.nonTransactional, suspended⟩)
    (access : Access) (q : Query α)
    {work : ConnectionId → String → List Cell → σ → Except DriverError ρ × σ}
    (hwork : ∀ cells convert,
      Serving (τ := τ) storage fun c => onStore (work c q.sql cells) convert) :
    Tending storage T used (db.run scope access q work : Action σ τ ρ) := by
  refine (still fun _ => rfl).bind fun settings => (still fun _ => rfl).bind fun cells => ?_
  exact withConnection hE hd hactive hcalm _ access (hwork cells _)

/-- Whatever an operation of the database does, it leaves connections at rest. -/
theorem answer (hE : db.engine.Unreliable schema storage) (hd : db.dialect = .sqlite)
    {scope : Option Scope}
    (hactive : ∀ t, Scope.active? scope = some t → t.connection ∈ used ∧ t.connection ∈ T.mine)
    (hcalm : T.calm → ∀ suspended, scope ≠ some ⟨.nonTransactional, suspended⟩)
    (operation : Operation α) :
    Tending storage T used (Script.answer db scope operation : Action σ τ Answer) := by
  rcases operation with q | ⟨sql, argumentLists⟩ | q
  · exact (run hE hd hactive hcalm .write q fun cells convert =>
      .update hE q.sql cells convert).bind fun _ => still fun _ => rfl
  · have hbatch : Tending storage T used
        (db.updateBatch scope sql argumentLists : Action σ τ (List Nat)) := by
      refine (still fun _ => rfl).bind fun settings => (still fun _ => rfl).bind fun batches => ?_
      exact withConnection hE hd hactive hcalm _ .write (.updateEach hE _)
    exact hbatch.bind fun _ => still fun _ => rfl
  · have htable : Tending storage T used
        (db.findTable scope q : Action σ τ ResultTable) :=
      (run hE hd hactive hcalm .read q fun cells convert =>
        .select hE q.sql cells convert).bind fun _ => still fun _ => rfl
    exact htable.bind fun _ => still fun _ => rfl

end Tending

/-! ## Operations past the database -/

/-- The statement of an operation, if it is one, is of a certain kind. -/
def ConnectionOperation.Executes (kind : Statement → Prop) : ConnectionOperation → Prop
  | update .. => True
  | execute statement => kind statement

/-- An operation that opens a transaction where none is open. -/
def ConnectionOperation.Opens : ConnectionOperation → Prop
  | update .. => False
  | execute statement => statement.Opens

/-- What the application may run past the database: no settings are changed, and where
nobody but the manager is to begin or end transactions, they are only divided. -/
structure Permits (strict : Prop) (kind : Statement → Prop) : Prop where
  settings : ∀ statement, kind statement → statement.KeepsSettings
  divides : strict → ∀ statement, kind statement → statement.Divides

namespace Tending

open RowMapping.Action

variable {T : Terms} {used : List ConnectionId} {db : Database σ α}
  {kind : Statement → Prop}

theorem serving_update (hE : db.engine.Unreliable schema storage) (sql : String)
    (cells : List Cell) :
    Serving (τ := τ) storage fun c => Script.answerOn db c (.update sql cells) :=
  (Serving.update hE sql cells Error.driver).bind fun _ => .still fun _ _ => rfl

theorem tends_answerOn (hE : db.engine.Unreliable schema storage) (hkind : Permits T.strict kind)
    {operation : ConnectionOperation} (hop : operation.Executes kind) {c : ConnectionId}
    (hopens : c ∉ T.mine → ¬ operation.Opens)
    {w : World σ τ} (hc : c ∈ used) (hw : (storage w.store).Rests used)
    (hopened : T.strict → T.calm → (storage w.store).Opened c) :
    Tends storage T used used w ((Script.answerOn db c operation).perform w).2 := by
  rcases operation with ⟨sql, cells⟩ | statement
  · exact (serving_update hE sql cells).tends hc hw hopened
  · show Tends storage T used used w
      ((Script.answerOn db c (.execute statement)).perform w).2
    rw [Script.answerOn, perform_bind_pure]
    refine .of_mayFail hw hc (hE.execute c statement w.store)
      (Storage.behaves_execute schema.check c (hkind.settings statement hop) _)
      (fun hstrict => ?_) (fun hmine => Storage.execute_closed schema.check (hopens hmine)) hopened
    exact Storage.stays_execute schema.check c (hkind.divides hstrict statement hop).endsNothing _

/-- Where nothing is open, nothing is open afterwards, unless the operation opens it. -/
theorem closed_answerOn (hE : db.engine.Unreliable schema storage)
    {operation : ConnectionOperation} (hopens : ¬ operation.Opens) {c : ConnectionId}
    {w : World σ τ} (hnone : ((storage w.store).sessions c).transaction = none) :
    ((storage ((Script.answerOn db c operation).perform w).2.store).sessions c).transaction
      = none := by
  rcases operation with ⟨sql, cells⟩ | statement
  · exact (serving_update hE sql cells).closed hnone
  · rw [Script.answerOn, perform_bind_pure]
    show ((storage (db.engine.execute c statement w.store).2).sessions c).transaction = none
    rcases hE.execute c statement w.store with ⟨-, hstore⟩ | ⟨e, -, hstore⟩
    · rw [hstore]
      exact Storage.execute_closed schema.check hopens hnone
    · rw [hstore]
      exact hnone

/-- In a scope without a transaction an operation gets a connection from the pool, which is
given back as it is. So nothing may be opened on it. -/
theorem answerPast (hE : db.engine.Unreliable schema storage) (hkind : Permits T.strict kind)
    {operation : ConnectionOperation} (hop : operation.Executes kind) {here : Surroundings}
    {depth : Nat}
    (haround : ∀ t ∈ here.transactions, t.connection ∈ used ∧ t.connection ∈ T.mine)
    (hcalm : T.calm → ∀ flag, here.contexts[depth]? ≠ some ⟨none, flag⟩)
    (hopens : ∀ flag, here.contexts[depth]? = some ⟨none, flag⟩ → ¬ operation.Opens) :
    Tending storage T used
      (Script.answerPast db here depth operation : Action σ τ Answer) := by
  rw [Script.answerPast]
  rcases hctx : here.contexts[depth]? with _ | ⟨_ | t, flag⟩
  · exact still fun _ => rfl
  · intro w _ hw _
    dsimp only
    rw [Manager.useConnection, Manager.perform_runAlone]
    rcases hacquire : (db.acquire).perform w with ⟨e | c, w₁⟩
    · exact Manager.tends_acquire hE hw hacquire
    · obtain ⟨hc, hacquired, hrest⟩ := Manager.tends_acquire (T := T) hE hw hacquire
      have hmem : c ∈ c :: used := List.mem_cons_self ..
      have hran := tends_answerOn (T := T) hE hkind hop (fun _ => hopens flag hctx) hmem
        hacquired.rests fun _ h => absurd hctx (hcalm h flag)
      have htends := hacquired.trans hran fun i hi => List.mem_cons_of_mem c hi
      exact htends.released hE hc false fun _ =>
        ⟨closed_answerOn hE (hopens flag hctx) hrest.transaction,
          (hran.settings c hmem).trans hrest.settings⟩
  · have ht : t ∈ here.transactions :=
      List.mem_filterMap.mpr ⟨_, List.mem_of_getElem? hctx, rfl⟩
    -- the transaction has a connection already
    obtain ⟨hc, hmine⟩ := haround t ht
    exact fun w _ hw hopen => tends_answerOn hE hkind hop (fun hnot => absurd hmine hnot) hc hw
      fun hstrict _ => hopen hstrict _ hmine

theorem mark (here : Surroundings) (depth : Nat) :
    Tending storage T used (Script.mark here depth : Action σ τ Unit) := by
  rw [Script.mark]
  split
  · exact aside (fun _ => rfl) (fun _ => List.prefix_refl _) (fun _ _ => rfl) fun _ => rfl
  · exact still fun _ => rfl

end Tending

end RowMapping
