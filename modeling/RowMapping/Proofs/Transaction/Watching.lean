/-
Watching a transaction while something runs.

While the work of a scope runs, other transactions come and go, operations are run on any
connection, and flags are set. What is watched here is the transaction of the scope: it
stays on its connection, nothing of it is published, and what was there of it before
stays in place below what is added, or is lost for good. Beside this, no flag is set that
nobody has been given yet.

There is one lemma for everything that can be done to the storage or to the books.
-/
import RowMapping.Proofs.Storage.Journal
import RowMapping.Proofs.Storage.Savepoints
import RowMapping.Proofs.Transaction.Cleaning
import RowMapping.Proofs.Transaction.Composition

set_option autoImplicit false

namespace RowMapping

variable {σ δ τ α ρ κ : Type} {storage : σ → Storage δ} {schema : Schema δ} {E : Engine σ}

/-! ## Dialects -/

/-- A dialect that uses each statement for what it is there. A transaction is begun by one
statement, and others may stand before it, after it, and behind the end of the transaction. -/
structure Dialect.Standard (d : Dialect α) : Prop where
  begin : ∀ isolation, ∀ statement ∈ d.begin isolation, statement.Begins ∨ statement.Prepares
  begins : ∀ isolation, ∃ statement ∈ d.begin isolation, statement.Begins
  finish : ∀ isolation, ∀ statement ∈ d.finish isolation, statement.Prepares
  commit : d.commit = .commit
  rollback : d.rollback = .rollback
  savepoint : ∀ name, d.savepoint name = .savepoint name
  rollbackTo : ∀ name, d.rollbackTo name = .rollbackTo name
  release : ∀ name, d.release name = .release name

theorem Dialect.standard_sqlite : (Dialect.sqlite : Dialect α).Standard where
  begin isolation := by
    cases isolation <;> simp [sqlite, sqliteBegin, Statement.Begins, Statement.Prepares]
  begins isolation := by cases isolation <;> simp [sqlite, sqliteBegin, Statement.Begins]
  finish isolation := by cases isolation <;> simp [sqlite, sqliteFinish, Statement.Prepares]
  commit := rfl
  rollback := rfl
  savepoint _ := rfl
  rollbackTo _ := rfl
  release _ := rfl

theorem Dialect.standard_generic : (Dialect.generic : Dialect α).Standard where
  begin isolation := by
    cases isolation <;>
      simp [generic, Isolation.sqlName?, Statement.Begins, Statement.Prepares]
  begins isolation := ⟨.beginDeferred, List.mem_cons_self .., .inl rfl⟩
  finish _ := by simp [generic]
  commit := rfl
  rollback := rfl
  savepoint _ := rfl
  rollbackTo _ := rfl
  release _ := rfl

/-! ## Savepoints by name -/

/-- The savepoint that a statement sets. -/
def Statement.savepoint? : Statement → Option String
  | savepoint name => some name
  | _ => none

/-- The savepoints that the manager has set on a connection, or tried to. -/
def savepointsOn (c : ConnectionId) (events : List (Event τ)) : List String :=
  (statementsOn c events).filterMap fun said => said.1.savepoint?

theorem savepointsOn_append (c : ConnectionId) (first second : List (Event τ)) :
    savepointsOn c (first ++ second) = savepointsOn c first ++ savepointsOn c second := by
  rw [savepointsOn, statementsOn_append, List.filterMap_append]
  rfl

theorem savepointsOn_executed (execution : Execution) (statement : Statement)
    (c : ConnectionId) :
    savepointsOn c ([.executed execution statement] : List (Event τ))
      = if execution.connection = c then statement.savepoint?.toList else [] := by
  rw [savepointsOn, statementsOn]
  split
  · rcases statement <;> rfl
  · rfl

/-! ## What is watched -/

/-- Flags that have not been handed out are not set. -/
def World.Unset (w : World σ τ) : Prop := ∀ i, w.nextFlag ≤ i → w.flags i = false

/-- What is known of a transaction has changed, and neither the count of its savepoints nor
whether it is ended. -/
structure TransactionState.Keeps (s s' : TransactionState) : Prop where
  savepoints : s'.savepoints = s.savepoints
  finished : s'.finished = s.finished

/-- What is watched while something runs. -/
structure Watch where
  /-- The flags that may be set are below this one. -/
  flags : FlagId
  transaction : Option Transaction := none
  /-- Nobody but the manager ends transactions. -/
  unended : Prop := False
  /-- The names that nobody but the manager uses for savepoints. -/
  reserved : String → Prop := fun _ => False

/-- The names that savepoints may get, with those that the manager uses. -/
def Watch.Allows (W : Watch) (names : List String) (name : String) : Prop :=
  name ∈ names ∨ ¬ W.reserved name

/-- A world in which something can be watched. -/
structure Watched (storage : σ → Storage δ) (W : Watch) (w : World σ τ) : Prop where
  sound : (storage w.store).SoundPool
  flags : W.flags ≤ w.nextFlag
  taken : ∀ t ∈ W.transaction, (storage w.store).Taken t.connection
  numbered : ∀ t ∈ W.transaction, t.id < w.nextTransaction
  isOpen : W.unended → ∀ t ∈ W.transaction, (storage w.store).Opened t.connection

/-- Where no transaction is watched, little has to hold. -/
theorem Watched.nothing {w : World σ τ} (hsound : (storage w.store).SoundPool) :
    Watched storage ⟨w.nextFlag, none, False, fun _ => False⟩ w :=
  ⟨hsound, Nat.le_refl _, nofun, nofun, nofun⟩

/-- What becomes of a transaction on a connection: it goes on with nothing of it committed, or
there are only savepoints with certain names there. -/
structure Carried (E : Engine σ) (storage : σ → Storage δ) (c : ConnectionId)
    (among : String → Prop) (s s' : σ) : Prop where
  marks : ∀ mark ∈ (storage s').marks c, mark ∈ (storage s).marks c ∨ among mark.name
  goesOn : ∀ x, ((storage s).sessions c).transaction = some x →
    (∃ x', ((storage s').sessions c).transaction = some x' ∧ x.GoesOn among x' ∧
      ∀ journal, E.Journals storage journal → Withheld journal c s s') ∨
    ∀ mark ∈ (storage s').marks c, among mark.name

namespace Carried

variable {c : ConnectionId} {among among' : String → Prop} {s s₁ s' : σ}

theorem of_carries (h : (storage s).Carries c among (storage s'))
    (hnoted : ∀ journal, E.Journals storage journal → Noted storage journal c s s') :
    Carried E storage c among s s' := by
  refine ⟨h.marks, fun x hx => (h.goesOn x hx).imp_left ?_⟩
  rintro ⟨x', hx', hgoes, hcontents⟩
  exact ⟨x', hx', hgoes, fun journal hj => .of_noted (hnoted journal hj) fun _ => hcontents⟩

/-- Nothing has happened to the transaction. -/
theorem of_transaction
    (hsame : ((storage s').sessions c).transaction = ((storage s).sessions c).transaction)
    (hwithheld : ∀ journal, E.Journals storage journal → Withheld journal c s s') :
    Carried E storage c among s s' := by
  refine ⟨fun mark hmark => .inl ?_, fun x hx => .inl ⟨x, hsame.trans hx, .refl x, hwithheld⟩⟩
  rw [Storage.marks, hsame] at hmark
  exact hmark

theorem refl (E : Engine σ) (storage : σ → Storage δ) (c : ConnectionId) (s : σ) :
    Carried E storage c among s s := of_transaction rfl fun _ _ => .refl s

theorem mono (h : Carried E storage c among s s') (himp : ∀ name, among name → among' name) :
    Carried E storage c among' s s' := by
  refine ⟨fun mark hmark => (h.marks mark hmark).imp_right (himp _), fun x hx => ?_⟩
  rcases h.goesOn x hx with ⟨x', hx', hgoes, hwithheld⟩ | hmarks
  · exact .inl ⟨x', hx', hgoes.mono himp, hwithheld⟩
  · exact .inr fun mark hmark => himp _ (hmarks mark hmark)

theorem trans (h₁ : Carried E storage c among s s₁) (h₂ : Carried E storage c among s₁ s') :
    Carried E storage c among s s' := by
  refine ⟨fun mark hmark => ?_, fun x hx => ?_⟩
  · rcases h₂.marks mark hmark with hmark | hname
    · exact h₁.marks mark hmark
    · exact .inr hname
  · rcases h₁.goesOn x hx with ⟨x₁, hx₁, hgoes₁, hwithheld₁⟩ | hmarks
    · refine (h₂.goesOn x₁ hx₁).imp_left ?_
      rintro ⟨x', hx', hgoes, hwithheld⟩
      exact ⟨x', hx', hgoes₁.trans hgoes, fun journal hj =>
        (hwithheld₁ journal hj).trans (hwithheld journal hj)⟩
    · -- once the transaction is gone, it does not come back
      refine .inr fun mark hmark => ?_
      rcases h₂.marks mark hmark with hmark | hname
      · exact hmarks mark hmark
      · exact hname

end Carried

/-- What becomes of the storage: taken connections stay taken, nothing is published on the
watched connection, and its transaction goes on with savepoints of certain names. -/
structure Upholds (E : Engine σ) (storage : σ → Storage δ) (W : Watch)
    (names : ConnectionId → List String) (s s' : σ) : Prop where
  sound : (storage s').SoundPool
  taken : ∀ c, (storage s).Taken c → (storage s').Taken c
  isOpen : W.unended → ∀ t ∈ W.transaction, (storage s').Opened t.connection
  withheld : W.unended → ∀ t ∈ W.transaction, ∀ journal, E.Journals storage journal →
    Withheld journal t.connection s s'
  carried : ∀ t ∈ W.transaction,
    Carried E storage t.connection (W.Allows (names t.connection)) s s'

/-- What becomes of the world, with the events on the way: beside the storage, numbers and
flags are handed out one after the other, and so are the names of savepoints. The watched
transaction is not ended. -/
structure Abides (E : Engine σ) (storage : σ → Storage δ) (W : Watch) (new : List (Event τ))
    (w w' : World σ τ) : Prop
    extends Upholds E storage W (fun c => savepointsOn c new) w.store w'.store where
  numbers : w.nextTransaction ≤ w'.nextTransaction
  nextFlag : w.nextFlag ≤ w'.nextFlag
  unset : w.Unset → w'.Unset
  trace : w'.trace = w.trace ++ new
  counted : ∀ t ∈ W.transaction, ∃ n : Nat,
    (w'.stateOf t).savepoints = (w.stateOf t).savepoints + UInt32.ofNat n ∧
    savepointsOn t.connection new = namesAfter (w.stateOf t).savepoints n
  finished : ∀ t ∈ W.transaction, (w'.stateOf t).finished = (w.stateOf t).finished

namespace Upholds

variable {W : Watch} {names names' : ConnectionId → List String} {w : World σ τ} {s₁ s' : σ}

theorem refl (hw : Watched storage W w) : Upholds E storage W names w.store w.store :=
  ⟨hw.sound, fun _ h => h, hw.isOpen, fun _ _ _ _ _ => .refl _, fun _ _ => .refl ..⟩

theorem trans {s : σ} (h₁ : Upholds E storage W names s s₁)
    (h₂ : Upholds E storage W names' s₁ s') :
    Upholds E storage W (fun c => names c ++ names' c) s s' where
  sound := h₂.sound
  taken c hc := h₂.taken c (h₁.taken c hc)
  isOpen := h₂.isOpen
  withheld hu t ht journal hj :=
    (h₁.withheld hu t ht journal hj).trans (h₂.withheld hu t ht journal hj)
  carried t ht := by
    have h₁' := (h₁.carried t ht).mono fun name (h : W.Allows _ name) =>
      h.imp_left (List.mem_append_left (names' t.connection))
    have h₂' := (h₂.carried t ht).mono fun name (h : W.Allows _ name) =>
      h.imp_left (List.mem_append_right (names t.connection))
    exact h₁'.trans h₂'

/-- Something was done on a connection. It matters what it was where the connection is
the one that is watched. -/
theorem of_mayFail {ε : Type} {c : ConnectionId} {done : Except ε ρ × Storage δ}
    {r : Except ε ρ × σ} (hw : Watched storage W w) (h : MayFail storage w.store done r)
    (hmoves : (storage w.store).MovesOnly c done.2)
    (hstays : W.unended → ∀ t ∈ W.transaction, t.connection = c → (storage w.store).Stays c done.2)
    (hcarries : ∀ t ∈ W.transaction, t.connection = c →
      (storage w.store).Carries c (W.Allows (names c)) done.2)
    (hnoted : ∀ journal, E.Journals storage journal → Noted storage journal c w.store r.2) :
    Upholds E storage W names w.store r.2 := by
  -- an engine that may fail has either done what a storage does, or nothing at all
  rcases h with ⟨-, hstore⟩ | ⟨e, -, hstore⟩
  · refine ⟨hstore ▸ hmoves.soundPool hw.sound, fun i hi => ?_, fun hu t ht => ?_,
      fun hu t ht journal hj => .of_noted (hnoted journal hj) fun hc => ?_, fun t ht => ?_⟩
    · rw [hstore, hmoves.taken]
      exact hi
    · rw [hstore]
      by_cases hc : t.connection = c
      · rw [hc]
        exact (hstays hu t ht hc).opened (hc ▸ hw.isOpen hu t ht)
      · obtain ⟨x, hx, hby⟩ := hw.isOpen hu t ht
        exact ⟨x, by rw [hmoves.sessions _ hc, hx], hby⟩
    · rw [hstore]
      exact (hstays hu t ht hc.symm).contents (hc ▸ hw.isOpen hu t ht)
    · by_cases hc : t.connection = c
      · rw [hc]
        exact .of_carries (hstore ▸ hcarries t ht hc) hnoted
      · refine .of_transaction (by rw [hstore, hmoves.sessions _ hc]) fun journal hj => ?_
        exact .of_noted (hnoted journal hj) fun heq => absurd heq.symm hc
  · refine ⟨hstore ▸ hw.sound, fun i hi => hstore ▸ hi, fun hu t ht => hstore ▸ hw.isOpen hu t ht,
      fun _ _ _ journal hj => .of_noted (hnoted journal hj) fun _ => by rw [hstore], fun t _ => ?_⟩
    refine .of_transaction (by rw [hstore]) fun journal hj => ?_
    exact .of_noted (hnoted journal hj) fun _ => by rw [hstore]

end Upholds

namespace Abides

variable {W : Watch} {new new' : List (Event τ)} {w w₁ w' : World σ τ}

/-- What is watched can be watched further. -/
theorem watched (hw : Watched storage W w) (h : Abides E storage W new w w') :
    Watched storage W w' where
  sound := h.sound
  flags := Nat.le_trans hw.flags h.nextFlag
  taken t ht := h.taken t.connection (hw.taken t ht)
  numbered t ht := Nat.lt_of_lt_of_le (hw.numbered t ht) h.numbers
  isOpen := h.isOpen

theorem trans (h₁ : Abides E storage W new w w₁) (h₂ : Abides E storage W new' w₁ w') :
    Abides E storage W (new ++ new') w w' where
  toUpholds := by
    -- the names of both parts are those of the events of both
    have h := h₁.toUpholds.trans h₂.toUpholds
    simp only [← savepointsOn_append] at h
    exact h
  numbers := Nat.le_trans h₁.numbers h₂.numbers
  nextFlag := Nat.le_trans h₁.nextFlag h₂.nextFlag
  unset hw := h₂.unset (h₁.unset hw)
  trace := by rw [h₂.trace, h₁.trace, List.append_assoc]
  counted t ht := by
    obtain ⟨n, hcount₁, hnames₁⟩ := h₁.counted t ht
    obtain ⟨k, hcount₂, hnames₂⟩ := h₂.counted t ht
    refine ⟨n + k, ?_, ?_⟩
    · rw [hcount₂, hcount₁, UInt32.ofNat_add, UInt32.add_assoc]
    · rw [savepointsOn_append, hnames₁, hnames₂, hcount₁, namesAfter_append]
  finished t ht := (h₂.finished t ht).trans (h₁.finished t ht)

/-- The books are as they were, and no savepoint was set on the watched connection. -/
theorem of_sameBooks (hbooks : w.SameBooks w') (htrace : w'.trace = w.trace ++ new)
    (hnone : ∀ t ∈ W.transaction, savepointsOn t.connection new = [])
    (h : Upholds E storage W (fun c => savepointsOn c new) w.store w'.store) :
    Abides E storage W new w w' where
  toUpholds := h
  numbers := Nat.le_of_eq hbooks.nextTransaction.symm
  nextFlag := Nat.le_of_eq hbooks.nextFlag.symm
  unset hw i hi := by
    rw [hbooks.flags]
    exact hw i (hbooks.nextFlag ▸ hi)
  trace := htrace
  counted t ht := by
    refine ⟨0, ?_, ?_⟩
    · rw [World.stateOf, World.stateOf, hbooks.transactions]
      exact (UInt32.add_zero _).symm
    · exact hnone t ht
  finished t _ := by rw [World.stateOf, World.stateOf, hbooks.transactions]

theorem refl (hw : Watched storage W w) : Abides E storage W [] w w :=
  .of_sameBooks (.refl w) (List.append_nil _).symm (fun _ _ => rfl) (.refl hw)

/-- Only the books have changed, and nothing that is watched about the transaction. -/
theorem of_books (hw : Watched storage W w) (hstore : w'.store = w.store)
    (hnumbers : w.nextTransaction ≤ w'.nextTransaction) (hnextFlag : w.nextFlag ≤ w'.nextFlag)
    (hunset : w.Unset → w'.Unset) (htrace : w'.trace = w.trace)
    (hcount : ∀ t ∈ W.transaction, (w.stateOf t).Keeps (w'.stateOf t)) :
    Abides E storage W [] w w' where
  toUpholds := by
    rw [hstore]
    exact .refl hw
  numbers := hnumbers
  nextFlag := hnextFlag
  unset := hunset
  trace := htrace.trans (List.append_nil _).symm
  counted t ht := ⟨0, (hcount t ht).savepoints.trans (UInt32.add_zero _).symm, rfl⟩
  finished t ht := (hcount t ht).finished

end Abides

/-- An action during which everything abides that is watched. -/
def Abiding (E : Engine σ) (storage : σ → Storage δ) (W : Watch) (a : Action σ τ ρ) : Prop :=
  ∀ w, Watched storage W w → ∃ new, Abides E storage W new w (a.perform w).2

namespace Abiding

open RowMapping.Action

variable {W : Watch} {a : Action σ τ ρ}

theorem bind {f : ρ → Action σ τ κ} (ha : Abiding E storage W a)
    (hf : ∀ x, Abiding E storage W (f x)) : Abiding E storage W (a >>= f) := by
  intro w hw
  obtain ⟨new, h⟩ := ha w hw
  rw [perform_bind]
  rcases hrun : a.perform w with ⟨e | x, w₁⟩
  all_goals rw [hrun] at h
  · exact ⟨new, h⟩
  · obtain ⟨new', h'⟩ := hf x w₁ (h.watched hw)
    exact ⟨new ++ new', h.trans h'⟩

theorem outcome (ha : Abiding E storage W a) : Abiding E storage W (Action.outcome a) := ha

theorem still (h : ∀ w, (a.perform w).2 = w) : Abiding E storage W a := by
  intro w hw
  rw [h w]
  exact ⟨[], .refl hw⟩

theorem composable (E : Engine σ) (storage : σ → Storage δ) (W : Watch) :
    Composable (τ := τ) fun _ a => Abiding E storage W a :=
  ⟨still, bind, outcome⟩

/-! ## The books -/

/-- The watched transaction is told apart from others by its number. -/
theorem modify (t : Transaction) (f : TransactionState → TransactionState)
    (hkeeps : ∀ u ∈ W.transaction, u.id = t.id → ∀ s : TransactionState, s.Keeps (f s)) :
    Abiding E storage W
      (Action.change (World.modifyTransaction t f : World σ τ → World σ τ)) := by
  intro w hw
  refine ⟨[], .of_books hw rfl (Nat.le_refl _) (Nat.le_refl _) (fun h => h) rfl fun u hu => ?_⟩
  show (w.stateOf u).Keeps ((w.modifyTransaction t f).stateOf u)
  by_cases hid : u.id = t.id
  · have hstate : (w.modifyTransaction t f).stateOf u = f (w.stateOf u) := by
      simp [World.modifyTransaction, World.stateOf, hid]
    rw [hstate]
    exact hkeeps u hu hid _
  · rw [World.stateOf_modifyTransaction_of_ne hid]
    exact ⟨rfl, rfl⟩

/-- A change of no consequence may be made to every transaction. -/
theorem note (t : Transaction) (f : TransactionState → TransactionState)
    (h : ∀ s : TransactionState, s.Keeps (f s)) :
    Abiding E storage W
      (Action.change (World.modifyTransaction t f : World σ τ → World σ τ)) :=
  modify t f fun _ _ _ => h

theorem newFlag : Abiding E storage W (Action.newFlag : Action σ τ FlagId) := by
  intro w hw
  refine ⟨[], .of_books hw rfl (Nat.le_refl _) (Nat.le_succ _) (fun h i hi => ?_) rfl
    fun _ _ => ⟨rfl, rfl⟩⟩
  exact h i (Nat.le_of_succ_le hi)

/-- Flags that were handed out may be set. -/
theorem setFlag {flag : FlagId} (hflag : flag < W.flags) :
    Abiding E storage W (Action.change (World.setFlag flag : World σ τ → World σ τ)) := by
  intro w hw
  refine ⟨[], .of_books hw rfl (Nat.le_refl _) (Nat.le_refl _) (fun h i hi => ?_) rfl
    fun _ _ => ⟨rfl, rfl⟩⟩
  -- a flag that was not handed out is beyond all that may be set
  have hne : i ≠ flag := Nat.ne_of_gt (Nat.lt_of_lt_of_le hflag (Nat.le_trans hw.flags hi))
  show (if i = flag then true else w.flags i) = false
  rw [if_neg hne]
  exact h i hi

theorem changeSettings (f : World σ τ → DatabaseSettings) :
    Abiding E storage W (Action.change fun w : World σ τ => { w with settings := f w }) := by
  intro w hw
  exact ⟨[], .of_books hw rfl (Nat.le_refl _) (Nat.le_refl _) (fun h => h) rfl
    fun _ _ => ⟨rfl, rfl⟩⟩

theorem record {event : Event τ}
    (h : ∀ execution statement, event ≠ .executed execution statement) :
    Abiding E storage W (Action.record (σ := σ) event) := by
  intro w hw
  have hnone : ∀ c, savepointsOn c [event] = [] := by
    intro c
    rcases event with ⟨execution, statement⟩ | _ | _
    · exact absurd rfl (h execution statement)
    · rfl
    · rfl
  refine ⟨[event], .of_sameBooks ⟨rfl, rfl, rfl, rfl, rfl⟩ rfl (fun t _ => hnone t.connection) ?_⟩
  exact .refl hw

/-! ## The storage -/

/-- Something is done on a connection that leaves nothing in the trace. -/
theorem onStore {ε : Type} {c : ConnectionId} {f : σ → Except ε ρ × σ}
    (done : Storage δ → Except ε ρ × Storage δ) (convert : ε → Error)
    (h : ∀ s, MayFail storage s (done (storage s)) (f s))
    (hmoves : ∀ s : Storage δ, s.MovesOnly c (done s).2)
    (hstays : W.unended → ∀ s : Storage δ, s.Stays c (done s).2)
    (hcarries : ∀ (among : String → Prop) (s : Storage δ), s.Carries c among (done s).2)
    (hnoted : ∀ journal, E.Journals storage journal → ∀ s, Noted storage journal c s (f s).2) :
    Abiding E storage W (Action.onStore f convert : Action σ τ ρ) := by
  intro w hw
  refine ⟨[], .of_sameBooks (.of_store w _) (List.append_nil _).symm (fun _ _ => rfl) ?_⟩
  exact .of_mayFail hw (h w.store) (hmoves _) (fun hu _ _ _ => hstays hu _)
    (fun _ _ _ => hcarries _ _) fun journal hj => hnoted journal hj w.store

variable {m : Manager σ α}

theorem totalChanges (hE : m.engine.Unreliable schema storage) (c : ConnectionId) :
    Abiding m.engine storage W (m.totalChanges c : Action σ τ Nat) :=
  onStore (fun s => (.ok (s.sessions c).changes, s)) _ (hE.totalChanges c) (fun s => .refl c s)
    (fun _ s => .refl c s) (fun _ s => .refl c s) fun _ hj => hj.totalChanges c

theorem update (hE : E.Unreliable schema storage) (c : ConnectionId) (sql : String)
    (cells : List Cell) (convert : DriverError → Error) :
    Abiding E storage W (Action.onStore (E.update c sql cells) convert : Action σ τ UpdateResult) :=
  onStore _ _ (hE.update c sql cells) (Storage.movesOnly_update schema c sql cells)
    (fun _ => Storage.stays_update schema c sql cells)
    (fun _ => Storage.carries_update schema sql cells) fun _ hj => hj.update c sql cells

theorem select (hE : E.Unreliable schema storage) (c : ConnectionId) (sql : String)
    (cells : List Cell) (convert : DriverError → Error) :
    Abiding E storage W (Action.onStore (E.select c sql cells) convert : Action σ τ StoredTable) :=
  onStore _ _ (hE.select c sql cells) (Storage.movesOnly_select schema c sql cells)
    (fun _ => Storage.stays_look c) (fun _ => Storage.carries_look)
    fun _ hj => hj.select c sql cells

/-- A statement that the application runs past the database. -/
theorem executePast (hE : E.Unreliable schema storage) (c : ConnectionId) {statement : Statement}
    (hends : W.unended → statement.EndsNothing)
    (hnames : ∀ name, W.reserved name → statement ≠ .savepoint name)
    (convert : DriverError → Error) :
    Abiding E storage W (Action.onStore (E.execute c statement) convert : Action σ τ Unit) := by
  intro w hw
  refine ⟨[], .of_sameBooks (.of_store w _) (List.append_nil _).symm (fun _ _ => rfl) ?_⟩
  exact .of_mayFail hw (hE.execute c statement w.store)
    (Storage.movesOnly_execute schema.check c statement _)
    (fun hu _ _ _ => Storage.stays_execute schema.check c (hends hu) _)
    (fun _ _ _ => Storage.carries_execute schema.check
      (fun name heq => .inr fun hreserved => hnames name hreserved heq) _)
    fun journal hj => hj.execute c statement w.store

/-- A statement of the manager on the connection of another transaction. -/
theorem execute_apart (hE : m.engine.Unreliable schema storage) {c : ConnectionId}
    (hc : ∀ t ∈ W.transaction, t.connection ≠ c) (statement : Statement) :
    Abiding m.engine storage W (m.execute c statement : Action σ τ Unit) := by
  intro w hw
  rw [Manager.perform_execute]
  refine ⟨_, .of_sameBooks (Manager.sameBooks_afterStatement m c statement w) rfl
    (fun t ht => ?_) ?_⟩
  · rw [savepointsOn_executed, if_neg (hc t ht).symm]
  · exact .of_mayFail hw (hE.execute c statement w.store)
      (Storage.movesOnly_execute schema.check c statement _)
      (fun _ t ht heq => absurd heq (hc t ht)) (fun t ht heq => absurd heq (hc t ht))
      fun journal hj => hj.execute c statement w.store

theorem executeAll_apart (hE : m.engine.Unreliable schema storage) {c : ConnectionId}
    (hc : ∀ t ∈ W.transaction, t.connection ≠ c) (statements : List Statement) :
    Abiding m.engine storage W (m.executeAll c statements : Action σ τ Unit) :=
  (composable m.engine storage W).executeAll fun statement _ => execute_apart hE hc statement

/-- A statement of the manager that leaves a savepoint, on any connection. -/
theorem execute_leaving (hE : m.engine.Unreliable schema storage) (c : ConnectionId)
    {statement : Statement} {name : String}
    (h : statement = .rollbackTo name ∨ statement = .release name) :
    Abiding m.engine storage W (m.execute c statement : Action σ τ Unit) := by
  have hnone : statement.savepoint? = none := by
    rcases h with rfl | rfl
    · rfl
    · rfl
  have hset : ∀ other, statement ≠ .savepoint other := by
    rintro other rfl
    cases hnone
  have hdivides : statement.Divides := ⟨name, .inr h⟩
  intro w hw
  rw [Manager.perform_execute]
  refine ⟨_, .of_sameBooks (Manager.sameBooks_afterStatement m c statement w) rfl
    (fun t _ => ?_) ?_⟩
  · rw [savepointsOn_executed, hnone]
    split <;> rfl
  · exact .of_mayFail hw (hE.execute c statement w.store)
      (Storage.movesOnly_execute schema.check c statement _)
      (fun _ _ _ _ => Storage.stays_execute schema.check c hdivides.endsNothing _)
      (fun _ _ _ => Storage.carries_execute schema.check
        (fun other heq => absurd heq (hset other)) _)
      fun journal hj => hj.execute c statement w.store

end Abiding

end RowMapping
