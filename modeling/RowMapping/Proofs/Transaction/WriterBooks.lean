/-
What the manager knows about its transactions, against what has happened.

The history of a run tells which transactions wrote: those that locked when they
began, those in which the database wrote, and those whose rows were changed past it.
What the manager keeps is a mark and the count of a connection when its transaction
began. Step by step the two stay in agreement for every transaction that has begun.
-/
import RowMapping.Proofs.Transaction.Operations
import RowMapping.Proofs.Transaction.Stack

set_option autoImplicit false

namespace RowMapping

variable {σ τ α ρ : Type} {P : Pool σ}

/-! ## History -/

/-- Whether an operation comes next. -/
def Control.operates : Control α τ ρ → Bool
  | .run (.operate ..) => true
  | .run (.bypass ..) => true
  | _ => false

namespace Config

/-- A write of the database ran in a transaction. It was not refused, and may have
failed. -/
def WritesIn (db : Database σ α) (c : Config σ α τ ρ) (t : Transaction) : Prop :=
  ∃ operation next, c.control = .run (.operate operation next) ∧ operation.access = .write ∧
    db.resolves c.world.settings.enumMode operation = true ∧
    Scope.active? c.here.scope = some t ∧
    ¬ Refused ((Script.answer db c.here.scope operation).perform c.world).1

/-- Rows were changed on the connection of a transaction, past the database. -/
def ChangesRows (db : Database σ α) (c : Config σ α τ ρ) (t : Transaction) : Prop :=
  ∃ depth sql cells next flag, c.control = .run (.bypass depth (.update sql cells) next) ∧
    c.here.contexts[depth]? = some ⟨some t, flag⟩ ∧
    rowsOf (db.engine.update t.connection sql cells c.world.store).1 ≠ 0

/-- Nothing of this happened in a transaction. -/
def Idle (db : Database σ α) (c : Config σ α τ ρ) (t : Transaction) : Prop :=
  ¬ c.WritesIn db t ∧ ¬ c.ChangesRows db t

/-- Nobody writes where no operation comes next. -/
theorem idle_of_control {db : Database σ α} {c : Config σ α τ ρ}
    (h : c.control.operates = false) (t : Transaction) : c.Idle db t := by
  refine ⟨?_, ?_⟩
  · rintro ⟨operation, next, hcontrol, -⟩
    rw [hcontrol] at h
    cases h
  · rintro ⟨depth, sql, cells, next, flag, hcontrol, -⟩
    rw [hcontrol] at h
    cases h

end Config

/-- A transaction has become a writer. -/
def HasWritten (db : Database σ α) (past : List (Config σ α τ ρ)) (t : Transaction) : Prop :=
  db.dialect.locksOnBegin t.isolation = true ∨
    ∃ c ∈ past, c.WritesIn db t ∨ c.ChangesRows db t

theorem exists_now_or_past {p : Config σ α τ ρ → Prop} {c : Config σ α τ ρ}
    {past : List (Config σ α τ ρ)} :
    (∃ c' ∈ c :: past, p c') ↔ p c ∨ ∃ c' ∈ past, p c' := by
  simp

/-! ## One transaction -/

/-- What is known about a transaction agrees with the history. -/
structure Recorded (db : Database σ α) (P : Pool σ) (past : List (Config σ α τ ρ))
    (frames : List (Frame α τ ρ)) (w : World σ τ) (t : Transaction) : Prop where
  numbered : t.id < w.nextTransaction
  marked : (w.stateOf t).written = true ↔
    db.dialect.locksOnBegin t.isolation = true ∨ ∃ c ∈ past, c.WritesIn db t
  counted : t.changesAtBegin ≤ P.count w.store t.connection
  explained : P.count w.store t.connection ≠ t.changesAtBegin →
    ∃ c ∈ past, c.WritesIn db t ∨ c.ChangesRows db t
  grown : (∃ c ∈ past, c.ChangesRows db t) → t.changesAtBegin < P.count w.store t.connection
  held : (w.stateOf t).held = true → ∃ here next, Frame.held here t next ∈ frames

namespace Recorded

variable {db : Database σ α} {past : List (Config σ α τ ρ)} {frames frames' : List (Frame α τ ρ)}
  {w w' : World σ τ} {t : Transaction} {c : Config σ α τ ρ}

/-- A transaction that does nothing stays recorded. -/
theorem keep (h : Recorded db P past frames w t) (hidle : c.Idle db t)
    (hnext : w.nextTransaction ≤ w'.nextTransaction)
    (hmark : (w'.stateOf t).written = (w.stateOf t).written)
    (hcount : P.count w'.store t.connection = P.count w.store t.connection)
    (hheld : (w'.stateOf t).held = true → ∃ here next, Frame.held here t next ∈ frames') :
    Recorded db P (c :: past) frames' w' t where
  numbered := Nat.lt_of_lt_of_le h.numbered hnext
  marked := by
    have hpast : (∃ c' ∈ c :: past, c'.WritesIn db t) ↔ ∃ c' ∈ past, c'.WritesIn db t := by
      rw [exists_now_or_past]
      exact or_iff_right hidle.1
    rw [hmark, hpast]
    exact h.marked
  counted := hcount ▸ h.counted
  explained hne := by
    rw [hcount] at hne
    obtain ⟨c', hc', hwrote⟩ := h.explained hne
    exact ⟨c', List.mem_cons_of_mem c hc', hwrote⟩
  grown hchanged := by
    rw [exists_now_or_past] at hchanged
    rw [hcount]
    exact h.grown (hchanged.resolve_left hidle.2)
  held := hheld

/-- A transaction that is spared stays recorded. -/
theorem spared {mine : ConnectionId → Prop} (h : Recorded db P past frames w t)
    (hidle : c.Idle db t) (hspares : Spares P mine w w') (htaken : P.taken w.store t.connection)
    (hmine : ¬ mine t.connection)
    (hframes : ∀ here next, Frame.held here t next ∈ frames →
      ∃ here next, Frame.held here t next ∈ frames') :
    Recorded db P (c :: past) frames' w' t := by
  refine h.keep hidle hspares.numbers (hspares.written t.id h.numbered)
    (hspares.count t.connection htaken hmine) fun hheld => ?_
  rw [World.stateOf, hspares.held t.id h.numbered] at hheld
  obtain ⟨here, next, hframe⟩ := h.held hheld
  exact hframes here next hframe

/-- A transaction in which the database writes is marked. -/
theorem written (h : Recorded db P past frames w t) (hwrites : c.WritesIn db t)
    (hnochange : ¬ c.ChangesRows db t)
    (hworks : Works P t.connection (Manager.marked .write t w) w')
    (htaken : P.taken w.store t.connection) : Recorded db P (c :: past) frames w' t where
  numbered := Nat.lt_of_lt_of_le h.numbered hworks.numbers
  marked := by
    have hmark : (w'.stateOf t).written = true := by
      have hkept := hworks.written t.id h.numbered
      rw [← World.stateOf, Manager.marked, ← World.stateOf, World.stateOf_modifyTransaction] at hkept
      exact hkept
    rw [hmark]
    exact ⟨fun _ => .inr ⟨c, List.mem_cons_self .., hwrites⟩, fun _ => rfl⟩
  counted := Nat.le_trans h.counted (hworks.grown htaken)
  explained _ := ⟨c, List.mem_cons_self .., .inl hwrites⟩
  grown hchanged := by
    rw [exists_now_or_past] at hchanged
    exact Nat.lt_of_lt_of_le (h.grown (hchanged.resolve_left hnochange)) (hworks.grown htaken)
  held hheld := by
    have hkept := hworks.held t.id h.numbered
    rw [← World.stateOf, Manager.marked, ← World.stateOf, World.stateOf_modifyTransaction] at hkept
    exact h.held (hkept.symm.trans hheld)

/-- Rows that are changed past the database are counted. -/
theorem changed (h : Recorded db P past frames w t) (hnowrite : ¬ c.WritesIn db t)
    {rows : Nat} (hchanges : c.ChangesRows db t ↔ rows ≠ 0)
    (hspares : Spares P (· = t.connection) w w')
    (hcount : P.count w'.store t.connection = P.count w.store t.connection + rows) :
    Recorded db P (c :: past) frames w' t where
  numbered := Nat.lt_of_lt_of_le h.numbered hspares.numbers
  marked := by
    have hpast : (∃ c' ∈ c :: past, c'.WritesIn db t) ↔ ∃ c' ∈ past, c'.WritesIn db t := by
      rw [exists_now_or_past]
      exact or_iff_right hnowrite
    rw [World.stateOf, hspares.written t.id h.numbered, hpast]
    exact h.marked
  counted := by
    rw [hcount]
    exact Nat.le_add_right_of_le h.counted
  explained hne := by
    -- the step itself explains its rows, and what went before explains the rest
    by_cases hrows : rows = 0
    · rw [hcount, hrows] at hne
      obtain ⟨c', hc', hwrote⟩ := h.explained hne
      exact ⟨c', List.mem_cons_of_mem c hc', hwrote⟩
    · exact ⟨c, List.mem_cons_self .., .inr (hchanges.mpr hrows)⟩
  grown hchanged := by
    rw [exists_now_or_past] at hchanged
    have hcounted := h.counted
    rw [hcount]
    rcases hchanged with hnow | hbefore
    · have hrows := hchanges.mp hnow
      omega
    · have hgrown := h.grown hbefore
      omega
  held hheld := by
    rw [World.stateOf, hspares.held t.id h.numbered] at hheld
    exact h.held hheld

/-- A transaction that begins has no history. -/
theorem begins {isolation : Isolation} (hE : db.engine.Counting P)
    (h : Manager.Begins P db.toManager isolation w t w')
    (hpast : ∀ c ∈ past, ∀ u, c.WritesIn db u ∨ c.ChangesRows db u → u.id < w.nextTransaction) :
    Recorded db P past frames w' t := by
  have hnone : ¬ ∃ c ∈ past, c.WritesIn db t ∨ c.ChangesRows db t := by
    rintro ⟨c, hc, hwrote⟩
    have hlt := hpast c hc t hwrote
    have hle := h.unused
    omega
  refine ⟨h.numbered, ?_, Nat.le_of_eq (h.counted hE).symm, fun hne => absurd (h.counted hE) hne, ?_, ?_⟩
  · rw [h.state, h.isolation_eq]
    refine ⟨.inl, ?_⟩
    rintro (hlocks | ⟨c, hc, hwrites⟩)
    · exact hlocks
    · exact absurd ⟨c, hc, .inl hwrites⟩ hnone
  · rintro ⟨c, hc, hchanges⟩
    exact absurd ⟨c, hc, .inr hchanges⟩ hnone
  · rw [h.state]
    intro hheld
    cases hheld

/-- What the manager finds is what has happened, unless the connection is held. -/
theorem foundWriting_iff (h : Recorded db P past frames w t) (hE : db.engine.Counting P)
    (hfree : ∀ here next, Frame.held here t next ∉ frames) :
    db.foundWriting w t = true ↔ HasWritten db past t := by
  have hnot : (w.stateOf t).held = false := by
    rw [← Bool.not_eq_true]
    intro hheld
    obtain ⟨here, next, hframe⟩ := h.held hheld
    exact hfree here next hframe
  have hfound : db.foundWriting w t = true ↔
      (w.stateOf t).written = true ∨ P.count w.store t.connection ≠ t.changesAtBegin := by
    rw [Manager.foundWriting, hE.totalChanges_eq, hnot]
    simp
  rw [hfound, h.marked, HasWritten]
  constructor
  · rintro ((hlocks | ⟨c, hc, hwrites⟩) | hcount)
    · exact .inl hlocks
    · exact .inr ⟨c, hc, .inl hwrites⟩
    · exact .inr (h.explained hcount)
  · rintro (hlocks | ⟨c, hc, hwrites | hchanges⟩)
    · exact .inl (.inl hlocks)
    · exact .inl (.inr ⟨c, hc, hwrites⟩)
    · have hgrown := h.grown ⟨c, hc, hchanges⟩
      exact .inr (by omega)

end Recorded

/-! ## All transactions -/

/-- The transactions that have begun are recorded, each on a connection of its own. -/
structure Books (db : Database σ α) (P : Pool σ) (past : List (Config σ α τ ρ))
    (frames : List (Frame α τ ρ)) (w : World σ τ) : Prop where
  sound : P.sound w.store
  distinct : (checkedOut frames).Nodup
  taken : ∀ i ∈ checkedOut frames, P.taken w.store i
  unique : ∀ t ∈ begun frames, ∀ u ∈ begun frames, t.id = u.id → t = u
  recorded : ∀ t ∈ begun frames, Recorded db P past frames w t
  earlier : ∀ c ∈ past, ∀ t, c.WritesIn db t ∨ c.ChangesRows db t → t.id < w.nextTransaction

namespace Books

open RowMapping.Manager

variable {db : Database σ α} {past : List (Config σ α τ ρ)} {frames : List (Frame α τ ρ)}
  {w w' : World σ τ} {c : Config σ α τ ρ}

theorem start (hw : P.sound w.store) : Books db P [] ([] : List (Frame α τ ρ)) w where
  sound := hw
  distinct := .nil
  taken i hi := by cases hi
  unique t ht := by cases ht
  recorded t ht := by cases ht
  earlier c hc := by cases hc

theorem earlier_cons (h : Books db P past frames w) (hnext : w.nextTransaction ≤ w'.nextTransaction)
    (hnow : ∀ t, c.WritesIn db t ∨ c.ChangesRows db t → t ∈ begun frames) :
    ∀ c' ∈ c :: past, ∀ t, c'.WritesIn db t ∨ c'.ChangesRows db t → t.id < w'.nextTransaction := by
  intro c' hc' t hwrote
  rcases List.mem_cons.mp hc' with rfl | hc'
  · exact Nat.lt_of_lt_of_le (h.recorded t (hnow t hwrote)).numbered hnext
  · exact Nat.lt_of_lt_of_le (h.earlier c' hc' t hwrote) hnext

theorem not_wrote (hidle : ∀ t, c.Idle db t) (t : Transaction) :
    ¬ (c.WritesIn db t ∨ c.ChangesRows db t) := by
  rintro (h | h)
  · exact (hidle t).1 h
  · exact (hidle t).2 h

/-- A step that begins and ends nothing, and in which nobody writes. -/
theorem quiet {frames' : List (Frame α τ ρ)} (h : Books db P past frames w)
    (hidle : ∀ t, c.Idle db t) (hspares : Spares P (fun _ => False) w w')
    (hbegun : begun frames' = begun frames) (hout : checkedOut frames' = checkedOut frames)
    (hheld : ∀ t here next, Frame.held here t next ∈ frames →
      ∃ here next, Frame.held here t next ∈ frames') : Books db P (c :: past) frames' w' where
  sound := hspares.sound
  distinct := hout ▸ h.distinct
  taken i hi := hspares.taken i (h.taken i (hout ▸ hi)) fun hf => hf
  unique := by
    rw [hbegun]
    exact h.unique
  recorded t ht := by
    rw [hbegun] at ht
    exact (h.recorded t ht).spared (hidle t) hspares (h.taken _ (connection_mem_checkedOut ht))
      (fun hf => hf) (hheld t)
  earlier := h.earlier_cons hspares.numbers fun t hwrote => absurd hwrote (not_wrote hidle t)

theorem stateOf_marked_of_ne {t u : Transaction} (hne : u.id ≠ t.id) (access : Access)
    (w : World σ τ) : (marked access t w).stateOf u = w.stateOf u := by
  rcases access with _ | _
  · rfl
  · exact World.stateOf_modifyTransaction_of_ne hne (fun s => { s with written := true }) w

theorem store_marked (access : Access) (t : Transaction) (w : World σ τ) :
    (marked access t w).store = w.store ∧
      (marked access t w).nextTransaction = w.nextTransaction := by
  rcases access with _ | _ <;> exact ⟨rfl, rfl⟩

/-- A step that works in one of the transactions. -/
theorem work {t : Transaction} {access : Access} (h : Books db P past frames w)
    (ht : t ∈ begun frames) (hworks : Works P t.connection (marked access t w) w')
    (hidle : ∀ u, u ≠ t → c.Idle db u) (hrecorded : Recorded db P (c :: past) frames w' t) :
    Books db P (c :: past) frames w' := by
  obtain ⟨hstore, hnext⟩ := store_marked access t w
  have htaken : ∀ i ∈ checkedOut frames, P.taken (marked access t w).store i := by
    rw [hstore]
    exact h.taken
  have hstill : ∀ i ∈ checkedOut frames, P.taken w'.store i := by
    intro i hi
    by_cases hne : i = t.connection
    · exact hne ▸ hworks.still (hne ▸ htaken i hi)
    · exact hworks.taken i (htaken i hi) hne
  have hnumbers := hworks.numbers
  rw [hnext] at hnumbers
  refine {
    sound := hworks.sound
    distinct := h.distinct
    taken := hstill
    unique := h.unique
    recorded := fun u hu => ?recorded
    earlier := h.earlier_cons hnumbers fun u hwrote => ?wrote }
  case recorded =>
    by_cases heq : u = t
    · exact heq ▸ hrecorded
    · -- another transaction has another connection, which the step does not touch
      have hid : u.id ≠ t.id := fun hid => heq (h.unique u hu t ht hid)
      have hconnection : u.connection ≠ t.connection :=
        fun hc => heq (eq_of_connection_eq h.distinct hu ht hc)
      have hkept := h.recorded u hu
      have hstate := stateOf_marked_of_ne hid access w
      have hnumbered : u.id < (marked access t w).nextTransaction := hnext ▸ hkept.numbered
      refine hkept.keep (hidle u heq) hnumbers ?_ ?_ fun hheld => ?_
      · rw [World.stateOf, hworks.written u.id hnumbered]
        exact congrArg (·.written) hstate
      · rw [hworks.count u.connection (htaken _ (connection_mem_checkedOut hu)) hconnection, hstore]
      · rw [World.stateOf, hworks.held u.id hnumbered] at hheld
        exact hkept.held ((congrArg (·.held) hstate).symm.trans hheld)
  case wrote =>
    by_cases heq : u = t
    · exact heq ▸ ht
    · exact absurd hwrote (fun hwrote => by
        rcases hwrote with h | h
        · exact (hidle u heq).1 h
        · exact (hidle u heq).2 h)

theorem begins {isolation : Isolation} {t : Transaction} {flag : FlagId} {trial : Trial α τ ρ}
    (h : Books db P past frames w) (hE : db.engine.Counting P) (hidle : ∀ t, c.Idle db t)
    (hbegins : Begins P db.toManager isolation w t w') :
    Books db P (c :: past) (.attempt trial (.own t flag) :: frames) w' := by
  have hnew : ∀ u ∈ begun frames, u.id ≠ t.id := by
    intro u hu heq
    have hlt := (h.recorded u hu).numbered
    have hle := hbegins.unused
    omega
  have hearlier := h.earlier_cons (c := c) hbegins.numbers fun t hwrote =>
    absurd hwrote (not_wrote hidle t)
  refine {
    sound := hbegins.sound
    distinct := List.nodup_cons.mpr ⟨fun hmem => ?fresh, h.distinct⟩
    taken := fun i hi => ?taken
    unique := fun u hu v hv hid => ?unique
    recorded := fun u hu => ?recorded
    earlier := hearlier }
  case fresh => exact hbegins.fresh (h.taken t.connection hmem)
  case taken =>
    rcases List.mem_cons.mp hi with rfl | hi
    · exact hbegins.obtained
    · exact hbegins.taken i (h.taken i hi) fun hf => hf
  case unique =>
    rcases List.mem_cons.mp hu with rfl | hu'
    · rcases List.mem_cons.mp hv with rfl | hv'
      · rfl
      · exact absurd hid.symm (hnew v hv')
    · rcases List.mem_cons.mp hv with rfl | hv'
      · exact absurd hid (hnew u hu')
      · exact h.unique u hu' v hv' hid
  case recorded =>
    rcases List.mem_cons.mp hu with rfl | hu
    · -- whoever wrote before was numbered before this transaction
      refine .begins hE hbegins fun c' hc' v hwrote => ?_
      rcases List.mem_cons.mp hc' with rfl | hc'
      · exact absurd hwrote (not_wrote hidle v)
      · exact h.earlier c' hc' v hwrote
    · exact (h.recorded u hu).spared (hidle u) hbegins.toSpares
        (h.taken _ (connection_mem_checkedOut hu)) (fun hf => hf)
        fun here next hframe => ⟨here, next, List.mem_cons_of_mem _ hframe⟩

/-- The connection of the last frame is given back. -/
theorem gives {frame : Frame α τ ρ} {connection : ConnectionId}
    (h : Books db P past (frame :: frames) w) (hidle : ∀ t, c.Idle db t)
    (hframe : frame.connection? = some connection)
    (hspares : Spares P (· = connection) w w') : Books db P (c :: past) frames w' := by
  have hout : checkedOut (frame :: frames) = connection :: checkedOut frames :=
    List.filterMap_cons_some hframe
  have hdistinct := h.distinct
  have htaken := h.taken
  rw [hout] at hdistinct htaken
  obtain ⟨hfresh, hrest⟩ := List.nodup_cons.mp hdistinct
  have hbelow : ∀ t ∈ begun frames, t ∈ begun (frame :: frames) := by
    intro t ht
    obtain ⟨frame', hmem, ht⟩ := List.mem_filterMap.mp ht
    exact List.mem_filterMap.mpr ⟨frame', List.mem_cons_of_mem _ hmem, ht⟩
  refine {
    sound := hspares.sound
    distinct := hrest
    taken := fun i hi => ?taken
    unique := fun t ht u hu => h.unique t (hbelow t ht) u (hbelow u hu)
    recorded := fun t ht => ?recorded
    earlier := h.earlier_cons hspares.numbers fun t hwrote => absurd hwrote (not_wrote hidle t) }
  case taken =>
    exact hspares.taken i (htaken i (List.mem_cons_of_mem _ hi)) fun heq => hfresh (heq ▸ hi)
  case recorded =>
    have hconnection := connection_mem_checkedOut ht
    refine (h.recorded t (hbelow t ht)).spared (hidle t) hspares
      (htaken _ (List.mem_cons_of_mem _ hconnection)) (fun heq => hfresh (heq ▸ hconnection))
      fun here next hheld => ?_
    rcases List.mem_cons.mp hheld with rfl | hheld
    · cases hframe
    · exact ⟨here, next, hheld⟩

/-- A connection of the pool is checked out. -/
theorem borrows {connection : ConnectionId} {here : Surroundings}
    {next : Except Error ρ → Script α τ ρ} (h : Books db P past frames w)
    (hidle : ∀ t, c.Idle db t) (hobtains : Obtains P connection w w') :
    Books db P (c :: past) (.borrowed here connection next :: frames) w' where
  sound := hobtains.sound
  distinct := List.nodup_cons.mpr
    ⟨fun hmem => hobtains.fresh (h.taken connection hmem), h.distinct⟩
  taken i hi := by
    rcases List.mem_cons.mp hi with rfl | hi
    · exact hobtains.obtained
    · exact hobtains.taken i (h.taken i hi) fun hf => hf
  unique := h.unique
  recorded t ht := (h.recorded t ht).spared (hidle t) hobtains.toSpares
    (h.taken _ (connection_mem_checkedOut ht)) (fun hf => hf)
    fun here next hframe => ⟨here, next, List.mem_cons_of_mem _ hframe⟩
  earlier := h.earlier_cons hobtains.numbers fun t hwrote => absurd hwrote (not_wrote hidle t)

/-- Only whether one connection is held moves. -/
theorem holding {frames' : List (Frame α τ ρ)} (h : Books db P past frames w)
    (hidle : ∀ t, c.Idle db t) (t : Transaction) (held : Bool)
    (hbegun : begun frames' = begun frames) (hout : checkedOut frames' = checkedOut frames)
    (hframes : ∀ u ∈ begun frames, (u.id = t.id → held = true) →
      (u.id ≠ t.id → ∃ here next, Frame.held here u next ∈ frames) →
      ∃ here next, Frame.held here u next ∈ frames') :
    Books db P (c :: past) frames' (w.modifyTransaction t fun s => { s with held }) where
  sound := h.sound
  distinct := hout ▸ h.distinct
  taken i hi := h.taken i (hout ▸ hi)
  unique := by
    rw [hbegun]
    exact h.unique
  recorded u hu := by
    rw [hbegun] at hu
    refine (h.recorded u hu).keep (hidle u) (Nat.le_refl _) ?_ rfl fun hheld => ?_
    · by_cases hid : u.id = t.id
      · simp [World.stateOf, World.modifyTransaction, hid]
      · rw [World.stateOf_modifyTransaction_of_ne hid]
    · refine hframes u hu (fun hid => ?_) fun hid => ?_
      · simpa [World.stateOf, World.modifyTransaction, hid] using hheld
      · rw [World.stateOf_modifyTransaction_of_ne hid] at hheld
        exact (h.recorded u hu).held hheld
  earlier := h.earlier_cons (Nat.le_refl _) fun t hwrote => absurd hwrote (not_wrote hidle t)

/-- The connection of a transaction is checked out. -/
theorem holds {t : Transaction} {here : Surroundings} {next : Except Error ρ → Script α τ ρ}
    (h : Books db P past frames w) (hidle : ∀ t, c.Idle db t) (ht : t ∈ begun frames) :
    Books db P (c :: past) (.held here t next :: frames)
      (w.modifyTransaction t fun s => { s with held := true }) := by
  refine h.holding hidle t true rfl rfl fun u hu _ hother => ?_
  by_cases hid : u.id = t.id
  · obtain rfl := h.unique u hu t ht hid
    exact ⟨here, next, List.mem_cons_self ..⟩
  · obtain ⟨here', next', hframe⟩ := hother hid
    exact ⟨here', next', List.mem_cons_of_mem _ hframe⟩

/-- The connection of a transaction is no longer checked out. -/
theorem lets {t : Transaction} {here : Surroundings} {next : Except Error ρ → Script α τ ρ}
    (h : Books db P past (.held here t next :: frames) w) (hidle : ∀ t, c.Idle db t) :
    Books db P (c :: past) frames (w.modifyTransaction t fun s => { s with held := false }) := by
  refine h.holding hidle t false rfl rfl fun u hu hsame hother => ?_
  by_cases hid : u.id = t.id
  · cases hsame hid
  · obtain ⟨here', next', hframe⟩ := hother hid
    rcases List.mem_cons.mp hframe with heq | hframe
    · cases heq
      exact absurd rfl hid
    · exact ⟨here', next', hframe⟩

theorem entered (h : Books db P past frames w) (number : Nat) (transactional : Bool) :
    Books db P past frames (w.entered number transactional) :=
  { h with recorded := fun t ht => { h.recorded t ht with } }

end Books

end RowMapping
