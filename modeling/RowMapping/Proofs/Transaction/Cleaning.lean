/-
What the manager leaves behind on its connections, whatever fails.

A transaction is begun on a connection at rest. Where that fails the connection is
closed. Where the transaction is settled, its connection is given back at rest, or closed
if it could not be ended or cleaned up after. So of all connections only those that are
used are not at rest, before and after, and nothing is committed without a COMMIT that
succeeds.
-/
import RowMapping.Proofs.Storage.Failures
import RowMapping.Proofs.Transaction.StatementRuns

set_option autoImplicit false

namespace RowMapping

variable {σ δ τ α ρ κ : Type} {storage : σ → Storage δ} {schema : Schema δ}

/-- A COMMIT has succeeded on the way from one world to another one. -/
def World.Commits (w w' : World σ τ) : Prop :=
  ∃ new c, w'.trace = w.trace ++ new ∧ .executed ⟨c, true⟩ .commit ∈ new

namespace World.Commits

variable {w w₁ w' : World σ τ}

theorem before (h : w.Commits w₁) (hgrown : w₁.trace <+: w'.trace) : w.Commits w' := by
  obtain ⟨new, c, htrace, hmem⟩ := h
  obtain ⟨later, hlater⟩ := hgrown
  refine ⟨new ++ later, c, ?_, List.mem_append_left later hmem⟩
  rw [← hlater, htrace, List.append_assoc]

theorem after (hgrown : w.trace <+: w₁.trace) (h : w₁.Commits w') : w.Commits w' := by
  obtain ⟨new, c, htrace, hmem⟩ := h
  obtain ⟨earlier, hearlier⟩ := hgrown
  refine ⟨earlier ++ new, c, ?_, List.mem_append_right earlier hmem⟩
  rw [htrace, ← hearlier, List.append_assoc]

/-- What is the same along two stretches unless they commit is the same along both. -/
theorem unless_trans {x y z : δ} (h₁ : y = x ∨ w.Commits w₁) (hgrown₁ : w.trace <+: w₁.trace)
    (h₂ : z = y ∨ w₁.Commits w') (hgrown₂ : w₁.trace <+: w'.trace) : z = x ∨ w.Commits w' := by
  rcases h₁ with rfl | hcommits
  · exact h₂.imp_right (.after hgrown₁)
  · exact .inr (hcommits.before hgrown₂)

end World.Commits

/-- Under which terms something is done. -/
structure Terms where
  /-- Nobody but the manager runs statements about transactions. -/
  strict : Prop
  /-- Nothing is written outside of transactions. -/
  calm : Prop
  /-- The number of the first transaction that may end. -/
  first : Nat
  /-- The connections that transactions have begun on. -/
  mine : List ConnectionId

/-- What becomes of the connections in use, while all others are at rest. Those that are
used afterwards may be others. On connections without a transaction none begins. -/
structure Tends (storage : σ → Storage δ) (T : Terms) (used out : List ConnectionId)
    (w w' : World σ τ) : Prop where
  rests : (storage w'.store).Rests out
  settings : ∀ c ∈ used, ((storage w'.store).sessions c).readUncommitted
    = ((storage w.store).sessions c).readUncommitted
  opened : T.strict → ∀ c ∈ used, (storage w.store).Opened c → (storage w'.store).Opened c
  closed : ∀ c ∈ used, c ∉ T.mine → ((storage w.store).sessions c).transaction = none →
    ((storage w'.store).sessions c).transaction = none
  contents : T.strict → T.calm →
    (storage w'.store).contents = (storage w.store).contents ∨ w.Commits w'
  grown : w.trace <+: w'.trace
  finished : ∀ i, i < T.first → (w'.transactions i).finished = (w.transactions i).finished
  numbers : w.nextTransaction ≤ w'.nextTransaction

namespace Tends

variable {T : Terms} {used mid used' out : List ConnectionId} {c : ConnectionId}
  {w w₁ w' : World σ τ}

theorem trans (h₁ : Tends storage T used mid w w₁) (h₂ : Tends storage T used' out w₁ w')
    (hsub : ∀ c ∈ used, c ∈ used') : Tends storage T used out w w' where
  rests := h₂.rests
  settings c hc := (h₂.settings c (hsub c hc)).trans (h₁.settings c hc)
  opened hstrict c hc ho := h₂.opened hstrict c (hsub c hc) (h₁.opened hstrict c hc ho)
  closed c hc hmine hnone := h₂.closed c (hsub c hc) hmine (h₁.closed c hc hmine hnone)
  contents hstrict hcalm := World.Commits.unless_trans (h₁.contents hstrict hcalm) h₁.grown
    (h₂.contents hstrict hcalm) h₂.grown
  grown := h₁.grown.trans h₂.grown
  finished i hi := (h₂.finished i hi).trans (h₁.finished i hi)
  numbers := Nat.le_trans h₁.numbers h₂.numbers

/-- The connections in use are the same ones all the time. -/
theorem next (h₁ : Tends storage T used mid w w₁) (h₂ : Tends storage T used out w₁ w') :
    Tends storage T used out w w' :=
  h₁.trans h₂ fun _ h => h

/-- The sessions of those in use are as they were, and so is what is committed. -/
theorem of_sessions (hrests : (storage w'.store).Rests out)
    (hsessions : ∀ i ∈ used, (storage w'.store).sessions i = (storage w.store).sessions i)
    (hcontents : (storage w'.store).contents = (storage w.store).contents ∨ w.Commits w')
    (hgrown : w.trace <+: w'.trace)
    (hstates : ∀ i, i < T.first →
      (w'.transactions i).finished = (w.transactions i).finished)
    (hnext : w.nextTransaction ≤ w'.nextTransaction) : Tends storage T used out w w' where
  rests := hrests
  settings i hi := by rw [hsessions i hi]
  opened _ i hi ho := by
    obtain ⟨t, ht, hby⟩ := ho
    exact ⟨t, (hsessions i hi).symm ▸ ht, hby⟩
  closed i hi _ hnone := by rwa [hsessions i hi]
  contents _ _ := hcontents
  grown := hgrown
  finished := hstates
  numbers := hnext

/-- Nothing has become of the storage. -/
theorem of_storage (hw : (storage w.store).Rests out) (hstore : storage w'.store = storage w.store)
    (hgrown : w.trace <+: w'.trace)
    (hstates : ∀ i, (w'.transactions i).finished = (w.transactions i).finished)
    (hnext : w'.nextTransaction = w.nextTransaction) : Tends storage T used out w w' :=
  .of_sessions (hstore ▸ hw) (fun _ _ => by rw [hstore]) (.inl (congrArg (·.contents) hstore))
    hgrown (fun i _ => hstates i) (Nat.le_of_eq hnext.symm)

theorem refl (hw : (storage w.store).Rests out) : Tends storage T used out w w :=
  .of_storage hw rfl (List.prefix_refl _) (fun _ => rfl) rfl

/-- Something was asked of the storage for a connection in use. -/
theorem of_mayFail {ε : Type} {done : Except ε ρ × Storage δ} {r : Except ε ρ × σ}
    (hw : (storage w.store).Rests used) (hc : c ∈ used) (h : MayFail storage w.store done r)
    (hbehaves : Storage.Behaves c (storage w.store) done.2)
    (hstays : T.strict → Storage.Stays c (storage w.store) done.2)
    (hclosed : c ∉ T.mine → ((storage w.store).sessions c).transaction = none →
      (done.2.sessions c).transaction = none)
    (hopened : T.strict → T.calm → (storage w.store).Opened c) :
    Tends storage T used used w { w with store := r.2 } := by
  rcases h with ⟨-, hstore⟩ | ⟨e, -, hstore⟩
  · refine ⟨?_, fun i _ => ?_, fun hstrict i _ ho => ?_, fun i _ hmine hnone => ?_,
      fun hstrict hcalm => .inl ?_, List.prefix_refl _, fun _ _ => rfl, Nat.le_refl _⟩
    all_goals
      show _
      dsimp only
      rw [hstore]
    · exact hw.behaves hc hbehaves
    · by_cases hi : i = c
      · rw [hi, hbehaves.settings]
      · rw [hbehaves.sessions i hi]
    · by_cases hi : i = c
      · exact hi ▸ (hstays hstrict).opened (hi ▸ ho)
      · obtain ⟨t, ht, hby⟩ := ho
        exact ⟨t, (hbehaves.sessions i hi).symm ▸ ht, hby⟩
    · by_cases hi : i = c
      · exact hi ▸ hclosed (hi ▸ hmine) (hi ▸ hnone)
      · rw [hbehaves.sessions i hi, hnone]
    · exact (hstays hstrict).contents (hopened hstrict hcalm)
  · exact .of_storage hw hstore (List.prefix_refl _) (fun _ => rfl) rfl

/-- If more is known of what may end, less is known too. -/
theorem lower {first : Nat} (h : Tends storage { T with first } used out w w')
    (hle : T.first ≤ first) : Tends storage T used out w w' where
  rests := h.rests
  settings := h.settings
  opened := h.opened
  closed := h.closed
  contents := h.contents
  grown := h.grown
  finished i hi := h.finished i (Nat.lt_of_lt_of_le hi hle)
  numbers := h.numbers

/-- A connection of one's own is given back at rest, or closed. -/
theorem released {m : Manager σ α} (hE : m.engine.Unreliable schema storage) (hc : c ∉ used)
    (h : Tends storage T used (c :: used) w w₁) (close : Bool)
    (hfit : close = false → ((storage w₁.store).sessions c).AtRest) :
    Tends storage T used used w ((m.release c close).perform w₁).2 := by
  have hstore : storage ((m.release c close).perform w₁).2.store
      = (storage w₁.store).giveBack c close := hE.release c close w₁.store
  refine h.next (.of_sessions ?_ (fun i hi => ?_) (.inl ?_) (List.prefix_refl _)
    (fun _ _ => rfl) (Nat.le_refl _))
  · rw [hstore]
    rcases close with _ | _
    · exact h.rests.giveBack hc (hfit rfl)
    · exact h.rests.close hc
  · have hne : i ≠ c := fun heq => hc (heq ▸ hi)
    rw [hstore]
    exact Storage.sessions_giveBack_of_ne hne close _
  · rw [hstore]
    exact Storage.contents_giveBack c close _

end Tends

/-! ## Statements -/

namespace Manager

open RowMapping.Action

variable {m : Manager σ α}

/-- What comes of a statement of the manager. -/
theorem execute_cases (hE : m.engine.Unreliable schema storage) (c : ConnectionId)
    (statement : Statement) {w w' : World σ τ} {r : Except Error Unit}
    (h : (m.execute c statement).perform w = (r, w')) :
    (storage w'.store = ((storage w.store).execute schema.check c statement).2 ∧
        (r = .ok () ↔ ((storage w.store).execute schema.check c statement).1 = .ok ())) ∨
      (storage w'.store = storage w.store ∧ r ≠ .ok ()) := by
  rw [perform_execute] at h
  obtain ⟨rfl, rfl⟩ := Prod.mk.inj h
  rcases hE.execute c statement w.store with ⟨hresult, hstore⟩ | ⟨e, hresult, hstore⟩
  · refine .inl ⟨hstore, ?_⟩
    rw [← hresult]
    rcases (m.engine.execute c statement w.store).1 with e | _
    · exact ⟨nofun, nofun⟩
    · exact ⟨fun _ => rfl, fun _ => rfl⟩
  · refine .inr ⟨hstore, ?_⟩
    rw [hresult]
    exact nofun

/-- What becomes of the storage where a statement succeeds. -/
theorem execute_ok (hE : m.engine.Unreliable schema storage) {c : ConnectionId}
    {statement : Statement} {w w' : World σ τ}
    (h : (m.execute c statement).perform w = (.ok (), w')) :
    storage w'.store = ((storage w.store).execute schema.check c statement).2 ∧
      ((storage w.store).execute schema.check c statement).1 = .ok () := by
  rcases execute_cases hE c statement h with ⟨hstore, hok⟩ | ⟨-, hne⟩
  · exact ⟨hstore, hok.mp rfl⟩
  · exact absurd rfl hne

theorem executeAll_cons_ok {c : ConnectionId} {statement : Statement} {rest : List Statement}
    {w w' : World σ τ} (h : (m.executeAll c (statement :: rest)).perform w = (.ok (), w')) :
    ∃ w₁, (m.execute c statement).perform w = (.ok (), w₁) ∧
      (m.executeAll c rest).perform w₁ = (.ok (), w') := by
  rw [executeAll, perform_bind] at h
  rcases hrun : (m.execute c statement).perform w with ⟨e | _, w₁⟩
  · rw [hrun] at h
    cases h
  · rw [hrun] at h
    exact ⟨w₁, rfl, h⟩

end Manager

/-! ## A connection of one's own -/

namespace Manager

open RowMapping.Action

variable {m : Manager σ α} {T : Terms} {c : ConnectionId} {used : List ConnectionId}
  {w w' : World σ τ}

/-- Statements of a transaction of one's own, savepoints aside. -/
theorem tends_execute_own (hE : m.engine.Unreliable schema storage) (hc : c ∉ used)
    (hw : (storage w.store).Rests (c :: used)) {statement : Statement}
    (hrelease : ∀ name, statement ≠ .release name) {r : Except Error Unit}
    (h : (m.execute c statement).perform w = (r, w')) :
    Tends storage T used (c :: used) w w' := by
  obtain ⟨hbooks, htrace⟩ := ran_execute c statement h
  have hgrown : w.trace <+: w'.trace := ⟨_, htrace.symm⟩
  have hstates : ∀ i, (w'.transactions i).finished = (w.transactions i).finished := fun i => by
    rw [hbooks.transactions]
  rcases execute_cases hE c statement h with ⟨hstore, hok⟩ | ⟨hstore, -⟩
  · have hrests : (storage w'.store).Rests (c :: used) := by
      rw [hstore]
      exact hw.execute (List.mem_cons_self ..) schema.check statement
    refine .of_sessions hrests (fun i hi => ?_) ?_ hgrown (fun i _ => hstates i)
      (Nat.le_of_eq hbooks.nextTransaction.symm)
    · have hne : i ≠ c := fun heq => hc (heq ▸ hi)
      rw [hstore]
      exact (Storage.movesOnly_execute schema.check c statement _).sessions i hne
    · rcases Storage.contents_execute schema.check c hrelease (storage w.store) with
        hsame | ⟨rfl, hdone⟩
      · exact .inl (by rw [hstore, hsame])
      · -- the COMMIT has succeeded, and is in the trace
        cases hok.mpr hdone
        exact .inr ⟨_, c, htrace, List.mem_cons_self ..⟩
  · exact .of_storage hw hstore hgrown hstates hbooks.nextTransaction

theorem tends_executeAll_own (hE : m.engine.Unreliable schema storage) (hc : c ∉ used)
    (hw : (storage w.store).Rests (c :: used)) {statements : List Statement}
    (hrelease : ∀ statement ∈ statements, ∀ name, statement ≠ .release name)
    {r : Except Error Unit} (h : (m.executeAll c statements).perform w = (r, w')) :
    Tends storage T used (c :: used) w w' := by
  induction statements generalizing w with
  | nil =>
    obtain ⟨-, rfl⟩ := Prod.mk.inj h
    exact .refl hw
  | cons statement rest ih =>
    rw [executeAll, perform_bind] at h
    rcases hrun : (m.execute c statement).perform w with ⟨e | _, w₁⟩
    all_goals
      have hfirst : Tends storage T used (c :: used) w w₁ :=
        tends_execute_own hE hc hw (hrelease statement (List.mem_cons_self ..)) hrun
      rw [hrun] at h
    · obtain ⟨-, rfl⟩ := Prod.mk.inj h
      exact hfirst
    · exact hfirst.next (ih hfirst.rests
        (fun s hs => hrelease s (List.mem_cons_of_mem statement hs)) h)

/-! ## Beginning -/

/-- A setting that is not the default one belongs to the isolation. -/
def Suits (storage : σ → Storage δ) (c : ConnectionId) (isolation : Isolation)
    (w : World σ τ) : Prop :=
  ((storage w.store).sessions c).readUncommitted = true → isolation = .readUncommitted

/-- A transaction that has begun is open, with the settings of its isolation. -/
theorem executeAll_sqliteBegin (hE : m.engine.Unreliable schema storage) {isolation : Isolation}
    (hrest : ((storage w.store).sessions c).AtRest)
    (h : (m.executeAll c (Dialect.sqliteBegin isolation)).perform w = (.ok (), w')) :
    (storage w'.store).Opened c ∧ Suits storage c isolation w' := by
  -- the last statement begins the transaction, on the settings that were made before
  have hbegin : ∀ {statement : Statement} {w₁ : World σ τ}, statement.Begins →
      (m.execute c statement).perform w₁ = (.ok (), w') → Suits storage c isolation w₁ →
      (storage w'.store).Opened c ∧ Suits storage c isolation w' := by
    intro statement w₁ hbegins hrun hsuits
    obtain ⟨hstore, hok⟩ := execute_ok hE hrun
    rw [Suits, hstore, (Storage.behaves_execute schema.check c hbegins.keepsSettings _).settings]
    exact ⟨Storage.opened_execute hbegins hok, hsuits⟩
  have hdefault : Suits storage c isolation w := by
    intro hset
    rw [hrest.settings] at hset
    cases hset
  cases isolation with
  | serializable =>
    obtain ⟨w₁, hrun, hrest⟩ := executeAll_cons_ok h
    obtain ⟨-, rfl⟩ := Prod.mk.inj hrest
    exact hbegin (.inr rfl) hrun hdefault
  | readUncommitted =>
    obtain ⟨w₁, -, hrest⟩ := executeAll_cons_ok h
    obtain ⟨w₂, hrun, hrest⟩ := executeAll_cons_ok hrest
    obtain ⟨-, rfl⟩ := Prod.mk.inj hrest
    exact hbegin (.inl rfl) hrun fun _ => rfl
  | _ =>
    obtain ⟨w₁, hrun, hrest⟩ := executeAll_cons_ok h
    obtain ⟨-, rfl⟩ := Prod.mk.inj hrest
    exact hbegin (.inl rfl) hrun hdefault

theorem storage_totalChanges (hE : m.engine.Unreliable schema storage) (c : ConnectionId)
    (w : World σ τ) : storage ((m.totalChanges c).perform w).2.store = storage w.store := by
  rcases hE.totalChanges c w.store with ⟨-, hstore⟩ | ⟨e, -, hstore⟩
  · exact hstore
  · exact hstore

theorem tends_totalChanges (hE : m.engine.Unreliable schema storage) {out : List ConnectionId}
    (hw : (storage w.store).Rests out) (c : ConnectionId) :
    Tends storage T used out w ((m.totalChanges c).perform w).2 :=
  .of_storage hw (storage_totalChanges hE c w) (List.prefix_refl _) (fun _ => rfl) rfl

/-- A connection is taken from the pool, and is at rest. -/
theorem tends_acquire (hE : m.engine.Unreliable schema storage)
    (hw : (storage w.store).Rests used) {r : Except Error ConnectionId}
    (h : (m.acquire).perform w = (r, w')) :
    match r with
    | .ok c => c ∉ used ∧ Tends storage T used (c :: used) w w' ∧
      ((storage w'.store).sessions c).AtRest
    | .error _ => Tends storage T used used w w' := by
  rw [perform_acquire] at h
  rcases hrun : (storage w.store).acquire with ⟨done, s'⟩
  -- the engine acquires as the storage does, or fails and changes nothing
  rcases hE.acquire w.store with ⟨hresult, hstore⟩ | ⟨e, hresult, hstore⟩
  · rw [hrun] at hresult hstore
    rw [hresult] at h
    rcases done with e | c
    · obtain ⟨rfl, rfl⟩ := Prod.mk.inj h
      refine .of_storage hw ?_ (List.prefix_refl _) (fun _ => rfl) rfl
      exact hstore.trans (hw.acquire_error hrun)
    · obtain ⟨rfl, rfl⟩ := Prod.mk.inj h
      obtain ⟨hc, hrests, hrest, hsessions, hcontents⟩ := hw.acquire hrun
      refine ⟨hc, .of_sessions ?_ (fun i _ => ?_) (.inl ?_) (List.prefix_refl _) (fun _ _ => rfl)
        (Nat.le_refl _), ?_⟩
      all_goals
        show _
        dsimp only
        rw [hstore]
      · exact hrests
      · rw [hsessions]
      · exact hcontents
      · exact hrest
  · rw [hresult] at h
    obtain ⟨rfl, rfl⟩ := Prod.mk.inj h
    exact .of_storage hw hstore (List.prefix_refl _) (fun _ => rfl) rfl

/-- A transaction that has begun on a connection of its own. -/
structure Enters (storage : σ → Storage δ) (T : Terms) (used : List ConnectionId)
    (w : World σ τ) (t : Transaction) (w' : World σ τ) : Prop
    extends Tends storage T used (t.connection :: used) w w' where
  fresh : t.connection ∉ used
  suits : Suits storage t.connection t.isolation w'
  isOpen : (storage w'.store).Opened t.connection
  unused : w.nextTransaction ≤ t.id
  numbered : t.id < w'.nextTransaction
  unfinished : (w'.stateOf t).finished = false

theorem release_begin {isolation : Isolation} {statement : Statement}
    (h : statement ∈ Dialect.sqliteBegin isolation) (name : String) :
    statement ≠ .release name := by
  rintro rfl
  cases isolation <;> simp [Dialect.sqliteBegin] at h

/-- Whatever fails when a transaction begins, it has begun or its connection is closed. -/
theorem enters_begin (hE : m.engine.Unreliable schema storage) (hd : m.dialect = .sqlite)
    (hfirst : T.first ≤ w.nextTransaction) (hw : (storage w.store).Rests used)
    {isolation : Isolation} {r : Except Error Transaction}
    (h : (m.begin isolation).perform w = (r, w')) :
    match r with
    | .ok t => Enters storage T used w t w'
    | .error _ => Tends storage T used used w w' := by
  have hbegin : m.dialect.begin isolation = Dialect.sqliteBegin isolation := by
    rw [hd]
    rfl
  -- what holds wherever it stops after the statements have been run, whatever came of them
  have hran : ∀ {c : ConnectionId} {w₁ w₂ : World σ τ} {r : Except Error Unit},
      (m.acquire).perform w = (.ok c, w₁) →
      (m.executeAll c (m.dialect.begin isolation)).perform w₁ = (r, w₂) →
      c ∉ used ∧ ((storage w₁.store).sessions c).AtRest ∧
        Tends storage T used (c :: used) w w₂ := by
    intro c w₁ w₂ r hacquire hrun
    rw [hbegin] at hrun
    obtain ⟨hc, hacquired, hrest⟩ := tends_acquire (T := T) hE hw hacquire
    exact ⟨hc, hrest, hacquired.next
      (tends_executeAll_own hE hc hacquired.rests (fun _ hs => release_begin hs) hrun)⟩
  have hcounted : ∀ {c : ConnectionId} {w₂ w₃ : World σ τ} {r : Except Error Nat},
      Tends storage T used (c :: used) w w₂ → (m.totalChanges c).perform w₂ = (r, w₃) →
      Tends storage T used (c :: used) w w₃ ∧ storage w₃.store = storage w₂.store := by
    intro c w₂ w₃ r hran hcount
    have htends := hran.next (tends_totalChanges hE hran.rests c)
    have hstore := storage_totalChanges hE c w₂
    rw [hcount] at htends hstore
    exact ⟨htends, hstore⟩
  cases beginSteps h with
  | unacquired hacquire => exact tends_acquire hE hw hacquire
  | refused hacquire hrun =>
    obtain ⟨hc, -, htends⟩ := hran hacquire hrun
    exact htends.released hE hc true fun hclose => by cases hclose
  | uncounted hacquire hrun hcount =>
    obtain ⟨hc, -, htends⟩ := hran hacquire hrun
    exact (hcounted htends hcount).1.released hE hc true fun hclose => by cases hclose
  | @begun c changes w₁ w₂ w₃ hacquire hrun hcount =>
    obtain ⟨hc, hrest, htends⟩ := hran hacquire hrun
    obtain ⟨hcounted, hstore⟩ := hcounted htends hcount
    obtain ⟨hopened, hsuits⟩ := executeAll_sqliteBegin hE hrest (hbegin ▸ hrun)
    have hnumbered : Tends storage T used (c :: used) w₃
        ((m.enlist c isolation changes).perform w₃).2 := by
      refine .of_sessions hcounted.rests (fun _ _ => rfl) (.inl rfl) (List.prefix_refl _)
        (fun i hi => ?_) (Nat.le_succ _)
      rw [transactions_enlist m c isolation changes
        (Nat.lt_of_lt_of_le (Nat.lt_of_lt_of_le hi hfirst) hcounted.numbers)]
    refine { hcounted.next hnumbered with
      fresh := hc
      suits := ?_
      isOpen := ?_
      unused := hcounted.numbers
      numbered := Nat.lt_succ_self _
      unfinished := ?_ }
    · show Suits storage c isolation w₃
      rw [Suits, hstore]
      exact hsuits
    · show (storage w₃.store).Opened c
      rw [hstore]
      exact hopened
    · exact congrArg TransactionState.finished (stateOf_enlist m c isolation changes w₃)

/-! ## Settling -/

/-- A transaction on its way to be settled: once it is finished and its connection is
not tainted, the connection is at rest. -/
structure Settling (storage : σ → Storage δ) (t : Transaction) (used : List ConnectionId)
    (w : World σ τ) : Prop where
  rests : (storage w.store).Rests (t.connection :: used)
  suits : Suits storage t.connection t.isolation w
  fit : unfit t w = false → ((storage w.store).sessions t.connection).AtRest

theorem Settling.of_unfinished {t : Transaction}
    (hrests : (storage w.store).Rests (t.connection :: used))
    (hsuits : Suits storage t.connection t.isolation w)
    (h : (w.stateOf t).finished = false) : Settling storage t used w where
  rests := hrests
  suits := hsuits
  fit hfit := by
    rw [unfit, h] at hfit
    cases hfit

theorem suits_execute (hE : m.engine.Unreliable schema storage) {isolation : Isolation}
    {statement : Statement} (hstatement : ∀ allowed, statement ≠ .readUncommitted allowed)
    (hsuits : Suits storage c isolation w) {r : Except Error Unit}
    (h : (m.execute c statement).perform w = (r, w')) : Suits storage c isolation w' := by
  rw [Suits]
  rcases execute_cases hE c statement h with ⟨hstore, -⟩ | ⟨hstore, -⟩
  · rw [hstore, (Storage.behaves_execute schema.check c hstatement _).settings]
    exact hsuits
  · rw [hstore]
    exact hsuits

/-- Once it has been ended, nothing is open on a connection. -/
theorem closed_execute (hE : m.engine.Unreliable schema storage) {statement : Statement}
    (hend : statement = .commit ∨ statement = .rollback)
    (h : (m.execute c statement).perform w = (.ok (), w')) :
    ((storage w'.store).sessions c).transaction = none := by
  obtain ⟨hstore, hok⟩ := execute_ok hE h
  rw [hstore]
  exact Storage.closed_execute hend hok

/-- Cleaning up after a transaction that was ended puts its connection at rest. -/
theorem atRest_sqliteFinish (hE : m.engine.Unreliable schema storage) {isolation : Isolation}
    (hclosed : ((storage w.store).sessions c).transaction = none)
    (hsuits : Suits storage c isolation w)
    (h : (m.executeAll c (Dialect.sqliteFinish isolation)).perform w = (.ok (), w')) :
    ((storage w'.store).sessions c).AtRest := by
  have hsame : isolation ≠ .readUncommitted → ((storage w.store).sessions c).AtRest := by
    intro hne
    refine ⟨hclosed, ?_⟩
    rw [← Bool.not_eq_true]
    exact fun hset => hne (hsuits hset)
  -- only this isolation has set something that is to be set back
  cases isolation with
  | readUncommitted =>
    obtain ⟨w₁, hrun, hrest⟩ := executeAll_cons_ok h
    obtain ⟨-, rfl⟩ := Prod.mk.inj hrest
    obtain ⟨hstore, -⟩ := execute_ok hE hrun
    rw [hstore]
    show (((storage w.store).setSession c _).sessions c).AtRest
    rw [Storage.sessions_setSession]
    exact ⟨hclosed, rfl⟩
  | _ =>
    obtain ⟨-, rfl⟩ := Prod.mk.inj h
    exact hsame (by simp)

/-- Only one isolation has anything to clean up. -/
theorem isolation_of_cleaning {isolation : Isolation} {e : Error}
    (h : (m.executeAll c (Dialect.sqliteFinish isolation)).perform w = (.error e, w')) :
    isolation = .readUncommitted := by
  cases isolation with
  | readUncommitted => rfl
  | _ => cases h

theorem release_sqliteFinish {isolation : Isolation} {statement : Statement}
    (h : statement ∈ Dialect.sqliteFinish isolation) (name : String) :
    statement ≠ .release name := by
  rintro rfl
  cases isolation <;> simp [Dialect.sqliteFinish] at h

/-- What is known of a transaction changes, and it is not one of the first. -/
theorem tends_modify {t : Transaction} (hfirst : T.first ≤ t.id)
    (hw : (storage w.store).Rests (c :: used)) (f : TransactionState → TransactionState) :
    Tends storage T used (c :: used) w (w.modifyTransaction t f) := by
  refine .of_sessions hw (fun _ _ => rfl) (.inl rfl) (List.prefix_refl _) (fun i hi => ?_)
    (Nat.le_refl _)
  have hne : i ≠ t.id := by omega
  have hstate : (w.modifyTransaction t f).transactions i = w.transactions i := if_neg hne
  rw [hstate]

variable {t : Transaction}

/-- Whether it can be ended or not, a transaction stays on its way to be settled. -/
theorem settling_finish (hE : m.engine.Unreliable schema storage) (hd : m.dialect = .sqlite)
    (hc : t.connection ∉ used) (hfirst : T.first ≤ t.id) {statement : Statement}
    (hend : statement = .commit ∨ statement = .rollback) (h : Settling storage t used w)
    {r : Except Error Unit} (hrun : (m.finish t statement).perform w = (r, w')) :
    Settling storage t used w' ∧ Tends storage T used (t.connection :: used) w w' := by
  have hrelease : ∀ name, statement ≠ .release name := by
    rintro name rfl
    rcases hend with heq | heq <;> cases heq
  have hsetting : ∀ allowed, statement ≠ .readUncommitted allowed := by
    rintro allowed rfl
    rcases hend with heq | heq <;> cases heq
  have hcleans : m.dialect.finish t.isolation = Dialect.sqliteFinish t.isolation := by
    rw [hd]
    rfl
  have hran : ∀ {r : Except Error Unit} {w₁ : World σ τ},
      (m.execute t.connection statement).perform w = (r, w₁) →
      Tends storage T used (t.connection :: used) w w₁ ∧ Suits storage t.connection t.isolation w₁ :=
    fun hexecute => ⟨tends_execute_own hE hc h.rests hrelease hexecute,
      suits_execute hE hsetting h.suits hexecute⟩
  have hmark : ∀ {w₁ : World σ τ}, Tends storage T used (t.connection :: used) w w₁ →
      Tends storage T used (t.connection :: used) w
        (w₁.modifyTransaction t fun s => { s with finished := true }) :=
    fun hran => hran.next (tends_modify hfirst hran.rests fun s => { s with finished := true })
  cases finishSteps hrun with
  | again hfinished => exact ⟨h, .refl h.rests⟩
  | refused hfinished hexecute =>
    obtain ⟨hran, hsuits⟩ := hran hexecute
    obtain ⟨hbooks, -⟩ := ran_execute _ _ hexecute
    refine ⟨.of_unfinished hran.rests hsuits ?_, hran⟩
    rw [World.stateOf, hbooks.transactions]
    exact hfinished
  | @tainted e w₁ w₂ _ hexecute hclean =>
    -- it has ended, but it is tainted, and so its connection is not to be used again
    obtain ⟨hran, -⟩ := hran hexecute
    rw [hcleans] at hclean
    have hcleaned : Tends storage T used (t.connection :: used) _ w₂ :=
      tends_executeAll_own hE hc (hmark hran).rests (fun _ hs => release_sqliteFinish hs) hclean
    have htaint : Tends storage T used (t.connection :: used) w₂
        (w₂.modifyTransaction t fun s => { s with tainted := true }) :=
      tends_modify hfirst hcleaned.rests fun s => { s with tainted := true }
    refine ⟨⟨htaint.rests, fun _ => isolation_of_cleaning hclean, fun hfit => ?_⟩,
      ((hmark hran).next hcleaned).next htaint⟩
    rw [unfit, World.stateOf_modifyTransaction] at hfit
    simp at hfit
  | @cleaned w₁ _ _ hexecute hclean =>
    obtain ⟨hran, hsuits⟩ := hran hexecute
    rw [hcleans] at hclean
    have hcleaned : Tends storage T used (t.connection :: used) _ w' :=
      tends_executeAll_own hE hc (hmark hran).rests (fun _ hs => release_sqliteFinish hs) hclean
    have hclosed := closed_execute hE hend hexecute
    have hrest := atRest_sqliteFinish hE (w := w₁.modifyTransaction t fun s =>
      { s with finished := true }) hclosed hsuits hclean
    refine ⟨⟨hcleaned.rests, fun hset => ?_, fun _ => hrest⟩, (hmark hran).next hcleaned⟩
    rw [hrest.settings] at hset
    cases hset

theorem settling_complete (hE : m.engine.Unreliable schema storage) (hd : m.dialect = .sqlite)
    (hc : t.connection ∉ used) (hfirst : T.first ≤ t.id) (h : Settling storage t used w)
    {result r : Except Error ρ} {rollbackOnly : Bool}
    (hrun : (m.complete t result rollbackOnly).perform w = (r, w')) :
    Settling storage t used w' ∧ Tends storage T used (t.connection :: used) w w' := by
  have hends : m.dialect.commit = .commit ∧ m.dialect.rollback = .rollback := by
    rw [hd]
    exact ⟨rfl, rfl⟩
  have hback : ∀ {w₁ w₂ : World σ τ} {r₁ : Except Error Unit}, Settling storage t used w₁ →
      (m.rollback t).perform w₁ = (r₁, w₂) →
      Settling storage t used w₂ ∧ Tends storage T used (t.connection :: used) w₁ w₂ :=
    fun h hrun => settling_finish hE hd hc hfirst (.inr hends.2) h hrun
  cases completeSteps hrun with
  | undone hrollback | notUndone hrollback | discarded hrollback | notDiscarded hrollback =>
    exact hback h hrollback
  | committed hcommit => exact settling_finish hE hd hc hfirst (.inl hends.1) h hcommit
  | notCommitted hcommit hrollback =>
    obtain ⟨hsettling, htends⟩ := settling_finish (T := T) hE hd hc hfirst (.inl hends.1) h hcommit
    obtain ⟨hsettling', htends'⟩ := hback hsettling hrollback
    exact ⟨hsettling', htends.next htends'⟩

/-- Whatever fails when a transaction is settled, its connection is at rest afterwards. -/
theorem tends_settle (hE : m.engine.Unreliable schema storage) (hd : m.dialect = .sqlite)
    (hc : t.connection ∉ used) (hfirst : T.first ≤ t.id) (h : Settling storage t used w)
    (result : Except Error ρ) (rollbackOnly : Bool) :
    Tends storage T used used w ((m.settle t result rollbackOnly).perform w).2 := by
  rw [perform_settle]
  rcases hrun : (m.complete t result rollbackOnly).perform w with ⟨r, w₁⟩
  obtain ⟨hsettling, htends⟩ := settling_complete (T := T) hE hd hc hfirst h hrun
  exact htends.released hE hc (unfit t w₁) hsettling.fit

/-! ## Savepoints -/

/-- The statements of savepoints are run in transactions that are open. -/
theorem tends_execute_within (hE : m.engine.Unreliable schema storage)
    (hw : (storage w.store).Rests used) (hc : c ∈ used) (hmine : c ∈ T.mine)
    (hopened : T.strict → T.calm → (storage w.store).Opened c) {statement : Statement}
    (h : statement.Divides) :
    Tends storage T used used w ((m.execute c statement).perform w).2 := by
  rw [perform_execute]
  have hstore : Tends storage T used used w
      { w with store := (m.engine.execute c statement w.store).2 } :=
    .of_mayFail hw hc (hE.execute c statement w.store)
      (Storage.behaves_execute schema.check c h.keepsSettings _)
      (fun _ => Storage.stays_execute schema.check c h.endsNothing _)
      (fun hnot => absurd hmine hnot) hopened
  refine hstore.next ?_
  exact .of_storage hstore.rests rfl ⟨_, rfl⟩ (fun _ => rfl) rfl

end Manager

end RowMapping
