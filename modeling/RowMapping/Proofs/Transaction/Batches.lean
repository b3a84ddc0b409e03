/-
Batches of writes, and what stays of them where one write fails.

A batch that is run while no transaction is active gets one of its own outside of every scope.
Its writes add up in what the transaction shows, and are published together by its COMMIT, or
not at all. In a scope without a transaction there is none to be rolled back: each write is
committed at once, and where one fails, those before it stay.

Either way the writes of a batch take effect one after the other on the contents that their
connection shows, so a batch is followed once, for connections of both kinds.
-/
import RowMapping.Proofs.Conversion.Outcomes
import RowMapping.Proofs.Transaction.Publishing
import RowMapping.Proofs.Transaction.ScopeWrites
import RowMapping.Proofs.Transaction.Tending
import RowMapping.Proofs.Transaction.WatchedAttempts
import RowMapping.Storage.Items

set_option autoImplicit false

namespace RowMapping

variable {σ δ τ α ρ : Type} {storage : σ → Storage δ} {schema : Schema δ}

/-- What several writes make of the contents, and how many rows each of them changes. The first
failure ends them. -/
def Schema.updateAll (schema : Schema δ) : List Write → δ → Except DriverError (List Nat × δ)
  | [], d => .ok ([], d)
  | write :: rest, d => do
    let changed ← schema.update write.sql write.cells d
    let (counts, d) ← schema.updateAll rest changed.contents
    pure (changed.result.rowsAffected :: counts, d)

theorem Schema.updateAll_cons {write : Write} {rest : List Write} {d y : δ} {changed : Change δ}
    {counts : List Nat} (h : schema.update write.sql write.cells d = .ok changed)
    (hrest : schema.updateAll rest changed.contents = .ok (counts, y)) :
    schema.updateAll (write :: rest) d = .ok (changed.result.rowsAffected :: counts, y) := by
  rw [updateAll, h]
  show (schema.updateAll rest changed.contents >>= _) = _
  rw [hrest]
  rfl

/-! ## Connections that take writes -/

namespace Storage

/-- A write on a connection is carried out on the contents that are shown there, or these stay.
Which contents a storage shows there is told by `R`. -/
def TakesWrites (schema : Schema δ) (c : ConnectionId) (R : Storage δ → δ → Prop) : Prop :=
  ∀ (s : Storage δ) (d : δ) (sql : String) (cells : List Cell), R s d →
    match s.update schema c sql cells with
    | (.ok result, s') => ∃ y, schema.update sql cells d = .ok ⟨y, result⟩ ∧ R s' y
    | (.error _, s') => R s' d

/-- The transaction open on a connection shows the contents `y`, while `d` is committed. It has
changes of its own only if it has the write lock. -/
structure Writing (s : Storage δ) (c : ConnectionId) (d y : δ) : Prop where
  shown : ∃ t, (s.sessions c).transaction = some t ∧ (s.viewOf t).contents = y
  committed : s.contents = d
  locked : y = d ∨ s.writer = some c

/-- Nothing is open on a connection, so what is committed is shown there. -/
structure Alone (s : Storage δ) (c : ConnectionId) (y : δ) : Prop where
  closed : (s.sessions c).transaction = none
  committed : s.contents = y

variable {c : ConnectionId} {s : Storage δ} {d y : δ}

/-- In a transaction writes take effect on what it shows, and are not committed. -/
theorem takesWrites_writing (schema : Schema δ) (c : ConnectionId) (d : δ) :
    TakesWrites schema c fun s y => s.Writing c d y := by
  intro s y sql cells h
  obtain ⟨⟨t, ht, hshown⟩, hcommitted, hlocked⟩ := h
  -- taking the snapshot changes nothing about what is shown
  let seen := s.setTransaction c (some { t with view := some (s.viewOf t) })
  have hseen : (seen.sessions c).transaction = some { t with view := some (s.viewOf t) } := by
    simp [seen, setTransaction]
  have hrefused : seen.Writing c d y := ⟨⟨_, hseen, hshown⟩, hcommitted, hlocked⟩
  rw [update, ht]
  show match s.writeWithin (schema.update sql cells) c t with
    | (.ok result, s') => ∃ z, schema.update sql cells y = .ok ⟨z, result⟩ ∧ s'.Writing c d z
    | (.error _, s') => s'.Writing c d y
  rw [writeWithin]
  -- the lock is taken, or the snapshot is too old, or the schema decides
  by_cases hlock : seen.lockedAgainst c = true
  · rw [if_pos hlock]
    exact hrefused
  by_cases hstale : (seen.writer.isNone && (s.viewOf t).version < seen.version) = true
  · rw [if_neg hlock, if_pos hstale]
    exact hrefused
  rw [if_neg hlock, if_neg hstale, writeLocked, hshown]
  rcases hchange : schema.update sql cells y with e | changed
  · exact ⟨⟨_, hseen, hshown⟩, hcommitted, .inr rfl⟩
  · let written : OpenTransaction δ := { t with
      view := some { s.viewOf t with
        contents := changed.contents
        dirty := (s.viewOf t).dirty || changed.result.rowsAffected != 0 } }
    refine ⟨changed.contents, rfl, ⟨written, ?_, rfl⟩, hcommitted, .inr rfl⟩
    simp [written, countChanges, setTransaction]

/-- Outside of transactions a write is committed at once, or nothing is. -/
theorem takesWrites_alone (schema : Schema δ) (c : ConnectionId) :
    TakesWrites schema c fun s y => s.Alone c y := by
  intro s y sql cells h
  obtain ⟨hclosed, rfl⟩ := h
  rw [update, hclosed]
  show match s.writeAlone schema.check (schema.update sql cells) c with
    | (.ok result, s') => ∃ y, schema.update sql cells s.contents = .ok ⟨y, result⟩ ∧ s'.Alone c y
    | (.error _, s') => s'.Alone c s.contents
  rw [writeAlone]
  by_cases hlock : s.lockedAgainst c = true
  · rw [if_pos hlock]
    exact ⟨hclosed, rfl⟩
  rw [if_neg hlock]
  rcases hchange : checked schema.check (schema.update sql cells s.contents) with e | changed
  · exact ⟨hclosed, rfl⟩
  · refine ⟨changed.contents, checked_ok hchange, ?_, rfl⟩
    simpa [countChanges, publish] using hclosed

/-! ## Committing what is shown -/

/-- Where a transaction is committed, what it has shown is committed. -/
theorem Writing.commit_ok (h : s.Writing c d y) {check : δ → Except DriverError Unit}
    (hok : (s.commit check c).1 = .ok ()) : (s.commit check c).2.contents = y := by
  obtain ⟨⟨t, ht, hshown⟩, hcommitted, hlocked⟩ := h
  rw [commit, ht] at hok ⊢
  dsimp only at hok ⊢
  rw [commitOpen] at hok ⊢
  rcases hview : t.view with _ | view
  · -- it has not looked at anything, so it shows what is committed
    rw [viewOf, hview] at hshown
    exact (contents_discard c s).trans hshown
  · rw [viewOf, hview] at hshown
    rw [hview] at hok
    dsimp only at hok ⊢
    have hview' : view.contents = y := hshown
    by_cases hwriter : s.writer = some c
    · rw [if_pos hwriter] at hok ⊢
      rcases hcheck : check view.contents with e | _
      · rw [hcheck] at hok
        cases hok
      · exact (contents_discard c _).trans hview'
    · -- without the lock it has no changes
      rw [if_neg hwriter]
      rcases hlocked with rfl | hwriter'
      · exact (contents_discard c s).trans hcommitted
      · exact absurd hwriter' hwriter

/-- A transaction in which nothing was done shows what is committed. -/
theorem Writing.of_fresh {t : OpenTransaction δ} (ht : (s.sessions c).transaction = some t)
    (hfresh : t.Fresh s.contents) : s.Writing c s.contents s.contents := by
  refine ⟨⟨t, ht, ?_⟩, rfl, .inl rfl⟩
  rcases hview : t.view with _ | v
  · rw [viewOf, hview]
    rfl
  · rw [viewOf, hview]
    exact (hfresh.view v hview).2

end Storage

/-! ## Batches on one connection -/

/-- The writes of a batch. -/
def writesOf (queries : List (Query α × List Cell)) : List Write :=
  queries.map fun q => ⟨q.1.sql, q.2⟩

/-- Queries of one text are written with one list of cells for each. -/
theorem writesOf_zip (sql : String) {argumentLists : List (List (Argument α))}
    {batches : List (List Cell)} (h : argumentLists.length = batches.length) :
    writesOf ((argumentLists.map fun arguments => ({ sql, arguments } : Query α)).zip batches)
      = batches.map (⟨sql, ·⟩) := by
  induction argumentLists generalizing batches with
  | nil => simp [List.length_eq_zero_iff.mp h.symm, writesOf]
  | cons arguments rest ih =>
    cases batches with
    | nil => cases h
    | cons cells batches => simpa [writesOf] using ih (Nat.succ.inj h)

/-- What has come of several writes where the contents `d` have become `y`. All of them were
carried out, or those before the one that has failed. -/
def Schema.CarriesOut (schema : Schema δ) (writes : List Write) (d : δ)
    (r : Except Error (List Nat)) (y : δ) : Prop :=
  match r with
  | .ok counts => schema.updateAll writes d = .ok (counts, y)
  | .error _ => ∃ k < writes.length, ∃ counts, schema.updateAll (writes.take k) d = .ok (counts, y)

/-- The same where no part of them may be carried out alone. -/
def Schema.AllOrNone (schema : Schema δ) (writes : List Write) (d : δ)
    (r : Except Error (List Nat)) (y : δ) : Prop :=
  match r with
  | .ok counts => schema.updateAll writes d = .ok (counts, y)
  | .error _ => y = d

/-- After a write that was carried out it is the others that matter. -/
theorem Schema.CarriesOut.cons (write : Write) {rest : List Write} {d y : δ} {changed : Change δ}
    {r : Except Error (List Nat)} (h : schema.update write.sql write.cells d = .ok changed)
    (hrest : schema.CarriesOut rest changed.contents r y) :
    schema.CarriesOut (write :: rest) d (r.map (changed.result.rowsAffected :: ·)) y := by
  rcases r with e | counts
  · obtain ⟨k, hk, counts, hcounts⟩ := hrest
    exact ⟨k + 1, Nat.succ_lt_succ hk, _, updateAll_cons h hcounts⟩
  · exact updateAll_cons h hrest

namespace Database

open RowMapping.Action

variable {db : Database σ α} {c : ConnectionId} {R : Storage δ → δ → Prop} {d : δ}
  {w w' : World σ τ}

section OneConnection

variable (hE : db.engine.Unreliable schema storage) (htakes : Storage.TakesWrites schema c R)

include hE htakes

theorem perform_write (sql : String) (cells : List Cell) (convert : DriverError → Error)
    (hshown : R (storage w.store) d) :
    match (onStore (db.engine.update c sql cells) convert).perform w with
    | (.ok result, w') => ∃ y, schema.update sql cells d = .ok ⟨y, result⟩ ∧ R (storage w'.store) y
    | (.error _, w') => R (storage w'.store) d := by
  have htaken := htakes (storage w.store) d sql cells hshown
  rw [perform_onStore]
  rcases hE.update c sql cells w.store with ⟨hresult, hstore⟩ | ⟨e, hresult, hstore⟩
  all_goals rw [hresult]
  · rcases hdone : (storage w.store).update schema c sql cells with ⟨e | result, s'⟩
    all_goals
      rw [hdone] at htaken hstore
      dsimp only [Except.mapError] at htaken ⊢
      rw [hstore]
      exact htaken
  · -- what the engine itself fails at changes nothing
    show R (storage (db.engine.update c sql cells w.store).2) d
    rw [hstore]
    exact hshown

/-- The writes of a batch take effect one after the other, up to the first that fails. -/
theorem perform_updateEach {queries : List (Query α × List Cell)} {r : Except Error (List Nat)}
    (hshown : R (storage w.store) d) (h : (db.updateEach c queries).perform w = (r, w')) :
    ∃ y, schema.CarriesOut (writesOf queries) d r y ∧ R (storage w'.store) y := by
  -- on the queries: each one starts from the contents that the one before it has left
  induction queries generalizing w d r with
  | nil =>
    obtain ⟨rfl, rfl⟩ := Prod.mk.inj h
    exact ⟨d, rfl, hshown⟩
  | cons head rest ih =>
    obtain ⟨q, cells⟩ := head
    rw [updateEach, perform_bind] at h
    rcases hrun : (onStore (db.engine.update c q.sql cells) fun e =>
      db.dialect.convertError e q.display).perform w with ⟨e | result, w₁⟩
    all_goals
      have hwrite := perform_write hE htakes q.sql cells
        (fun e => db.dialect.convertError e q.display) hshown
      rw [hrun] at h hwrite
      dsimp only at h hwrite
    · -- the first one fails, so none is carried out
      obtain ⟨rfl, rfl⟩ := Prod.mk.inj h
      exact ⟨d, ⟨0, Nat.succ_pos _, [], rfl⟩, hwrite⟩
    obtain ⟨y₁, hchange, hshown₁⟩ := hwrite
    rw [perform_bind_pure] at h
    rcases hrest : (db.updateEach c rest).perform w₁ with ⟨r', w₂⟩
    rw [hrest] at h
    obtain ⟨rfl, rfl⟩ := Prod.mk.inj h
    obtain ⟨y, hdone, hshown'⟩ := ih hshown₁ hrest
    exact ⟨y, .cons ⟨q.sql, cells⟩ hchange hdone, hshown'⟩

end OneConnection

end Database

/-! ## A transaction of its own -/

namespace Manager

open RowMapping.Action

variable {m : Manager σ α} {t : Transaction} {d y : δ} {w w' : World σ τ}

variable (hE : m.engine.Unreliable schema storage) (hd : m.dialect.Standard)

include hE hd

/-- A transaction that has begun shows what is committed. -/
theorem writing_begin {isolation : Isolation} (h : (m.begin isolation).perform w = (.ok t, w')) :
    (storage w'.store).Writing t.connection (storage w.store).contents
      (storage w.store).contents := by
  have hsame : (storage w'.store).contents = (storage w.store).contents :=
    (Silent.begin hE hE.conserves hd isolation).run h
  obtain ⟨x, hx, hfresh⟩ := untouched_begin hE hd h
  rw [← hsame]
  exact .of_fresh hx hfresh

/-- Where a transaction is committed, what it has shown is committed. -/
theorem contents_commit_ok (hwriting : (storage w.store).Writing t.connection d y)
    (h : (m.commit t).perform w = (.ok (), w')) : (storage w'.store).contents = y := by
  rw [commit, hd.commit] at h
  obtain ⟨w₁, hrun, hcleaned⟩ := finish_ok h
  obtain ⟨hstore, hok⟩ := execute_ok hE hrun
  have hcommitted : (storage w₁.store).contents = y := by
    rw [hstore]
    exact hwriting.commit_ok hok
  -- cleaning up afterwards publishes nothing
  rw [hcleaned, ← hcommitted]
  exact Silent.cleaning (τ := τ) hE hE.conserves hd t
    (w₁.modifyTransaction t fun s => { s with finished := true })

/-- Where a transaction is settled with success, what it has shown is committed. -/
theorem contents_settle_ok {result : Except Error ρ} {x : ρ}
    (hwriting : (storage w.store).Writing t.connection d y)
    (h : (m.settle t result false).perform w = (.ok x, w')) :
    result = .ok x ∧ (storage w'.store).contents = y := by
  rw [perform_settle] at h
  rcases hrun : (m.complete t result false).perform w with ⟨r, w₁⟩
  rw [hrun] at h
  obtain ⟨rfl, rfl⟩ := Prod.mk.inj h
  cases completeSteps hrun with
  | committed hcommit =>
    refine ⟨rfl, Eq.trans ?_ (contents_commit_ok hE hd hwriting hcommit)⟩
    exact Silent.release hE hE.conserves t.connection (unfit t w₁) w₁

end Manager

namespace Database

open RowMapping.Action

variable {db : Database σ α}

/-- In a transaction of its own a batch is applied as a whole, or not at all. -/
theorem implicit_updateEach (hE : db.engine.Unreliable schema storage) (hd : db.dialect.Standard)
    {queries : List (Query α × List Cell)} {isolation : Isolation} {w w' : World σ τ}
    {r : Except Error (List Nat)}
    (h : (db.runImplicit isolation fun c => db.updateEach c queries).perform w = (r, w')) :
    schema.AllOrNone (writesOf queries) (storage w.store).contents r
      (storage w'.store).contents := by
  have hsilent := Silent.begin (τ := τ) hE hE.conserves hd isolation w
  rw [Manager.runImplicit, perform_bind] at h
  rcases hbegin : (db.begin isolation).perform w with ⟨e | t, w₁⟩
  all_goals
    rw [hbegin] at h hsilent
    dsimp only at h
  · obtain ⟨rfl, rfl⟩ := Prod.mk.inj h
    exact hsilent
  rw [perform_outcome_bind] at h
  rcases hrun : (db.updateEach t.connection queries).perform w₁ with ⟨result, w₂⟩
  rw [hrun] at h
  have hwriting := Manager.writing_begin hE hd hbegin
  obtain ⟨y, hdone, hwriting'⟩ := perform_updateEach hE
    (Storage.takesWrites_writing schema t.connection (storage w.store).contents) hwriting hrun
  rcases r with e | counts
  · -- up to here nothing was committed, and nothing is if settling fails
    have hsettled : SameContents storage w₂.store w'.store :=
      Manager.conserved_of_settle_error hE hE.conserves hd h
    exact Eq.trans hsettled hwriting'.committed
  · obtain ⟨rfl, hcommitted⟩ := Manager.contents_settle_ok hE hd hwriting' h
    rw [hcommitted]
    exact hdone

/-- Without a transaction the writes of a batch are applied up to the first that fails. -/
theorem alone_updateEach (hE : db.engine.Unreliable schema storage) {used : List ConnectionId}
    {queries : List (Query α × List Cell)} {w w' : World σ τ}
    (hrests : (storage w.store).Rests used) {r : Except Error (List Nat)}
    (h : (db.runAlone fun c => db.updateEach c queries).perform w = (r, w')) :
    schema.CarriesOut (writesOf queries) (storage w.store).contents r (storage w'.store).contents ∨
      schema.AllOrNone (writesOf queries) (storage w.store).contents r
        (storage w'.store).contents := by
  rw [Manager.runAlone, perform_bind] at h
  have hsilent := Silent.acquire (τ := τ) (m := db.toManager) hE.conserves w
  rcases hacquire : (db.acquire).perform w with ⟨e | c, w₁⟩
  all_goals
    rw [hacquire] at h hsilent
    dsimp only at h
  · obtain ⟨rfl, rfl⟩ := Prod.mk.inj h
    exact .inr hsilent
  obtain ⟨-, -, hrest⟩ := Manager.tends_acquire (T := ⟨False, False, 0, []⟩) hE hrests hacquire
  rw [perform_outcome_bind] at h
  rcases hrun : (db.updateEach c queries).perform w₁ with ⟨result, w₂⟩
  rw [hrun] at h
  obtain ⟨y, hdone, hshown⟩ := perform_updateEach hE (Storage.takesWrites_alone schema c)
    ⟨hrest.transaction, hsilent⟩ hrun
  obtain ⟨rfl, rfl⟩ := Prod.mk.inj h
  -- the connection is given back as it is, and nothing is taken back
  have hreleased : SameContents storage w₂.store (db.engine.release c false w₂.store) :=
    Silent.release (τ := τ) hE hE.conserves c false w₂
  refine .inl ?_
  show schema.CarriesOut _ _ result (storage (db.engine.release c false w₂.store)).contents
  rw [hreleased, hshown.committed]
  exact hdone

/-- In a scope without a transaction the writes of a batch are applied up to the first that
fails, unless the batch is refused. -/
theorem nonTransactional_updateEach (hE : db.engine.Unreliable schema storage)
    {used : List ConnectionId} {queries : List (Query α × List Cell)} {w w' : World σ τ}
    (hrests : (storage w.store).Rests used) (suspended : List Transaction)
    (implicit : Option Isolation) {r : Except Error (List Nat)}
    (h : (db.withConnection (some ⟨.nonTransactional, suspended⟩) implicit .write fun c =>
      db.updateEach c queries).perform w = (r, w')) :
    schema.CarriesOut (writesOf queries) (storage w.store).contents r (storage w'.store).contents ∨
      schema.AllOrNone (writesOf queries) (storage w.store).contents r
        (storage w'.store).contents := by
  -- looking for a suspended writer changes nothing, and all connections stay at rest
  have hsilent := Silent.ensureAccess (τ := τ) hE hE.conserves .write suspended w
  have htending : Tending storage ⟨False, False, 0, []⟩ used
      (db.ensureAccess .write suspended : Action σ τ Unit) := .ensureAccess hE .write suspended
  have htends := htending w (Nat.zero_le _) hrests nofun
  rw [Manager.withConnection, perform_bind] at h
  rcases hensure : (db.ensureAccess .write suspended).perform w with ⟨e | _, w₁⟩
  all_goals
    rw [hensure] at h hsilent htends
    dsimp only at h
  · obtain ⟨rfl, rfl⟩ := Prod.mk.inj h
    exact .inr hsilent
  · have hbatch := alone_updateEach hE htends.rests h
    rw [show (storage w₁.store).contents = (storage w.store).contents from hsilent] at hbatch
    exact hbatch

/-- Where no transaction is active, only a scope lets a batch be applied in part. -/
theorem inactive_updateEach (hE : db.engine.Unreliable schema storage) (hd : db.dialect.Standard)
    {current : Option Scope} (hscope : Scope.hasTransaction current = false)
    {queries : List (Query α × List Cell)} {w w' : World σ τ}
    (hrests : current = none ∨ ∃ used, (storage w.store).Rests used)
    {implicit : Option Isolation} {r : Except Error (List Nat)}
    (h : (db.withConnection current implicit .write fun c => db.updateEach c queries).perform w
      = (r, w')) :
    schema.AllOrNone (writesOf queries) (storage w.store).contents r (storage w'.store).contents ∨
      current ≠ none ∧ schema.CarriesOut (writesOf queries) (storage w.store).contents r
        (storage w'.store).contents := by
  -- the scope decides: a transaction of its own, the one that is active, or none
  rcases current with _ | ⟨_ | _, suspended⟩
  · rcases implicit with _ | isolation
    · obtain ⟨rfl, rfl⟩ := Prod.mk.inj h
      exact .inl rfl
    · exact .inl (implicit_updateEach hE hd h)
  · cases hscope
  · obtain ⟨used, hrests⟩ := hrests.resolve_left nofun
    exact (nonTransactional_updateEach hE hrests suspended implicit h).symm.imp_right (⟨nofun, ·⟩)

/-- **Batches.** Where no transaction is active, a batch that succeeds was applied as a whole.
Where it fails nothing of it is applied, if it was run outside of every scope or has one
statement at most. In a scope without a transaction the statements before the one that has
failed are still applied. -/
theorem updateBatch_allOrNone (hE : db.engine.Unreliable schema storage)
    (hd : db.dialect.Standard) {current : Option Scope}
    (hscope : Scope.hasTransaction current = false) {w w' : World σ τ}
    (hrests : current = none ∨ ∃ used, (storage w.store).Rests used) {sql : String}
    {argumentLists : List (List (Argument α))} {r : Except Error (List Nat)}
    (h : (db.updateBatch current sql argumentLists).perform w = (r, w')) :
    (∀ counts, r = .ok counts →
      ∃ batches, argumentLists.mapM (db.cells w.settings.enumMode) = .ok batches ∧
        schema.updateAll (batches.map (⟨sql, ·⟩)) (storage w.store).contents
          = .ok (counts, (storage w'.store).contents)) ∧
    (∀ e, r = .error e →
      (current = none ∨ argumentLists.length ≤ 1 → SameContents storage w.store w'.store) ∧
      (SameContents storage w.store w'.store ∨
        ∃ batches, argumentLists.mapM (db.cells w.settings.enumMode) = .ok batches ∧
          ∃ k < argumentLists.length, ∃ counts,
            schema.updateAll ((batches.map (⟨sql, ·⟩)).take k) (storage w.store).contents
              = .ok (counts, (storage w'.store).contents))) := by
  rw [perform_updateBatch] at h
  rcases hcells : argumentLists.mapM (db.cells w.settings.enumMode) with e | batches
  all_goals
    rw [hcells] at h
    dsimp only at h
  · obtain ⟨rfl, rfl⟩ := Prod.mk.inj h
    exact ⟨nofun, fun _ _ => ⟨fun _ => rfl, .inl rfl⟩⟩
  have hlength : argumentLists.length = batches.length := (mapM_eq_ok_iff.mp hcells).length_eq
  have hbatch := inactive_updateEach hE hd hscope hrests h
  rw [writesOf_zip sql hlength] at hbatch
  rcases r with e | counts
  · refine ⟨nofun, fun _ _ => ?_⟩
    rcases hbatch with hsame | ⟨hinside, k, hk, counts, happlied⟩
    · exact ⟨fun _ => hsame, .inl hsame⟩
    rw [List.length_map, ← hlength] at hk
    refine ⟨fun hwhole => ?_, .inr ⟨batches, rfl, k, hk, counts, happlied⟩⟩
    -- the statement that fails is the first one, and none is before it
    have hshort := hwhole.resolve_left hinside
    have hnone : k = 0 := by omega
    rw [hnone, List.take_zero, Schema.updateAll] at happlied
    exact (congrArg Prod.snd (Except.ok.inj happlied)).symm
  · refine ⟨?_, nofun⟩
    rintro _ ⟨⟩
    exact ⟨batches, rfl, hbatch.elim id And.right⟩

/-- A database of items. -/
def items : Database (Storage Items) Empty :=
  .ofEngine (Storage.engine Schema.items) .sqlite .empty

def noItems : World (Storage Items) Unit := { store := { contents := {} } }

/-- The names of a batch of items, the second of which has none. -/
def secondMissing : List (List (Argument Empty)) := [[.value (.text "a")], [.value .null]]

/-- Outside of every scope the first item is not kept. In a scope without a transaction nothing
is applied either if there is only the item without a name. -/
theorem updateBatch_allOrNone_secondMissing :
    let outside := (items.updateBatch none Items.insertSql secondMissing).perform noItems
    let single := (items.updateBatch (some ⟨.nonTransactional, []⟩) Items.insertSql
      (secondMissing.drop 1)).perform noItems
    (outside.1.isOk = false ∧ SameContents id noItems.store outside.2.store) ∧
      (single.1.isOk = false ∧ SameContents id noItems.store single.2.store) := by
  intro outside single
  have hE : items.engine.Unreliable Schema.items id := Storage.unreliable_engine Schema.items
  have hd : items.dialect.Standard := Dialect.standard_sqlite
  have hrests : ∃ used, noItems.store.Rests used := ⟨[], .initial noItems.store.contents⟩
  have hfails : outside.1.isOk = false ∧ single.1.isOk = false := by decide +kernel
  have hsame : ∀ {current : Option Scope} {argumentLists : List (List (Argument Empty))}
      {run : Except Error (List Nat) × World (Storage Items) Unit},
      Scope.hasTransaction current = false → (current = none ∨ argumentLists.length ≤ 1) →
      (items.updateBatch current Items.insertSql argumentLists).perform noItems = run →
      run.1.isOk = false → SameContents id noItems.store run.2.store := by
    rintro current argumentLists ⟨e | counts, w'⟩ hscope hfew hrun hfailed
    · exact ((updateBatch_allOrNone hE hd hscope (.inr hrests) hrun).2 e rfl).1 hfew
    · cases hfailed
  exact ⟨⟨hfails.1, hsame rfl (.inl rfl) rfl hfails.1⟩, hfails.2,
    hsame rfl (.inr (by decide)) rfl hfails.2⟩

/-- In a scope without a transaction the first item stays, although the batch has failed. -/
theorem updateBatch_partlyApplied :
    let scope : Scope := ⟨.nonTransactional, []⟩
    let ended := (items.updateBatch (some scope) Items.insertSql secondMissing).perform noItems
    Scope.hasTransaction (some scope) = false ∧ ended.1.isOk = false ∧
      noItems.store.contents.items = [] ∧ ended.2.store.contents.items = [(1, .text "a")] := by
  decide +kernel

end Database

end RowMapping
