/-
Writes of the database, wherever they run.

A write runs its queries on one connection, up to the first failure. What that does
to the contents is said once for any connection on which single queries take effect
on the contents shown there. A transaction with the lock to be had is such a
connection, and so is one without a transaction while nobody has the lock.
-/
import RowMapping.Proofs.Transaction.Agreement

set_option autoImplicit false

namespace RowMapping

variable {δ τ α ρ : Type}

theorem Storage.checked_ok {accept : δ → Except DriverError Unit}
    {change : Except DriverError (Change δ)} {changed : Change δ}
    (h : checked accept change = .ok changed) : change = .ok changed := by
  rcases change with e | x
  · cases h
  · rw [checked] at h
    simp only [bind, Except.bind] at h
    split at h
    · cases h
    · exact h

theorem Storage.checked_nothing (change : Except DriverError (Change δ)) :
    checked (fun _ => .ok ()) change = change := by
  rcases change with e | x <;> rfl

namespace Premises

open RowMapping.Action RowMapping.Manager

/-! ## Queries on a connection -/

/-- Queries on a connection take effect on the contents shown there, where `R` tells
which worlds show which contents, and whether anything was tried. -/
def Takes (g : Premises δ α) (accept : δ → Except DriverError Unit) (c : ConnectionId)
    (R : World (Storage δ) τ → Bool → δ → Prop) : Prop :=
  ∀ (sql : String) (cells : List Cell) (w : World (Storage δ) τ) (tried : Bool) (d : δ),
    R w tried d →
    (w.store.update g.schema c sql cells).1
        = (Storage.checked accept (g.schema.update sql cells d)).map (·.result) ∧
      R { w with store := (w.store.update g.schema c sql cells).2 } true
        (match Storage.checked accept (g.schema.update sql cells d) with
          | .ok changed => changed.contents
          | .error _ => d)

/-- An operation carries out queries on any connection that takes them. -/
def Carries (g : Premises δ α) (operation : ConnectionId → Action (Storage δ) τ ρ)
    (queries : List (Query α × List Cell)) (f : List UpdateResult → ρ) : Prop :=
  ∀ (accept : δ → Except DriverError Unit) (c : ConnectionId)
    (R : World (Storage δ) τ → Bool → δ → Prop) (w : World (Storage δ) τ) (tried : Bool) (d : δ),
    g.Takes accept c R → R w tried d →
    ∃ w', (operation c).perform w = ((g.carryOut accept queries d).2.map f, w') ∧
      R w' (tried || !queries.isEmpty) (replay g.schema (g.carryOut accept queries d).1 d)

variable {g : Premises δ α}

theorem apply_of_checked {accept : δ → Except DriverError Unit} {sql : String}
    {cells : List Cell} {d : δ} {changed : Change δ}
    (h : Storage.checked accept (g.schema.update sql cells d) = .ok changed) :
    Write.apply g.schema d ⟨sql, cells⟩ = changed.contents := by
  rw [Write.apply, Storage.checked_ok h]

theorem carryOut_cons_error {accept : δ → Except DriverError Unit} {q : Query α}
    {cells : List Cell} {d : δ} {e : DriverError}
    (h : Storage.checked accept (g.schema.update q.sql cells d) = .error e)
    (rest : List (Query α × List Cell)) :
    g.carryOut accept ((q, cells) :: rest) d = ([], .error (g.failure e q.display)) := by
  rw [carryOut, h]

theorem carryOut_cons_ok {accept : δ → Except DriverError Unit} {q : Query α}
    {cells : List Cell} {d : δ} {changed : Change δ}
    (h : Storage.checked accept (g.schema.update q.sql cells d) = .ok changed)
    (rest : List (Query α × List Cell)) :
    g.carryOut accept ((q, cells) :: rest) d
      = (⟨q.sql, cells⟩ :: (g.carryOut accept rest changed.contents).1,
        (g.carryOut accept rest changed.contents).2.map (changed.result :: ·)) := by
  rw [carryOut, h]

/-- One query on a connection. -/
theorem perform_query {accept : δ → Except DriverError Unit} {c : ConnectionId}
    {R : World (Storage δ) τ → Bool → δ → Prop} (htakes : g.Takes accept c R)
    {w : World (Storage δ) τ} {tried : Bool} {d : δ} (hr : R w tried d) (q : Query α)
    (cells : List Cell) :
    ∃ w', match Storage.checked accept (g.schema.update q.sql cells d) with
      | .error e =>
        (onStore (g.database.engine.update c q.sql cells) fun e =>
            g.database.dialect.convertError e q.display).perform w
          = (.error (g.failure e q.display), w') ∧ R w' true d
      | .ok changed =>
        (onStore (g.database.engine.update c q.sql cells) fun e =>
            g.database.dialect.convertError e q.display).perform w
          = (.ok changed.result, w') ∧ R w' true changed.contents := by
  obtain ⟨hresult, hafter⟩ := htakes q.sql cells w tried d hr
  have hengine : (g.database.engine.update c q.sql cells w.store).1
      = (Storage.checked accept (g.schema.update q.sql cells d)).map (·.result) := hresult
  refine ⟨{ w with store := (w.store.update g.schema c q.sql cells).2 }, ?_⟩
  rcases hchange : Storage.checked accept (g.schema.update q.sql cells d) with e | changed
  all_goals
    rw [hchange] at hengine hafter
    refine ⟨?_, hafter⟩
    rw [perform_onStore, hengine]
    rfl

/-- A single query is carried out. -/
theorem carries_one (q : Query α) (cells : List Cell) :
    g.Carries (τ := τ) (fun c => onStore (g.database.engine.update c q.sql cells)
        fun e => g.database.dialect.convertError e q.display)
      [(q, cells)] (·.headD ⟨0, 0⟩) := by
  intro accept c R w tried d htakes hr
  obtain ⟨w', h⟩ := perform_query htakes hr q cells
  rcases hchange : Storage.checked accept (g.schema.update q.sql cells d) with e | changed
  · rw [hchange] at h
    obtain ⟨hrun, hafter⟩ := h
    rw [carryOut_cons_error hchange]
    refine ⟨w', hrun, ?_⟩
    simpa using hafter
  · rw [hchange] at h
    obtain ⟨hrun, hafter⟩ := h
    rw [carryOut_cons_ok hchange]
    refine ⟨w', hrun, ?_⟩
    simpa [carryOut, replay_cons, apply_of_checked hchange] using hafter

/-- A batch is carried out query by query. -/
theorem carries_each (queries : List (Query α × List Cell)) :
    g.Carries (τ := τ) (fun c => g.database.updateEach c queries) queries
      (·.map (·.rowsAffected)) := by
  intro accept c R w tried d htakes hr
  induction queries generalizing w tried d with
  | nil =>
    refine ⟨w, rfl, ?_⟩
    simpa [carryOut] using hr
  | cons head rest ih =>
    obtain ⟨q, cells⟩ := head
    obtain ⟨w₁, h⟩ := perform_query htakes hr q cells
    show ∃ w', (g.database.updateEach c ((q, cells) :: rest)).perform w = _ ∧ _
    rw [Database.updateEach]
    rcases hchange : Storage.checked accept (g.schema.update q.sql cells d) with e | changed
    · -- the first failure ends the batch
      rw [hchange] at h
      obtain ⟨hrun, hafter⟩ := h
      rw [carryOut_cons_error hchange, perform_bind_error hrun]
      refine ⟨w₁, rfl, ?_⟩
      simpa using hafter
    · rw [hchange] at h
      obtain ⟨hrun, hafter⟩ := h
      obtain ⟨w', hrest, hdone⟩ := ih w₁ true changed.contents hafter
      rw [carryOut_cons_ok hchange, perform_bind_ok hrun, perform_bind, hrest]
      refine ⟨w', ?_, ?_⟩
      · rcases (g.carryOut accept rest changed.contents).2 with e | results <;> rfl
      · simpa [replay_cons, apply_of_checked hchange] using hdone

/-! ## Connections that take queries -/

/-- What has moved when only one connection was written on. -/
structure WrittenOn (w w' : World (Storage δ) τ) (c : ConnectionId) : Prop where
  books : w.SameBooks w'
  moves : w.store.MovesOnly c w'.store

theorem takes_within {w₀ : World (Storage δ) τ} {c : ConnectionId} {marks : List (Savepoint δ)}
    (hfree : ∀ i, w₀.store.writer = some i → i = c) :
    g.Takes (fun _ => .ok ()) c fun w tried d => WrittenOn w₀ w c ∧
      w.store.contents = w₀.store.contents ∧ w.store.Shows c marks tried d := by
  intro sql cells w tried d hr
  obtain ⟨⟨hbooks, hmoves⟩, hcontents, hshows⟩ := hr
  -- the writer is this connection or none, also after earlier queries
  have hfree' : ∀ i, w.store.writer = some i → i = c := by
    intro i hi
    by_cases hne : i = c
    · exact hne
    · exact hfree i ((hmoves.writer i hne).mp hi)
  obtain ⟨hresult, hshows', hcontents', -⟩ := Storage.update_within hshows hfree' sql cells
  have hall := hmoves.trans (Storage.movesOnly_update g.schema c sql cells w.store)
  rw [Storage.checked_nothing]
  refine ⟨hresult, ⟨hbooks.trans (.of_store w _), hall⟩, hcontents'.trans hcontents, ?_⟩
  exact hshows'

theorem takes_alone {w₀ : World (Storage δ) τ} {c : ConnectionId} :
    g.Takes g.schema.check c fun w _ d => WrittenOn w₀ w c ∧
      w.store.contents = d ∧ w.store.writer = none ∧
      (w.store.sessions c).transaction = none := by
  intro sql cells w tried d hr
  obtain ⟨⟨hbooks, hmoves⟩, rfl, hfree, hvacant⟩ := hr
  have hall := hmoves.trans (Storage.movesOnly_update g.schema c sql cells w.store)
  obtain ⟨hresult, hcontents, hfree', hvacant'⟩ := Storage.update_alone hvacant hfree sql cells
  exact ⟨hresult, ⟨hbooks.trans (.of_store w _), hall⟩, hcontents, hfree', hvacant'⟩

/-! ## Writes in a scope -/

variable {w : World (Storage δ) τ} {here : Surroundings} {p : Place} {l : Ledger}
  {marks : List (Savepoint δ)} {suspended : List Transaction} {current : Option Transaction}
  {t : Transaction} {flag : FlagId} {contexts : List Context}
  {operation : ConnectionId → Action (Storage δ) τ ρ} {queries : List (Query α × List Cell)}
  {f : List UpdateResult → ρ}

/-- Of the transactions that wait, those block that are marked. -/
theorem Standing.perform_ensureNoWriter (h : g.Standing w suspended current l) :
    (g.database.ensureNoWriter suspended).perform w
      = (if suspended.any fun u => (w.stateOf u).written then .error suspendedWriter
        else .ok (), w) := by
  have hcounts : ∀ u ∈ suspended, g.database.Counts u.connection w.store := fun _ _ => ⟨_, rfl⟩
  have hfound : suspended.any (g.database.foundWriting w)
      = suspended.any fun u => (w.stateOf u).written := by
    rw [Bool.eq_iff_iff, List.any_eq_true, List.any_eq_true]
    refine exists_congr fun u => and_congr_right fun hu => ?_
    have hwaits := h.waiting u hu
    rcases hwritten : (w.stateOf u).written with _ | _
    · -- no rows were changed, so counting them finds nothing
      have hcount : (g.database.engine.totalChanges u.connection w.store).1
          = .ok u.changesAtBegin := congrArg Except.ok (hwaits.changes hwritten)
      simp [foundWriting, hwritten, hcount]
    · simp [foundWriting, hwritten]
  rw [Manager.perform_ensureNoWriter g.database.toManager w suspended hcounts, hfound]

/-- Queries in a transaction add to what it shows. -/
theorem Standing.perform_within (h : g.Standing w suspended (some t) l)
    (hop : g.Carries operation queries f) (htaken : w.store.Taken t.connection)
    (hfree : (suspended.any fun u => (w.stateOf u).written) = false)
    {locks : Bool} {d : δ} (hshows : w.store.Shows t.connection marks locks d) :
    ∃ w', (operation t.connection).perform w
        = ((g.carryOut (fun _ => .ok ()) queries d).2.map f, w') ∧
      w.SameBooks w' ∧ Kept (some t) w w' ∧ g.Standing w' suspended (some t) l ∧
      w'.store.Taken t.connection ∧
      w'.store.Shows t.connection marks (locks || !queries.isEmpty)
        (replay g.schema (g.carryOut (fun _ => .ok ()) queries d).1 d) := by
  have howner : ∀ i, w.store.writer = some i → i = t.connection := by
    intro i hi
    -- a suspended transaction that had the lock would be marked as having written
    rcases h.writer i hi with ⟨u, hu, -, hwritten⟩ | ⟨v, hv, rfl⟩
    · exact absurd hwritten (by simpa using List.any_eq_false.mp hfree u hu)
    · cases hv
      rfl
  obtain ⟨w', hrun, ⟨hbooks, hmoves⟩, hcontents, hshows'⟩ :=
    hop _ _ _ w locks d (takes_within howner) ⟨⟨.refl w, .refl _ _⟩, rfl, hshows⟩
  obtain ⟨hkept, hstanding⟩ := h.of_movesOnly htaken hbooks hmoves hcontents
  exact ⟨w', hrun, hbooks, hkept, hstanding, (hmoves.taken _).mpr htaken, hshows'⟩

theorem replay_carryOut (queries : List (Query α × List Cell)) (accept : δ → Except DriverError Unit)
    (p : Place) (l : Ledger) (d : δ) (hd : g.contents p l = d) :
    replay g.schema (g.carryOut accept queries d).1 d
      = g.contents p { l with own := l.own ++ (g.carryOut accept queries d).1 } := by
  show _ = replay g.schema (l.committed ++ p.below ++ (l.own ++ _)) g.initial
  rw [← List.append_assoc, replay_append]
  rw [contents] at hd
  rw [hd]

/-- A write in a scope with a transaction. -/
theorem Agrees.write_within
    (h : g.Agrees w ⟨some ⟨.transaction t flag, suspended⟩, contexts⟩ p l marks)
    (hop : g.Carries operation queries f) (hblocked : p.blocked = false)
    (implicit : Option Isolation) :
    g.ComesTo (g.database.withConnection (some ⟨.transaction t flag, suspended⟩) implicit .write
        operation) w ⟨some ⟨.transaction t flag, suspended⟩, contexts⟩ p marks
      ((g.writeAt queries p l).1.map f, (g.writeAt queries p l).2) := by
  have hstanding : g.Standing w suspended (some t) l := h.standing
  have hcurrent := h.current t rfl
  have hfree : (suspended.any fun u => (w.stateOf u).written) = false :=
    h.blocked.symm.trans hblocked
  obtain ⟨hkept₁, hmarked⟩ := hstanding.modify fun s => { s with written := true }
  -- the mark is set first, and the transactions that wait do not see it
  let w₁ := w.modifyTransaction t fun s => { s with written := true }
  have hfree₁ : (suspended.any fun u => (w₁.stateOf u).written) = false := by
    rw [hkept₁.any_written hstanding.waiting hstanding.apart, hfree]
  obtain ⟨w', hrun, hbooks, hkept₂, hstanding', htaken, hshows⟩ :=
    hmarked.perform_within hop hcurrent.waits.taken hfree₁ (w := w₁) hcurrent.shows
  have hstate : w'.stateOf t = { w.stateOf t with written := true } := by
    have hsame : w'.stateOf t = w₁.stateOf t := congrFun hbooks.transactions t.id
    rw [hsame]
    exact World.stateOf_modifyTransaction t _ w
  have hwrite : g.writeAt queries p l
      = ((g.carryOut (fun _ => .ok ()) queries (g.contents p l)).2, { l with
        own := l.own ++ (g.carryOut (fun _ => .ok ()) queries (g.contents p l)).1
        wrote := true
        locks := l.locks || !queries.isEmpty }) := by
    rw [writeAt, h.venue.eq_within]
  have hkept := hkept₁.trans hkept₂
  rw [hwrite]
  refine ⟨w', ?_, ?_, hkept⟩
  · have hensure := hstanding.perform_ensureNoWriter
    rw [hfree] at hensure
    rw [withConnection, ensureAccess, perform_bind_ok hensure, markWritten, perform_change_bind]
    exact hrun
  · refine {
      standing := { hstanding' with }
      flags := h.flags
      venue := h.venue
      blocked := ?_
      current := fun v hv => ?_
      idle := fun hn => by cases hn }
    · rw [h.blocked]
      exact (hkept.any_written hstanding.waiting hstanding.apart).symm
    · cases hv
      refine {
        waits := {
          number := Nat.lt_of_lt_of_le hcurrent.waits.number hkept.numbers
          taken := htaken
          held := by rw [hstate]; exact hcurrent.waits.held
          changes := fun hn => by rw [hstate] at hn; cases hn }
        written := by rw [hstate]
        finished := by rw [hstate]; exact hcurrent.finished
        tainted := by rw [hstate]; exact hcurrent.tainted
        shows := ?_
        untouched := fun hlocks => ?_
        unwritten := fun hn => by cases hn }
      · rw [replay_carryOut queries _ p l _ rfl] at hshows
        exact hshows
      -- without the lock nothing was tried, neither before nor now
      · obtain ⟨hl, hnone⟩ := Bool.or_eq_false_iff.mp hlocks
        obtain ⟨hbelow, hown⟩ := hcurrent.untouched hl
        have hqueries : queries = [] := by simpa using hnone
        refine ⟨hbelow, ?_⟩
        rw [hown, hqueries]
        rfl

theorem writeAt_alone (hvenue : p.venue = .alone) (queries : List (Query α × List Cell)) :
    g.writeAt queries p l
      = ((g.carryOut g.schema.check queries (g.contents p l)).2, { l with
        committed := l.committed ++ (g.carryOut g.schema.check queries (g.contents p l)).1 }) := by
  rw [writeAt, hvenue]

/-- A write in a scope without a transaction. -/
theorem Agrees.write_alone (h : g.Agrees w ⟨some ⟨.nonTransactional, suspended⟩, contexts⟩ p l marks)
    (hop : g.Carries operation queries f) (hblocked : p.blocked = false)
    (implicit : Option Isolation) :
    g.ComesTo (g.database.withConnection (some ⟨.nonTransactional, suspended⟩) implicit .write
        operation) w ⟨some ⟨.nonTransactional, suspended⟩, contexts⟩ p marks
      ((g.writeAt queries p l).1.map f, (g.writeAt queries p l).2) := by
  have hstanding : g.Standing w suspended none l := h.standing
  have hfree : (suspended.any fun u => (w.stateOf u).written) = false :=
    h.blocked.symm.trans hblocked
  have hunlocked := hstanding.unlocked hfree
  have hshown := h.contents_idle rfl
  obtain ⟨c, s, hacquire, hs, hstidy⟩ := hstanding.tidy.acquire
  have htaken : s.Taken c := (hs.taken c).mpr (.inl rfl)
  have hvacant : (s.sessions c).transaction = none := by
    rw [hs.sessions]
    exact hstanding.tidy.vacant c hs.fresh
  obtain ⟨w₁, hrun, ⟨hbooks, hmoves⟩, hcontents, hunlocked₁, hvacant₁⟩ :=
    hop _ _ _ { w with store := s } false s.contents takes_alone
      ⟨⟨.refl _, .refl _ _⟩, rfl, hs.writer.trans hunlocked, hvacant⟩
  let w' := { w₁ with store := w₁.store.giveBack c false }
  have hkept : Kept none w w' := by
    refine ⟨?_, fun i _ _ => congrFun hbooks.transactions i, Nat.le_of_eq hbooks.nextTransaction.symm⟩
    -- nobody had the connection
    have hmine : w.store.Keeps (fun _ => False) w₁.store :=
      hs.keeps.trans hmoves.keeps fun i hi _ => ⟨fun h => h, fun heq => hs.fresh (heq ▸ hi)⟩
    refine hmine.trans (Storage.keeps_giveBack c false w₁.store) fun i hi _ =>
      ⟨fun h => h, fun heq => hs.fresh (heq ▸ hi)⟩
  have hstanding' : g.Standing w' suspended none (g.writeAt queries p l).2 := by
    rw [writeAt_alone h.venue.eq_alone, hshown]
    refine {
      tidy := (hstidy.of_movesOnly htaken hmoves).giveBack ((hmoves.taken c).mpr htaken) hvacant₁
        (by rw [hunlocked₁]; exact fun hn => by cases hn)
      contents := ?_
      settings := hbooks.settings.trans hstanding.settings
      marked := hbooks.flags.trans hstanding.marked
      nextFlag := hbooks.nextFlag.trans hstanding.nextFlag
      waiting := fun u hu => hkept.waits (hstanding.waiting u hu) fun _ hn => by cases hn
      apart := hstanding.apart
      writer := fun i hi => ?_ }
    · show w₁.store.contents = _
      rw [hcontents, replay_append, ← hstanding.contents, hs.contents]
    · have hi' : w₁.store.writer = some i := hi
      rw [hunlocked₁] at hi'
      cases hi'
  refine ⟨w', ?_, ?_, hkept⟩
  · have hensure := hstanding.perform_ensureNoWriter
    rw [hfree] at hensure
    rw [withConnection, ensureAccess, perform_bind_ok hensure, runAlone,
      perform_bind_ok (g.perform_acquire_ok hacquire), perform_outcome_bind, hrun,
      writeAt_alone h.venue.eq_alone, hshown, ← hs.contents]
    rfl
  · refine h.resume hkept ?_ ?_ ?_ ?_
    · rw [show Scope.setAside (some ⟨.nonTransactional, suspended⟩) = suspended from
        List.append_nil suspended]
      exact hstanding'
    all_goals rw [writeAt_alone h.venue.eq_alone]

theorem conclude_map (g : Premises δ α) {κ : Type} (f : κ → ρ) (result : Except Error κ)
    (marked : Bool) (l : Ledger) :
    g.conclude (result.map f) marked l
      = ((g.conclude result marked l).1.map f, (g.conclude result marked l).2) := by
  rcases result with e | x
  · rfl
  · simp only [Except.map, conclude]
    rcases marked with _ | _
    · simp only [Bool.false_eq_true, if_false]
      split <;> rfl
    · rfl

/-- A write outside of every scope has a transaction of its own. -/
theorem Agrees.write_outside (h : g.Agrees w ⟨none, contexts⟩ p l marks)
    (hop : g.Carries operation queries f) :
    g.ComesTo (g.database.withConnection none w.settings.implicitIsolation? .write operation) w
      ⟨none, contexts⟩ p marks
      ((g.writeAt queries p l).1.map f, (g.writeAt queries p l).2) := by
  have hstanding : g.Standing w [] none l := h.standing
  have hvenue := h.venue.eq_outside
  have hshown := h.contents_idle rfl
  rw [hstanding.settings]
  rcases himplicit : g.settings.implicitIsolation? with _ | isolation
  · have hwrite : g.writeAt queries p l = (.error (.noActiveTransaction .implicitDisabled), l) := by
      rw [writeAt, hvenue]
      simp only [himplicit]
    rw [hwrite]
    exact ⟨w, rfl, h, .refl none w⟩
  -- nobody is suspended, so the transaction can begin whatever its isolation is
  obtain ⟨t, w₁, hbegin, hb, -⟩ : ∃ t w₁, (g.database.begin isolation).perform w = (.ok t, w₁) ∧
      Begun w w₁ t (g.database.dialect.locksOnBegin isolation) ∧ t.isolation = isolation :=
    g.perform_begin hstanding.tidy fun _ => hstanding.unlocked rfl
  obtain ⟨w₂, hrun, hbooks, hkept₂, hstanding₂, htaken, hshows⟩ :=
    (hstanding.begin hb).perform_within hop hb.taken rfl hb.shows
  have hstate : w₂.stateOf t = { written := g.database.dialect.locksOnBegin isolation } :=
    (congrFun hbooks.transactions t.id).trans hb.state
  -- what the transaction has to commit
  let done := (g.carryOut (fun _ => .ok ()) queries w.store.contents).1
  let l₂ : Ledger := { l with
    own := done, locks := g.database.dialect.locksOnBegin isolation || !queries.isEmpty }
  have hcontents : replay g.schema done w.store.contents = g.contents {} l₂ := by
    rw [contents, List.append_nil, replay_append, hstanding.contents]
  obtain ⟨w', hsettle, hkept, hstanding'⟩ :=
    Standing.settle (l := l₂) { hstanding₂ with }
      ((g.carryOut (fun _ => .ok ()) queries w.store.contents).2.map f) false htaken
      (by rw [hstate]) (by rw [hstate]) (hcontents ▸ hshows)
  have hwrite : g.writeAt queries p l
      = ((g.conclude (g.carryOut (fun _ => .ok ()) queries w.store.contents).2 false l₂).1,
        { l with committed :=
          (g.conclude (g.carryOut (fun _ => .ok ()) queries w.store.contents).2 false l₂).2 }) := by
    rw [writeAt, hvenue]
    simp only [himplicit, hshown]
    rfl
  rw [conclude_map] at hsettle hstanding'
  have hall : Kept none w w' := (hkept₂.trans hkept).after_begin hb
  rw [hwrite]
  refine ⟨w', ?_, h.resume hall { hstanding' with } rfl rfl rfl, hall⟩
  rw [withConnection, runImplicit, perform_bind_ok hbegin, perform_outcome_bind, hrun]
  exact hsettle

/-! ## Operations that write -/

theorem Agrees.withConnection_blocked {binding : Binding}
    (h : g.Agrees w ⟨some ⟨binding, suspended⟩, contexts⟩ p l marks) (hblocked : p.blocked = true)
    (implicit : Option Isolation) (operation : ConnectionId → Action (Storage δ) τ ρ) :
    (g.database.withConnection (some ⟨binding, suspended⟩) implicit .write operation).perform w
      = (.error suspendedWriter, w) := by
  have hensure := h.standing.perform_ensureNoWriter
  rw [← h.blocked, hblocked] at hensure
  rcases binding with ⟨t, flag⟩ | _ <;>
    exact perform_bind_error hensure _

/-- An operation that writes, in a scope of any kind. -/
theorem Agrees.perform_withConnection (h : g.Agrees w here p l marks)
    (hop : g.Carries operation queries f) :
    g.ComesTo (g.database.withConnection here.scope w.settings.implicitIsolation? .write operation)
      w here p marks
      (if p.blocked then .error suspendedWriter else (g.writeAt queries p l).1.map f,
        if p.blocked then l else (g.writeAt queries p l).2) := by
  obtain ⟨scope, contexts⟩ := here
  rcases hblocked : p.blocked with _ | _
  · simp only [Bool.false_eq_true, if_false]
    rcases scope with _ | ⟨_ | _, suspended⟩
    · exact h.write_outside hop
    · exact h.write_within hop hblocked _
    · exact h.write_alone hop hblocked _
  · simp only [if_true]
    rcases scope with _ | ⟨binding, suspended⟩
    · -- nobody is suspended outside of every scope
      have hnone : p.blocked = false := h.blocked
      rw [hnone] at hblocked
      cases hblocked
    · exact ⟨w, h.withConnection_blocked hblocked _ _, h, .refl _ w⟩

/-- Once its arguments are resolved, a write goes by its meaning. -/
theorem Agrees.write_resolved (h : g.Agrees w here p l marks) (write : WriteOperation α)
    {cells : List (List Cell)} (hcells : g.cellsOf write = .ok cells)
    (hop : g.Carries operation (write.queries.zip cells) f) (wrap : ρ → Answer)
    (hwrap : ∀ results, wrap (f results) = write.answer results) :
    g.ComesTo (g.database.withConnection here.scope g.settings.implicitIsolation? .write operation
      >>= fun x => pure (wrap x)) w here p marks (g.write write p l) := by
  obtain ⟨w', hrun, hagrees, hkept⟩ := h.perform_withConnection hop
  rw [h.standing.settings] at hrun
  dsimp only at hrun hagrees
  rw [ComesTo, perform_bind_pure, hrun, Premises.write, hcells]
  rcases hblocked : p.blocked with _ | _
  · rw [hblocked] at hagrees
    simp only [Bool.false_eq_true, if_false] at hagrees ⊢
    refine ⟨w', ?_, hagrees, hkept⟩
    rcases (g.writeAt (write.queries.zip cells) p l).1 with e | results
    · rfl
    · simp only [Except.map, hwrap]
  · rw [hblocked] at hagrees
    exact ⟨w', rfl, hagrees, hkept⟩

/-- A write of the database answers what its meaning tells, in a scope of any kind. -/
theorem Agrees.perform_answer (h : g.Agrees w here p l marks) (write : WriteOperation α) :
    g.ComesTo (Script.answer g.database here.scope write.operation) w here p marks
      (g.write write p l) := by
  have hunresolved : ∀ e, g.cellsOf write = .error e → g.write write p l = (.error e, l) := by
    intro e he
    rw [Premises.write, he]
  -- the cells are resolved first, and nothing is run where they cannot be
  cases write with
  | one q =>
    have hcells : g.cellsOf (.one q) = (g.database.cells g.settings.enumMode q.arguments).map
        fun cells => [cells] := by
      show [q].mapM _ = _
      rw [List.mapM_cons]
      rcases g.database.cells g.settings.enumMode q.arguments with e | cells <;> rfl
    show ∃ w', (g.database.updateWithKey here.scope q >>= fun x => pure (Answer.updated x)).perform w
      = _ ∧ _
    rw [perform_bind_pure, Database.updateWithKey, Database.run, perform_look_bind,
      h.standing.settings]
    rcases hc : g.database.cells g.settings.enumMode q.arguments with e | cells
    · rw [hunresolved e (hcells.trans (by rw [hc]; rfl))]
      exact ⟨w, rfl, h, .refl _ w⟩
    · rw [perform_bind_ok (perform_conclude _ _), ← perform_bind_pure]
      exact h.write_resolved (.one q) (hcells.trans (by rw [hc]; rfl)) (carries_one q cells)
        Answer.updated fun _ => rfl
  | batch sql argumentLists =>
    have hbatch : (g.database.updateBatch here.scope sql argumentLists).perform w
        = (Action.conclude (g.cellsOf (.batch sql argumentLists)) >>= fun cells =>
            g.database.withConnection here.scope g.settings.implicitIsolation? .write fun c =>
              g.database.updateEach c
                ((WriteOperation.batch sql argumentLists).queries.zip cells)).perform w := by
      rw [Database.updateBatch, perform_look_bind, h.standing.settings]
      rfl
    show ∃ w', (g.database.updateBatch here.scope sql argumentLists
      >>= fun x => pure (Answer.batch x)).perform w = _ ∧ _
    rw [perform_bind_pure, hbatch]
    rcases hc : g.cellsOf (.batch sql argumentLists) with e | cells
    · rw [hunresolved e hc]
      exact ⟨w, rfl, h, .refl _ w⟩
    · rw [perform_bind_ok (perform_conclude _ _), ← perform_bind_pure]
      exact h.write_resolved (.batch sql argumentLists) hc (carries_each _) Answer.batch
        fun _ => rfl

end Premises

end RowMapping
