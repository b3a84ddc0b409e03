/-
Writes are refused exactly as long as a suspended transaction is a writer.

In every state that a run can reach, what the manager knows about its transactions
agrees with what has happened to them. So the check that goes before a write, and
before a transaction that locks when it begins, finds a suspended writer exactly when
there is one. A refusal changes nothing.
-/
import RowMapping.Proofs.Transaction.WriterBooks

set_option autoImplicit false

namespace RowMapping

variable {σ τ α ρ : Type} {P : Pool σ}

namespace Config

open RowMapping.Action RowMapping.Manager

/-- A state of a run whose transactions are in order and recorded. -/
structure Orderly (db : Database σ α) (P : Pool σ) (past : List (Config σ α τ ρ))
    (c : Config σ α τ ρ) : Prop where
  placed : c.Placed
  books : Books db P past c.frames c.world

variable {db : Database σ α} {past : List (Config σ α τ ρ)} {c c' : Config σ α τ ρ}

/-! ## Single steps -/

theorem Orderly.quiet (h : Orderly db P past c) (hidle : ∀ t, c.Idle db t) {w' : World σ τ}
    (hspares : Spares P (fun _ => False) c.world w') : Books db P (c :: past) c.frames w' :=
  h.books.quiet hidle hspares rfl rfl fun _ here next hframe => ⟨here, next, hframe⟩

/-- A frame that begins nothing comes on top. -/
theorem Orderly.quiet_cons (h : Orderly db P past c) (hidle : ∀ t, c.Idle db t)
    {frame : Frame α τ ρ} (hframe : frame.connection? = none) {w' : World σ τ}
    (hspares : Spares P (fun _ => False) c.world w') :
    Books db P (c :: past) (frame :: c.frames) w' :=
  h.books.quiet hidle hspares (begun_cons_of_connection? c.frames hframe)
    (List.filterMap_cons_none hframe)
    fun _ here next hheld => ⟨here, next, List.mem_cons_of_mem frame hheld⟩

/-- A frame that ends nothing goes away. -/
theorem Orderly.quiet_tail (h : Orderly db P past c) (hidle : ∀ t, c.Idle db t)
    {frame : Frame α τ ρ} {rest : List (Frame α τ ρ)} (hframes : c.frames = frame :: rest)
    (hframe : frame.connection? = none) (hheld : ∀ here t next, frame ≠ .held here t next)
    {w' : World σ τ} (hspares : Spares P (fun _ => False) c.world w') :
    Books db P (c :: past) rest w' := by
  have hbooks := h.books
  rw [hframes] at hbooks
  refine hbooks.quiet hidle hspares (begun_cons_of_connection? rest hframe).symm
    (List.filterMap_cons_none hframe).symm fun t here next hmem => ?_
  rcases List.mem_cons.mp hmem with heq | hmem
  · exact absurd heq.symm (hheld here t next)
  · exact ⟨here, next, hmem⟩

theorem Orderly.books_operate (h : Orderly db P past c) (hE : db.engine.Counting P)
    (hd : db.dialect.Converts Unrefused) {operation : Operation α}
    {next : Except Error Answer → Script α τ ρ}
    (hcontrol : c.control = .run (.operate operation next)) :
    Books db P (c :: past) c.frames
      ((Script.answer db c.here.scope operation).perform c.world).2 := by
  have hnochange : ∀ t, ¬ c.ChangesRows db t := by
    rintro t ⟨depth, sql, cells, next', flag, hcontrol', -⟩
    cases hcontrol.symm.trans hcontrol'
  rcases hactive : Scope.active? c.here.scope with _ | t
  · -- no transaction is active, so none is written in
    have hidle : ∀ t, c.Idle db t := by
      intro t
      refine ⟨?_, hnochange t⟩
      rintro ⟨operation', next', -, -, -, hactive', -⟩
      cases hactive.symm.trans hactive'
    exact h.quiet hidle (Database.quiet_answer_inactive hE hactive operation _ h.books.sound)
  · have ht : t ∈ begun c.frames := h.placed.arranged.active t hactive
    have hother : ∀ u, u ≠ t → c.Idle db u := by
      intro u hu
      refine ⟨?_, hnochange u⟩
      rintro ⟨operation', next', -, -, -, hactive', -⟩
      exact hu (Option.some.inj (hactive'.symm.trans hactive))
    rcases Database.works_answer_active hE hactive operation h.books.sound with
      ⟨hnot, hworld⟩ | ⟨hresolves, hadmitted, hworks, hread⟩
    · have hidle : ∀ t, c.Idle db t := by
        intro t
        refine ⟨?_, hnochange t⟩
        rintro ⟨operation', next', hcontrol', -, hresolves, -, hrefused⟩
        cases hcontrol.symm.trans hcontrol'
        rcases hnot with hunresolved | hrefuses
        · exact absurd (hunresolved.symm.trans hresolves) (by simp)
        · rw [Database.perform_answer_refused hE hresolves hrefuses] at hrefused
          exact hrefused ⟨_, rfl⟩
      rw [hworld]
      exact h.quiet hidle (.refl h.books.sound)
    · rcases haccess : operation.access with _ | _
      · have hidle : ∀ t, c.Idle db t := by
          intro t
          refine ⟨?_, hnochange t⟩
          rintro ⟨operation', next', hcontrol', hwrite, -⟩
          cases hcontrol.symm.trans hcontrol'
          cases haccess.symm.trans hwrite
        exact h.quiet hidle (hread haccess)
      · have hwrites : c.WritesIn db t :=
          ⟨operation, next, hcontrol, haccess, hresolves, hactive,
            Database.not_refused_answer hE hd haccess hresolves hadmitted⟩
        rw [haccess] at hworks
        exact h.books.work ht hworks hother ((h.books.recorded t ht).written hwrites (hnochange t)
          hworks (h.books.taken _ (connection_mem_checkedOut ht)))

theorem Orderly.books_bypass (h : Orderly db P past c) (hE : db.engine.Counting P) {depth : Nat}
    {operation : ConnectionOperation} {next : Except Error Answer → Script α τ ρ}
    (hcontrol : c.control = .run (.bypass depth operation next)) :
    Books db P (c :: past) c.frames
      ((Script.answerPast db c.here depth operation).perform c.world).2 := by
  have hnowrite : ∀ t, ¬ c.WritesIn db t := by
    rintro t ⟨operation', next', hcontrol', -⟩
    cases hcontrol.symm.trans hcontrol'
  -- only the transaction of the context can have rows changed
  have hidle : ∀ u, (∀ flag, c.here.contexts[depth]? ≠ some ⟨some u, flag⟩) → c.Idle db u := by
    intro u hu
    refine ⟨hnowrite u, ?_⟩
    rintro ⟨depth', sql, cells, next', flag, hcontrol', hctx', -⟩
    cases hcontrol.symm.trans hcontrol'
    exact hu flag hctx'
  rcases hctx : c.here.contexts[depth]? with _ | ⟨_ | t, flag⟩
  · rw [Script.answerPast, hctx]
    exact h.quiet (fun u => hidle u (by simp [hctx])) (.refl h.books.sound)
  · rw [Script.answerPast, hctx]
    exact h.quiet (fun u => hidle u (by simp [hctx])) (quiet_runAlone hE.toPooled
      (Database.works_answerOn hE.toPooled operation) c.world h.books.sound)
  · have ht : t ∈ begun c.frames := by
      rw [← h.placed.arranged.around t]
      exact List.mem_filterMap.mpr ⟨_, List.mem_of_getElem? hctx, rfl⟩
    have hother : ∀ u, u ≠ t → c.Idle db u := fun u hu => hidle u (by simp [hctx, hu.symm])
    have htaken := h.books.taken _ (connection_mem_checkedOut ht)
    have hworks : Works P t.connection (marked .read t c.world)
        ((Script.answerOn db t.connection operation).perform c.world).2 :=
      Database.works_answerOn hE.toPooled operation t.connection c.world h.books.sound
    rw [Script.answerPast, hctx]
    show Books db P (c :: past) c.frames
      ((Script.answerOn db t.connection operation).perform c.world).2
    refine h.books.work ht hworks hother ?_
    rcases operation with ⟨sql, cells⟩ | statement
    · have hchanges : c.ChangesRows db t ↔
          rowsOf (db.engine.update t.connection sql cells c.world.store).1 ≠ 0 := by
        constructor
        · rintro ⟨depth', sql', cells', next', flag', hcontrol', -, hrows⟩
          cases hcontrol.symm.trans hcontrol'
          exact hrows
        · exact fun hrows => ⟨depth, sql, cells, next, flag, hcontrol, hctx, hrows⟩
      refine (h.books.recorded t ht).changed (hnowrite t) hchanges hworks.toSpares ?_
      rw [Script.answerOn, perform_bind_pure]
      exact hE.update_rows sql cells h.books.sound htaken
    · have hno : c.ChangesRows db t ↔ 0 ≠ 0 := by
        refine ⟨?_, fun hne => absurd rfl hne⟩
        rintro ⟨depth', sql, cells, next', flag', hcontrol', -⟩
        cases hcontrol.symm.trans hcontrol'
      refine (h.books.recorded t ht).changed (hnowrite t) hno hworks.toSpares ?_
      rw [Script.answerOn, perform_bind_pure]
      exact hE.execute_count t.connection statement h.books.sound htaken

/-- Asking whether something may begin changes nothing. -/
theorem eq_of_permit (hE : db.engine.Counting P) {suspended : List Transaction}
    {opening : Opening} {w w' : World σ τ} {r : Except Error Unit}
    (h : (db.permit suspended opening).perform w = (r, w')) : w = w' := by
  rcases opening with isolation | t
  · rw [permit] at h
    split at h
    · rw [perform_ensureNoWriter db.toManager w suspended fun t _ =>
        counts_of_counting hE t.connection _] at h
      exact (Prod.mk.inj h).2
    · exact (Prod.mk.inj h).2
  · exact (Prod.mk.inj h).2

/-- Only a frame keeps what an attempt has opened, and what begins is new. -/
theorem Orderly.books_open (h : Orderly db P past c) (hE : db.engine.Counting P)
    {trial : Trial α τ ρ} (hcontrol : c.control = .attempt trial) {r : Except Error Opened}
    {w' : World σ τ} (hopen : (db.openAttempt trial.opening).perform c.world = (r, w')) :
    match r with
    | .error _ => Books db P (c :: past) c.frames w'
    | .ok o =>
      Books db P (c :: past) (.attempt trial o :: c.frames)
          (w'.entered trial.number o.context.isTransactional) ∧
        ∀ t flag, o = .own t flag → t ∉ begun c.frames := by
  have hidle : ∀ t, c.Idle db t := idle_of_control (by rw [hcontrol]; rfl)
  have hopens := spares_openAttempt hE.toPooled h.books.sound hopen
  rcases r with e | o
  · exact h.quiet hidle hopens
  dsimp only at hopens ⊢
  -- what is opened is of the kind that was asked for
  rcases hopening : trial.opening with isolation | u
  all_goals
    rw [hopening] at hopens
    rcases o with ⟨t, flag⟩ | ⟨t, name, flag⟩
  · refine ⟨(h.books.begins hE hidle hopens).entered _ _, ?_⟩
    rintro t' flag' ⟨⟩ ht
    have hlt := (h.books.recorded t ht).numbered
    have hle := hopens.unused
    omega
  · exact hopens.elim
  · exact hopens.elim
  · exact ⟨(h.quiet_cons hidle rfl hopens.2).entered _ _, by simp⟩

theorem Orderly.books_close (h : Orderly db P past c) (hE : db.engine.Counting P)
    (hidle : ∀ t, c.Idle db t) {trial : Trial α τ ρ} {o : Opened} {rest : List (Frame α τ ρ)}
    (hframes : c.frames = .attempt trial o :: rest) (result : Except Error ρ) :
    Books db P (c :: past) rest ((db.closeAttempt o result).perform c.world).2 := by
  have hbooks := h.books
  rw [hframes] at hbooks
  rcases o with ⟨t, flag⟩ | ⟨t, name, flag⟩
  · have htaken := hbooks.taken t.connection (List.mem_cons_self ..)
    exact hbooks.gives hidle rfl (spares_settle hE.toPooled hbooks.sound htaken result _)
  · exact h.quiet_tail hidle hframes rfl (by simp)
      (quiet_leave hE.toPooled t name result _ c.world hbooks.sound)

/-- Every step keeps the transactions recorded. -/
theorem Orderly.books_step (h : Orderly db P past c) (hE : db.engine.Counting P)
    (hd : db.dialect.Converts Unrefused) (hstep : c.step db = some c') :
    Books db P (c :: past) c'.frames c'.world := by
  have hsound := h.books.sound
  have hmove := moves_of_step hstep
  obtain ⟨control, here, frames, w⟩ := c
  -- a write can only come with an operation
  cases hmove with
  | operate => exact h.books_operate hE hd rfl
  | bypass => exact h.books_bypass hE rfl
  | finish | observe | refuse | again | conclude =>
    exact h.quiet (idle_of_control rfl) (.refl hsound)
  | note | configure =>
    exact h.quiet (idle_of_control rfl) (.of_books rfl hsound (fun _ => ⟨rfl, rfl⟩) rfl)
  | mark depth =>
    refine h.quiet (idle_of_control rfl) ?_
    rw [Script.mark]
    split
    · exact .of_books rfl hsound (fun _ => ⟨rfl, rfl⟩) rfl
    · exact .refl hsound
  | join | free =>
    exact h.quiet_cons (idle_of_control rfl) rfl
      (.of_books rfl hsound (fun _ => ⟨rfl, rfl⟩) rfl)
  | forbid _ hpermit | permit _ hpermit =>
    obtain rfl := eq_of_permit hE hpermit
    exact h.quiet (idle_of_control rfl) (.refl hsound)
  | stay => exact h.quiet_cons (idle_of_control rfl) rfl (.refl hsound)
  | @hold _ _ _ t _ hctx =>
    have ht : t ∈ begun frames := by
      rw [← h.placed.arranged.around t]
      exact List.mem_filterMap.mpr ⟨_, List.mem_of_getElem? hctx, rfl⟩
    exact h.books.holds (idle_of_control rfl) ht
  | exhaust _ hacquire =>
    have hquiet := quiet_acquire hE.toPooled w hsound
    rw [hacquire] at hquiet
    exact h.quiet (idle_of_control rfl) hquiet
  | borrow _ hacquire =>
    exact h.books.borrows (idle_of_control rfl) (obtains_acquire hE.toPooled hsound hacquire)
  | unopened hopen => exact h.books_open hE rfl hopen
  | opened hopen => exact (h.books_open hE rfl hopen).1
  | leave hframes =>
    exact h.quiet_tail (idle_of_control rfl) hframes rfl (by simp) (.refl hsound)
  | close hframes => exact h.books_close hE (idle_of_control rfl) hframes _
  | letGo hframes =>
    subst hframes
    exact h.books.lets (idle_of_control rfl)
  | giveBack hframes =>
    subst hframes
    have htaken := h.books.taken _ (List.mem_cons_self ..)
    exact h.books.gives (idle_of_control rfl) rfl
      (spares_release hE.toPooled _ hsound htaken)

theorem Orderly.step (h : Orderly db P past c) (hE : db.engine.Counting P)
    (hd : db.dialect.Converts Unrefused) (hstep : c.step db = some c') :
    Orderly db P (c :: past) c' where
  placed := h.placed.step hstep fun _ t flag _ hcontrol hopen =>
    (h.books_open hE hcontrol hopen).2 t flag rfl
  books := h.books_step hE hd hstep

/-- Every state that a run reaches is in order. -/
theorem orderly_of_reaches (hE : db.engine.Counting P) (hd : db.dialect.Converts Unrefused)
    {script : Script α τ ρ} {w : World σ τ} (hw : P.sound w.store)
    (h : Reaches db ⟨.run script, {}, [], w⟩ past c) :
    Orderly db P past c := by
  induction h with
  | start => exact ⟨.start script w, .start hw⟩
  | step _ hstep ih => exact ih.step hE hd hstep

/-! ## Refusals -/

/-- One of the transactions around that are not active has become a writer. -/
def SuspendsWriter (db : Database σ α) (past : List (Config σ α τ ρ)) (c : Config σ α τ ρ) :
    Prop :=
  ∃ t ∈ c.here.transactions, Scope.active? c.here.scope ≠ some t ∧ HasWritten db past t

/-- One of the transactions around has become a writer. A scope that begins a
transaction suspends them all. -/
def WriterAround (db : Database σ α) (past : List (Config σ α τ ρ)) (c : Config σ α τ ρ) : Prop :=
  ∃ t ∈ c.here.transactions, HasWritten db past t

/-- No connection of a transaction is checked out. -/
def Unheld (c : Config σ α τ ρ) : Prop := ∀ here t next, Frame.held here t next ∉ c.frames

theorem Orderly.foundWriting_iff (h : Orderly db P past c) (hE : db.engine.Counting P)
    (hfree : c.Unheld) {t : Transaction} (ht : t ∈ begun c.frames) :
    db.foundWriting c.world t = true ↔ HasWritten db past t :=
  (h.books.recorded t ht).foundWriting_iff hE fun here next => hfree here t next

/-- What is found among the suspended transactions is what has happened. -/
theorem Orderly.any_suspended (h : Orderly db P past c) (hE : db.engine.Counting P)
    (hfree : c.Unheld) :
    (Scope.suspendedIn c.here.scope).any (db.foundWriting c.world) = true ↔
      c.SuspendsWriter db past := by
  rw [List.any_eq_true]
  constructor
  · rintro ⟨t, ht, hfound⟩
    obtain ⟨hbegun, hne⟩ := (h.placed.arranged.suspended t).mp ht
    exact ⟨t, (h.placed.arranged.around t).mpr hbegun, hne,
      (h.foundWriting_iff hE hfree hbegun).mp hfound⟩
  · rintro ⟨t, haround, hne, hwritten⟩
    have hbegun := (h.placed.arranged.around t).mp haround
    exact ⟨t, (h.placed.arranged.suspended t).mpr ⟨hbegun, hne⟩,
      (h.foundWriting_iff hE hfree hbegun).mpr hwritten⟩

theorem Orderly.any_around (h : Orderly db P past c) (hE : db.engine.Counting P)
    (hfree : c.Unheld) {settings : TransactionSettings} {isolation : Isolation}
    {suspended : List Transaction}
    (hentry : Scope.entry c.here.scope settings = .attempts (.own isolation) suspended) :
    suspended.any (db.foundWriting c.world) = true ↔ c.WriterAround db past := by
  have hfits := h.placed.arranged.entry settings
  rw [hentry] at hfits
  -- a transaction of its own suspends all those around it
  have hsuspended : ∀ t, t ∈ suspended ↔ t ∈ c.here.transactions := by
    intro t
    have hne : Opening.own isolation ≠ .savepoint t := by simp
    rw [hfits.suspended t, and_iff_left hne, h.placed.arranged.around t]
  rw [List.any_eq_true]
  constructor
  · rintro ⟨t, ht, hfound⟩
    have haround := (hsuspended t).mp ht
    have hbegun := (h.placed.arranged.around t).mp haround
    exact ⟨t, haround, (h.foundWriting_iff hE hfree hbegun).mp hfound⟩
  · rintro ⟨t, haround, hwritten⟩
    have hbegun := (h.placed.arranged.around t).mp haround
    exact ⟨t, (hsuspended t).mpr haround, (h.foundWriting_iff hE hfree hbegun).mpr hwritten⟩

/-- Without a writer among the suspended transactions a new transaction is tried. -/
theorem perform_transaction_own (hE : db.engine.Counting P) {scope : Option Scope}
    {settings : TransactionSettings} {isolation : Isolation} {suspended : List Transaction}
    {w : World σ τ}
    (hentry : Scope.entry scope (w.settings.normalize settings)
      = .attempts (.own isolation) suspended)
    (hlocks : db.dialect.locksOnBegin isolation = true) (work : ScopedWork σ τ ρ) :
    (db.transaction scope settings work).perform w
      = if suspended.any (db.foundWriting w) then (.error suspendedWriter, w)
        else (retrying (db.tryOnce (.own isolation) suspended work)
          (w.settings.normalize settings).retries 1).perform w := by
  rw [Script.perform_transaction, withTransaction_eq, hentry, runEntry, permit, if_pos hlocks,
    perform_bind, perform_ensureNoWriter db.toManager w suspended fun t _ =>
      counts_of_counting hE t.connection _]
  rcases suspended.any (db.foundWriting w) <;> rfl

/-- **Refusals.** A write of the database is refused exactly if a suspended transaction
is a writer, and so is a scope that begins a transaction which locks. A refusal leaves
the world and the place as they were. The dialect itself takes no failure of the driver for
a refusal, which holds of every dialect that wraps it by a class. -/
theorem refused_iff (hE : db.engine.Counting P) (hd : db.dialect.Converts Unrefused)
    {script : Script α τ ρ} {w : World σ τ} (hw : P.sound w.store)
    (hreaches : Reaches db ⟨.run script, {}, [], w⟩ past c)
    (hfree : c.Unheld) :
    (∀ (operation : Operation α) (next : Except Error Answer → Script α τ ρ),
      c.control = .run (.operate operation next) → operation.access = .write →
      db.resolves c.world.settings.enumMode operation = true →
      (Refused ((Script.answer db c.here.scope operation).perform c.world).1 ↔
        c.SuspendsWriter db past) ∧
      (c.SuspendsWriter db past →
        c.step db = some (c.goOn (next (.error suspendedWriter)) c.world))) ∧
    (∀ (settings : TransactionSettings) (work : Nat → Script α τ ρ)
      (next : Except Error ρ → Script α τ ρ) (isolation : Isolation)
      (suspended : List Transaction), c.control = .run (.scope settings work next) →
      Scope.entry c.here.scope (c.world.settings.normalize settings)
        = .attempts (.own isolation) suspended →
      db.dialect.locksOnBegin isolation = true →
      (∀ inside : ScopedWork σ τ ρ,
        (c.WriterAround db past → (db.transaction c.here.scope settings inside).perform c.world
          = (.error suspendedWriter, c.world)) ∧
        ((∀ scope ctx n, Raises Unrefused (inside scope ctx n)) →
          (Refused ((db.transaction c.here.scope settings inside).perform c.world).1 ↔
            c.WriterAround db past))) ∧
      (c.WriterAround db past →
        c.step db = some (c.goOn (next (.error suspendedWriter)) c.world))) := by
  have h := orderly_of_reaches hE hd hw hreaches
  refine ⟨?_, ?_⟩
  · intro operation next hcontrol hwrite hresolves
    have hrefuses : db.refuses operation.access (Scope.suspendedIn c.here.scope) c.world = true ↔
        c.SuspendsWriter db past := by
      rw [hwrite]
      exact h.any_suspended hE hfree
    refine ⟨⟨fun hrefused => ?_, fun hsuspends => ?_⟩, fun hsuspends => ?_⟩
    · rcases hfound : db.refuses operation.access (Scope.suspendedIn c.here.scope) c.world with _ | _
      · exact absurd hrefused (Database.not_refused_answer hE hd hwrite hresolves hfound)
      · exact hrefuses.mp hfound
    · rw [Database.perform_answer_refused hE hresolves (hrefuses.mpr hsuspends)]
      exact ⟨_, rfl⟩
    · simp only [Config.step, hcontrol, stepScript, after,
        Database.perform_answer_refused hE hresolves (hrefuses.mpr hsuspends)]
  · intro settings work next isolation suspended hcontrol hentry hlocks
    have hany := h.any_around hE hfree hentry
    refine ⟨fun inside => ⟨fun haround => ?_, fun hunrefused => ⟨fun hrefused => ?_, fun haround => ?_⟩⟩,
      fun haround => ?_⟩
    · rw [perform_transaction_own hE hentry hlocks, if_pos (hany.mpr haround)]
    · rcases hfound : suspended.any (db.foundWriting c.world) with _ | _
      · rw [perform_transaction_own hE hentry hlocks, hfound] at hrefused
        have hraises := raises_retrying (raises_tryOnce (unrefused_errors hd)
          (by simp [Unrefused]) (.own isolation) suspended hunrefused)
          (c.world.settings.normalize settings).retries 1
        exact absurd hrefused (not_refused_of_raises hraises c.world)
      · exact hany.mp hfound
    · rw [perform_transaction_own hE hentry hlocks, if_pos (hany.mpr haround)]
      exact ⟨_, rfl⟩
    · have hpermit : (db.permit suspended (.own isolation)).perform c.world
          = (.error suspendedWriter, c.world) := by
        rw [permit, if_pos hlocks, perform_ensureNoWriter db.toManager c.world suspended fun t _ =>
          counts_of_counting hE t.connection _, if_pos (hany.mpr haround)]
      simp only [Config.step, hcontrol, stepScript, stepScope, hentry, hpermit]

/-- A database that counts its writes. -/
def tally : Database (Storage Nat) Empty :=
  .ofEngine (Storage.engine ⟨fun _ _ n => .ok ⟨n + 1, ⟨1, 0⟩⟩, fun _ _ _ => .ok ⟨[], []⟩, fun _ =>
    .ok ()⟩) .sqlite .empty

/-- A write past the database, and one by the database in a new transaction. -/
def writingTwice : Script Empty Unit Unit :=
  .scope { propagation := .required }
    (fun _ => .bypass 0 (.update "first" []) fun _ =>
      .scope { propagation := .requiresNew }
        (fun _ => .operate (.update { sql := "second" }) fun _ => .finish (.ok ())) .finish)
    .finish

/-- The state of these two writes before the second one, and those before it. -/
def beforeSecond : List (Config (Storage Nat) Empty Unit Unit) × Config (Storage Nat) Empty Unit Unit :=
  advance tally 5 ([], ⟨.run writingTwice, {}, [], { store := { contents := 0 } }⟩)

/-- Whether a write of the database comes next, and is refused. -/
def refusesNext (c : Config (Storage Nat) Empty Unit Unit) : Bool :=
  match c.control with
  | .run (.operate operation _) =>
    operation.access == .write && tally.resolves c.world.settings.enumMode operation &&
      Refused ((Script.answer tally c.here.scope operation).perform c.world).1
  | _ => false

def isHeld : Frame Empty Unit Unit → Bool
  | .held .. => true
  | _ => false

theorem refused_iff_writingTwice :
    Reaches tally ⟨.run writingTwice, {}, [], { store := { contents := 0 } }⟩ beforeSecond.1
        beforeSecond.2 ∧
      beforeSecond.2.Unheld ∧ beforeSecond.2.SuspendsWriter tally beforeSecond.1 := by
  have hsound : Storage.pool.sound ({ contents := 0 } : Storage Nat) :=
    ⟨List.nodup_nil, fun _ h => by cases h⟩
  have hreaches : Reaches tally ⟨.run writingTwice, {}, [], { store := { contents := 0 } }⟩
      beforeSecond.1 beforeSecond.2 := reaches_advance 5 .start
  have hfree : beforeSecond.2.Unheld := by
    intro here t next hframe
    have hnone : beforeSecond.2.frames.any isHeld = false := by decide +kernel
    have hheld : beforeSecond.2.frames.any isHeld = true := List.any_eq_true.mpr ⟨_, hframe, rfl⟩
    cases hnone.symm.trans hheld
  have hcounting : tally.engine.Counting Storage.pool := Storage.counting_engine _
  have hd : tally.dialect.Converts Unrefused := Dialect.classifies_sqlite.unrefused
  have h := (refused_iff hcounting hd hsound hreaches hfree).1
  have hnext : refusesNext beforeSecond.2 = true := by decide +kernel
  refine ⟨hreaches, hfree, ?_⟩
  rw [refusesNext] at hnext
  split at hnext
  · rename_i operation next hcontrol
    simp only [Bool.and_eq_true, beq_iff_eq, decide_eq_true_eq] at hnext
    obtain ⟨⟨hwrite, hresolves⟩, hrefused⟩ := hnext
    exact (h operation next hcontrol hwrite hresolves).1.mp hrefused
  · cases hnext

end Config

end RowMapping
