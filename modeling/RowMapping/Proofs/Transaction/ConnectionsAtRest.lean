/-
No connection goes back to the pool unless it is at rest.

Statements may fail at any time and in any combination. In every state that a run can
reach, nothing is open on a connection that is not in use, and its settings are the
default ones. What could not be put at rest was closed. And what is committed changes only
where a COMMIT succeeds, or where something is written outside of transactions.

Only one thing is asked of the application: in a scope without a transaction it begins none
on its own. The connection that it has there goes back to the pool without a look at it.
-/
import RowMapping.Proofs.Transaction.FailedWork
import RowMapping.Proofs.Transaction.TendedFrames

set_option autoImplicit false

namespace RowMapping

variable {σ δ τ α ρ : Type} {storage : σ → Storage δ} {schema : Schema δ}

namespace Config

open RowMapping.Action RowMapping.Manager

/-- The next step works on a connection that no transaction is begun on. -/
def WorksOutside (c : Config σ α τ ρ) : Prop :=
  (∃ operation next suspended, c.control = .run (.operate operation next) ∧
    c.here.scope = some ⟨.nonTransactional, suspended⟩) ∨
  ∃ depth operation next flag, c.control = .run (.bypass depth operation next) ∧
    c.here.contexts[depth]? = some ⟨none, flag⟩

/-- The next step opens a transaction past the manager, on a connection of the pool. -/
def BeginsOutside (c : Config σ α τ ρ) : Prop :=
  ∃ depth operation next flag, c.control = .run (.bypass depth operation next) ∧
    c.here.contexts[depth]? = some ⟨none, flag⟩ ∧ operation.Opens

theorem BeginsOutside.worksOutside {c : Config σ α τ ρ} (h : c.BeginsOutside) :
    c.WorksOutside := by
  obtain ⟨depth, operation, next, flag, hcontrol, hctx, -⟩ := h
  exact .inr ⟨depth, operation, next, flag, hcontrol, hctx⟩

/-- A state of a run whose connections are tended. -/
structure Careful (storage : σ → Storage δ) (strict : Prop) (kind : Statement → Prop)
    (c : Config σ α τ ρ) : Prop where
  placed : c.Placed
  executes : c.Executes kind
  tended : Tended storage strict c.frames c.world

variable {db : Database σ α} {c c' : Config σ α τ ρ} {strict : Prop} {kind : Statement → Prop}

/-! ## Single steps -/

theorem connection_mem {frames : List (Frame α τ ρ)} {t : Transaction} (ht : t ∈ begun frames) :
    t.connection ∈ checkedOut frames ∧ t.connection ∈ (begun frames).map (·.connection) :=
  ⟨connection_mem_checkedOut ht, List.mem_map.mpr ⟨t, ht, rfl⟩⟩

theorem Careful.passes_operate (h : Careful storage strict kind c)
    (hE : db.engine.Unreliable schema storage) (hd : db.dialect = .sqlite)
    {operation : Operation α} {next : Except Error Answer → Script α τ ρ}
    (hcontrol : c.control = .run (.operate operation next)) :
    Passes storage strict (¬ c.WorksOutside) c.frames c.world
      ((Script.answer db c.here.scope operation).perform c.world).2 := by
  refine h.tended.acts (Tending.answer hE hd (fun t ht => ?_) (fun hcalm suspended hscope => ?_)
    operation)
  · exact connection_mem (h.placed.arranged.active t ht)
  · exact hcalm (.inl ⟨operation, next, suspended, hcontrol, hscope⟩)

theorem Careful.passes_bypass (h : Careful storage strict kind c)
    (hE : db.engine.Unreliable schema storage) (hkind : Permits strict kind)
    (hinside : ¬ c.BeginsOutside) {depth : Nat} {operation : ConnectionOperation}
    {next : Except Error Answer → Script α τ ρ}
    (hcontrol : c.control = .run (.bypass depth operation next)) :
    Passes storage strict (¬ c.WorksOutside) c.frames c.world
      ((Script.answerPast db c.here depth operation).perform c.world).2 := by
  have hop : operation.Executes kind := by
    have hexecutes := h.executes.control
    rw [hcontrol] at hexecutes
    exact hexecutes.1
  refine h.tended.acts (Tending.answerPast
    (T := termsWithin strict (¬ c.WorksOutside) c.frames c.world.nextTransaction)
    hE hkind hop (fun t ht => ?_) (fun hcalm flag hctx => ?_) fun flag hctx hopens => ?_)
  · exact connection_mem ((h.placed.arranged.around t).mp ht)
  · exact hcalm (.inr ⟨depth, operation, next, flag, hcontrol, hctx⟩)
  · exact hinside ⟨depth, operation, next, flag, hcontrol, hctx, hopens⟩

theorem Careful.passes_permit {calm : Prop} (h : Careful storage strict kind c)
    (hE : db.engine.Unreliable schema storage) {opening : Opening} {suspended : List Transaction}
    {r : Except Error Unit} {w' : World σ τ}
    (hpermit : (db.permit suspended opening).perform c.world = (r, w')) :
    Passes storage strict calm c.frames c.world w' := by
  have hpasses : Passes storage strict calm c.frames c.world
      ((db.permit suspended opening).perform c.world).2 :=
    h.tended.acts (Tending.permit hE suspended opening)
  rw [hpermit] at hpasses
  exact hpasses

/-- Whatever fails when an attempt begins, only a frame keeps what it has opened. -/
theorem Careful.passes_open (calm : Prop) (h : Careful storage strict kind c)
    (hE : db.engine.Unreliable schema storage) (hd : db.dialect = .sqlite)
    {trial : Trial α τ ρ} (hcontrol : c.control = .attempt trial) {r : Except Error Opened}
    {w' : World σ τ} (hopen : (db.openAttempt trial.opening).perform c.world = (r, w')) :
    match r with
    | .error _ => Passes storage strict calm c.frames c.world w'
    | .ok o =>
      Passes storage strict calm (.attempt trial o :: c.frames) c.world
          (w'.entered trial.number o.context.isTransactional) ∧
        ∀ t flag, o = .own t flag → t ∉ begun c.frames := by
  have hfits := h.placed.control
  rw [hcontrol] at hfits
  have hopened := h.tended.opens calm hE hd hfits.2.opening.inside hopen trial
  rcases r with e | o
  · exact hopened
  · refine ⟨hopened.1.next ?_, hopened.2⟩
    exact hopened.1.tended.aside rfl ⟨_, rfl⟩ (fun _ => rfl) rfl

/-- Whatever fails when an attempt ends, its connection is no longer in use. -/
theorem Careful.passes_close {calm : Prop} (h : Careful storage strict kind c)
    (hE : db.engine.Unreliable schema storage) (hd : db.dialect = .sqlite)
    {trial : Trial α τ ρ} {o : Opened} {rest : List (Frame α τ ρ)}
    (hframes : c.frames = .attempt trial o :: rest) (result : Except Error ρ) :
    Passes storage strict calm rest c.world ((db.closeAttempt o result).perform c.world).2 := by
  have htended := h.tended
  have hstacked := h.placed.stacked
  rw [hframes] at htended hstacked
  rcases o with ⟨t, flag⟩ | ⟨t, name, flag⟩
  · exact htended.settles hE hd result _
  · -- the savepoint is one of a transaction that is still open below
    obtain ⟨hc, hmine⟩ := connection_mem (hstacked.1.2 t name flag rfl)
    have hleft : Passes storage strict calm rest c.world
        ((db.leave t name result (c.world.flags flag)).perform c.world).2 :=
      (htended.tail rfl).acts (Tending.leave hE hd hc hmine name result _)
    exact hleft

/-- Whatever fails, a step leaves the connections as they should be. -/
theorem Careful.passes (h : Careful storage strict kind c)
    (hE : db.engine.Unreliable schema storage) (hd : db.dialect = .sqlite)
    (hkind : Permits strict kind) (hinside : ¬ c.BeginsOutside) (hstep : c.step db = some c') :
    Passes storage strict (¬ c.WorksOutside) c'.frames c.world c'.world := by
  have hmove := moves_of_step hstep
  obtain ⟨control, here, frames, w⟩ := c
  cases hmove with
  | finish | observe | refuse | again | conclude => exact h.tended.still
  | note => exact h.tended.aside rfl ⟨_, rfl⟩ (fun _ => rfl) rfl
  | operate => exact h.passes_operate hE hd rfl
  | bypass => exact h.passes_bypass hE hkind hinside rfl
  | mark depth => exact h.tended.acts (.mark here depth)
  | configure => exact h.tended.aside rfl (List.prefix_refl _) (fun _ => rfl) rfl
  | join | free =>
    refine Passes.cons ?_ rfl
    exact h.tended.aside rfl ⟨_, rfl⟩ (fun _ => rfl) rfl
  | forbid _ hpermit | permit _ hpermit => exact h.passes_permit hE hpermit
  | stay => exact h.tended.still.cons rfl
  | @hold _ _ _ t =>
    refine Passes.cons ?_ rfl
    exact h.tended.acts (Tending.modify t (fun s => { s with held := true }) fun _ => rfl)
  | exhaust _ hacquire => exact h.tended.tends (tends_acquire hE h.tended.rests hacquire)
  | borrow _ hacquire => exact h.tended.borrows hE hacquire _ _
  | unopened hopen => exact h.passes_open _ hE hd rfl hopen
  | opened hopen => exact (h.passes_open _ hE hd rfl hopen).1
  | leave hframes =>
    subst hframes
    exact h.tended.still.tail rfl
  | close hframes => exact h.passes_close hE hd hframes _
  | @letGo _ _ t _ _ hframes =>
    subst hframes
    exact (h.tended.tail rfl).acts
      (Tending.modify t (fun s => { s with held := false }) fun _ => rfl)
  | giveBack hframes =>
    subst hframes
    exact h.tended.returns hE

theorem Careful.step (h : Careful storage strict kind c)
    (hE : db.engine.Unreliable schema storage) (hd : db.dialect = .sqlite)
    (hkind : Permits strict kind) (hinside : ¬ c.BeginsOutside) (hstep : c.step db = some c') :
    Careful storage strict kind c' where
  placed := h.placed.step hstep fun _ t flag _ hcontrol hopen =>
    (h.passes_open True hE hd hcontrol hopen).2 t flag rfl
  executes := h.executes.step hstep
  tended := (h.passes hE hd hkind hinside hstep).tended

theorem careful_of_reaches (hE : db.engine.Unreliable schema storage) (hd : db.dialect = .sqlite)
    (hkind : Permits strict kind) {script : Script α τ ρ} (hscript : script.Executes kind)
    {w : World σ τ} (hw : (storage w.store).Rests []) {past : List (Config σ α τ ρ)}
    (h : Reaches db ⟨.run script, {}, [], w⟩ past c) (hpast : ∀ c' ∈ past, ¬ c'.BeginsOutside) :
    Careful storage strict kind c := by
  induction h with
  | start => exact ⟨.start script w, ⟨hscript, by simp⟩, hw, List.nodup_nil, by simp, .nil⟩
  | @step past c _ _ hstep ih =>
    have hcareful := ih fun c' hc' => hpast c' (List.mem_cons_of_mem c hc')
    exact hcareful.step hE hd hkind (hpast c (List.mem_cons_self ..)) hstep

/-- A script that runs no statement past the database which opens a transaction. -/
theorem not_beginsOutside_of_reaches (hkind : ∀ statement, kind statement → ¬ statement.Opens)
    {script : Script α τ ρ} (hscript : script.Executes kind) {w : World σ τ}
    {past : List (Config σ α τ ρ)} (h : Reaches db ⟨.run script, {}, [], w⟩ past c) :
    ∀ c' ∈ past, ¬ c'.BeginsOutside := by
  have hnot : ∀ {c : Config σ α τ ρ}, c.Executes kind → ¬ c.BeginsOutside := by
    rintro c hexecutes ⟨depth, operation, next, flag, hcontrol, -, hopens⟩
    have hrun := hexecutes.control
    rw [hcontrol] at hrun
    rcases operation with _ | statement
    · exact hopens
    · exact hkind statement hrun.1 hopens
  have hall : c.Executes kind ∧ ∀ c' ∈ past, ¬ c'.BeginsOutside := by
    induction h with
    | start => exact ⟨⟨hscript, by simp⟩, by simp⟩
    | step _ hstep ih =>
      refine ⟨ih.1.step hstep, fun c' hc' => ?_⟩
      rcases List.mem_cons.mp hc' with rfl | hc'
      · exact hnot ih.1
      · exact ih.2 c' hc'
  exact hall.2

/-! ## Failures -/

/-- A step comes to an error where something was to be committed: in an attempt of a scope,
or in a write of the database. -/
def Fails (db : Database σ α) (c c' : Config σ α τ ρ) : Prop :=
  (∃ trial e, c'.control = .attempted trial (.error e)) ∨
  ∃ operation next e, c.control = .run (.operate operation next) ∧ operation.access = .write ∧
    ((Script.answer db c.here.scope operation).perform c.world).1 = .error e

/-- An attempt that fails has committed nothing. -/
theorem uncommitted_of_attempted (hd : db.dialect = .sqlite) (hstep : c.step db = some c')
    {trial : Trial α τ ρ} {e : Error} (hfailed : c'.control = .attempted trial (.error e)) :
    c.world.Uncommitted c'.world := by
  have hmove := moves_of_step hstep
  obtain ⟨control, here, frames, w⟩ := c
  -- an attempt comes to its result where it cannot be opened, and where it is closed
  cases hmove with
  | @unopened trial _ _ hopen =>
    have hopened := neverCommits_openAttempt (τ := τ) hd trial.opening w
    rw [hopen] at hopened
    exact hopened
  | @close result _ o =>
    have hresult : ((db.closeAttempt o result).perform w).1 = .error e :=
      (Control.attempted.inj hfailed).2
    exact failsUncommitted_closeAttempt hd o result w e hresult
  | _ => cases hfailed

/-- Where a step fails, nothing was committed. -/
theorem uncommitted_of_fails (hd : db.dialect = .sqlite) (hstep : c.step db = some c')
    (hfails : c.Fails db c') : c.world.Uncommitted c'.world := by
  rcases hfails with ⟨trial, e, hfailed⟩ | ⟨operation, next, e, hcontrol, hwrite, hfailed⟩
  · exact uncommitted_of_attempted hd hstep hfailed
  · simp only [Config.step, hcontrol, stepScript] at hstep
    cases hstep
    exact Database.failsUncommitted_answer hd c.here.scope hwrite c.world e hfailed

/-- **Connections at rest.** In every state that a run reaches, whatever has failed on the
way, all connections but those in use are at rest, and so is the one that is taken from the
pool next. The application may run whatever statements it likes within transactions; outside
of them it opens none by itself. As long as it ends no transactions either, nothing is
committed in a step but by a COMMIT that succeeds, or outside of transactions. So nothing is
committed where a transaction cannot be begun, committed or rolled back. -/
theorem connections_atRest (hE : db.engine.Unreliable schema storage) (hd : db.dialect = .sqlite)
    {script : Script α τ ρ} (hscript : script.Executes Statement.KeepsSettings) {w : World σ τ}
    (hw : (storage w.store).Rests []) {past : List (Config σ α τ ρ)}
    (hreaches : Reaches db ⟨.run script, {}, [], w⟩ past c)
    (hpast : ∀ c' ∈ past, ¬ c'.BeginsOutside) :
    (∀ connection, connection ∉ checkedOut c.frames →
      ((storage c.world.store).sessions connection).AtRest) ∧
    (∀ connection ∈ (storage c.world.store).idle, connection ∉ checkedOut c.frames) ∧
    (∀ connection w', (db.acquire).perform c.world = (.ok connection, w') →
      connection ∉ checkedOut c.frames ∧ ((storage w'.store).sessions connection).AtRest) ∧
    (script.Executes Statement.Divides → ∀ c', c.step db = some c' → ¬ c.WorksOutside →
      ((storage c'.world.store).contents = (storage c.world.store).contents ∨
        c.world.Commits c'.world) ∧
      (c.Fails db c' → (storage c'.world.store).contents = (storage c.world.store).contents)) := by
  have hkeeps : Permits False Statement.KeepsSettings := ⟨fun _ h => h, fun h => h.elim⟩
  have hdivides : Permits True Statement.Divides := ⟨fun _ h => h.keepsSettings, fun _ _ h => h⟩
  have hrests := (careful_of_reaches hE hd hkeeps hscript hw hreaches hpast).tended.rests
  refine ⟨hrests.atRest, fun connection hidle hused => ?_, fun connection w' hrun => ?_,
    fun hscript c' hstep hinside => ?_⟩
  · exact (hrests.taken connection hused).2 hidle
  · obtain ⟨hc, -, hrest⟩ := tends_acquire (T := ⟨True, True, 0, []⟩) hE hrests hrun
    exact ⟨hc, hrest⟩
  · have hcareful := careful_of_reaches hE hd hdivides hscript hw hreaches hpast
    have hbegins : ¬ c.BeginsOutside := fun h => hinside h.worksOutside
    have hcontents := (hcareful.passes hE hd hdivides hbegins hstep).contents True.intro hinside
    refine ⟨hcontents, fun hfails => ?_⟩
    rcases hcontents with hsame | hcommits
    · exact hsame
    · exact absurd hcommits (uncommitted_of_fails hd hstep hfails).not_commits

/-- A transaction that the application begins in a scope without one stays open on the
connection that is given back. -/
example :
    let schema : Schema Nat := ⟨fun _ _ n => .ok ⟨n, ⟨0, 0⟩⟩, fun _ _ _ => .ok ⟨[], []⟩, fun _ =>
      .ok ()⟩
    let db : Database (Storage Nat) Empty := .ofEngine (Storage.engine schema) .sqlite .empty
    let script : Script Empty Unit Unit := .scope { propagation := .supports }
      (fun _ => .bypass 0 (.execute .beginDeferred) fun _ => .finish (.ok ()))
      fun _ => .finish (.ok ())
    let s := ((script.run db {}).perform { store := { contents := 0 } }).2.store
    s.idle = [0] ∧ (s.sessions 0).transaction.isSome = true := by
  decide +kernel

/-- A database that counts its writes, over a storage whose statements fail as planned. -/
def failingTally : Database (Faulty Nat) Empty :=
  .ofEngine (Faulty.engine ⟨fun _ _ n => .ok ⟨n + 1, ⟨1, 0⟩⟩, fun _ _ _ => .ok ⟨[], []⟩, fun _ =>
    .ok ()⟩) .sqlite .empty

/-- A write in a transaction that changes a setting of its connection. -/
def writingUncommitted (next : Script Empty Unit Unit) : Script Empty Unit Unit :=
  .scope { propagation := .required, isolation := .readUncommitted }
    (fun _ => .operate (.update { sql := "write" }) fun _ => .finish (.ok ())) fun _ => next

/-- Two such writes, and one without a scope. -/
def writingThrice : Script Empty Unit Unit :=
  writingUncommitted <| writingUncommitted <|
    .operate (.update { sql := "write" }) fun _ => .finish (.ok ())

/-- The first transaction can be neither committed nor rolled back, and the connection of
the second one not cleaned up. -/
def failingWorld : World (Faulty Nat) Unit where
  store :=
    { storage := { contents := 0 }
      faults := [false, false, false, true, true, false, false, false, false, true] }

def afterFailures : List (Config (Faulty Nat) Empty Unit Unit) × Config (Faulty Nat) Empty Unit Unit :=
  advance failingTally 14 ([], ⟨.run writingThrice, {}, [], failingWorld⟩)

/-- The state before the first transaction ends. -/
def beforeEnd : List (Config (Faulty Nat) Empty Unit Unit) × Config (Faulty Nat) Empty Unit Unit :=
  advance failingTally 4 ([], ⟨.run writingThrice, {}, [], failingWorld⟩)

/-- Whether something has come to its end. -/
def isDone (c : Config (Faulty Nat) Empty Unit Unit) : Bool :=
  match c.control with
  | .done _ => true
  | _ => false

/-- Whether an attempt has failed. -/
def hasFailed (c : Config (Faulty Nat) Empty Unit Unit) : Bool :=
  match c.control with
  | .attempted _ (.error _) => true
  | _ => false

theorem connections_atRest_writingThrice :
    (Reaches failingTally ⟨.run writingThrice, {}, [], failingWorld⟩ afterFailures.1
        afterFailures.2 ∧
      (∀ c, (afterFailures.2.world.store.storage.sessions c).AtRest) ∧
      afterFailures.2.world.store.storage.contents = 2 ∧
      afterFailures.2.world.store.storage.idle = [2]) ∧
    ∃ c', beforeEnd.2.step failingTally = some c' ∧ beforeEnd.2.Fails failingTally c' ∧
      c'.world.store.storage.contents = beforeEnd.2.world.store.storage.contents := by
  have hrests : failingWorld.store.storage.Rests [] := .initial 0
  -- nothing is run past the database, so its statements are of every kind
  have hexecutes : ∀ kind, writingThrice.Executes kind := fun _ =>
    ⟨fun _ _ => True.intro, fun _ => ⟨fun _ _ => True.intro, fun _ _ => True.intro⟩⟩
  have hpast : ∀ {past c}, Reaches failingTally ⟨.run writingThrice, {}, [], failingWorld⟩ past c →
      ∀ c' ∈ past, ¬ c'.BeginsOutside :=
    not_beginsOutside_of_reaches (fun _ h => h) (hexecutes _)
  refine ⟨?_, ?_⟩
  · have hreaches : Reaches failingTally ⟨.run writingThrice, {}, [], failingWorld⟩
        afterFailures.1 afterFailures.2 := reaches_advance 14 .start
    have hframes : checkedOut afterFailures.2.frames = [] := by decide +kernel
    have h := connections_atRest (Faulty.unreliable_engine _) rfl (hexecutes _) hrests hreaches
      (hpast hreaches)
    refine ⟨hreaches, fun c => h.1 c ?_, by decide +kernel, by decide +kernel⟩
    rw [hframes]
    exact List.not_mem_nil
  · have hreaches : Reaches failingTally ⟨.run writingThrice, {}, [], failingWorld⟩
        beforeEnd.1 beforeEnd.2 := reaches_advance 4 .start
    have hdone : isDone beforeEnd.2 = true := by decide +kernel
    have hinside : ¬ beforeEnd.2.WorksOutside := by
      rintro (⟨_, _, _, hcontrol, -⟩ | ⟨_, _, _, _, hcontrol, -⟩)
      all_goals
        rw [isDone, hcontrol] at hdone
        cases hdone
    have hnext : (beforeEnd.2.step failingTally).any hasFailed = true := by decide +kernel
    rcases hstep : beforeEnd.2.step failingTally with _ | c'
    all_goals rw [hstep] at hnext
    · cases hnext
    have hfails : beforeEnd.2.Fails failingTally c' := by
      rw [Option.any, hasFailed] at hnext
      split at hnext
      · rename_i trial e hcontrol
        exact .inl ⟨trial, e, hcontrol⟩
      · cases hnext
    have h := connections_atRest (Faulty.unreliable_engine _) rfl (hexecutes _) hrests hreaches
      (hpast hreaches)
    exact ⟨c', rfl, hfails, (h.2.2.2 (hexecutes _) c' hstep hinside).2 hfails⟩

end Config

end RowMapping
