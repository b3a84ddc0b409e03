/-
A machine that runs scripts step by step.

Running a script is a recursion through its scopes. The machine keeps what is open in
a stack of frames instead, so the states between the steps can be spoken about: which
scopes are around, what is suspended, and what has happened before. It does what
running does, uniformly in the frames below. Scripts for several handles of the
database are left out.
-/
import RowMapping.Proofs.Transaction.Attempts

set_option autoImplicit false

namespace RowMapping

variable {σ τ α ρ : Type}

/-! ## States -/

/-- The attempts of a scope: where it is run, what an attempt opens, how often it may
still be repeated, the number of the next one, and what comes afterwards. -/
structure Trial (α τ ρ : Type) where
  here : Surroundings
  opening : Opening
  suspended : List Transaction
  work : Nat → Script α τ ρ
  retries : Nat
  number : Nat
  next : Except Error ρ → Script α τ ρ

/-- What goes on when something has come to its end. -/
inductive Frame (α τ ρ : Type) where
  /-- A scope that has opened nothing. -/
  | plain (here : Surroundings) (next : Except Error ρ → Script α τ ρ)
  | attempt (trial : Trial α τ ρ) (opened : Opened)
  /-- The connection of a transaction is checked out. -/
  | held (here : Surroundings) (t : Transaction) (next : Except Error ρ → Script α τ ρ)
  /-- A connection of the pool is checked out. -/
  | borrowed (here : Surroundings) (c : ConnectionId) (next : Except Error ρ → Script α τ ρ)

/-- What the machine is about to do. -/
inductive Control (α τ ρ : Type) where
  | run (script : Script α τ ρ)
  | attempt (trial : Trial α τ ρ)
  | attempted (trial : Trial α τ ρ) (result : Except Error ρ)
  | done (result : Except Error ρ)

structure Config (σ α τ ρ : Type) where
  control : Control α τ ρ
  here : Surroundings
  frames : List (Frame α τ ρ)
  world : World σ τ

/-! ## Steps -/

/-- The next attempt, if there is to be one. -/
def Trial.again? (trial : Trial α τ ρ) : Except Error ρ → Option (Trial α τ ρ)
  | .ok _ => none
  | .error e =>
    match trial.retries with
    | 0 => none
    | retries + 1 =>
      if e.isSerializationFailure then some { trial with retries, number := trial.number + 1 }
      else none

/-- The world when the work of a scope starts. -/
def World.entered (w : World σ τ) (number : Nat) (transactional : Bool) : World σ τ :=
  { w with trace := w.trace ++ [.entered number transactional] }

namespace Config

/-- Go on with a script. -/
def goOn (c : Config σ α τ ρ) (script : Script α τ ρ) (world : World σ τ) : Config σ α τ ρ :=
  { c with control := .run script, world }

/-- Go on by what an action comes to. -/
def after {κ : Type} (c : Config σ α τ ρ) (a : Action σ τ κ)
    (next : Except Error κ → Script α τ ρ) : Config σ α τ ρ :=
  c.goOn (next (a.perform c.world).1) (a.perform c.world).2

/-- Start the work of a scope. -/
def enter (c : Config σ α τ ρ) (inner : Scope) (ctx : Context) (frame : Frame α τ ρ)
    (work : Nat → Script α τ ρ) (number : Nat) (w : World σ τ) : Config σ α τ ρ where
  control := .run (work number)
  here := ⟨some inner, ctx :: c.here.contexts⟩
  frames := frame :: c.frames
  world := w.entered number ctx.isTransactional

/-- Run a scope. -/
def stepScope (db : Database σ α) (c : Config σ α τ ρ) (settings : TransactionSettings)
    (work : Nat → Script α τ ρ) (next : Except Error ρ → Script α τ ρ) : Config σ α τ ρ :=
  let settings := c.world.settings.normalize settings
  match Scope.entry c.here.scope settings with
  | .refuse e => c.goOn (next (.error e)) c.world
  | .join t flag suspended =>
    c.enter ⟨.transaction t flag, suspended⟩ ⟨some t, flag⟩ (.plain c.here next) work 1 c.world
  | .free suspended =>
    c.enter ⟨.nonTransactional, suspended⟩ ⟨none, c.world.nextFlag⟩ (.plain c.here next) work 1
      { c.world with nextFlag := c.world.nextFlag + 1 }
  | .attempts opening suspended =>
    match (db.permit suspended opening).perform c.world with
    | (.error e, w) => c.goOn (next (.error e)) w
    | (.ok _, w) =>
      { c with
        control := .attempt ⟨c.here, opening, suspended, work, settings.retries, 1, next⟩
        world := w }

/-- Check the connection of a scope out. -/
def stepHold (db : Database σ α) (c : Config σ α τ ρ) (depth : Nat) (meanwhile : Script α τ ρ)
    (next : Except Error ρ → Script α τ ρ) : Config σ α τ ρ :=
  match c.here.contexts[depth]? with
  | none =>
    { c with control := .run meanwhile, frames := .plain c.here next :: c.frames }
  | some ⟨some t, _⟩ =>
    { c with
      control := .run meanwhile
      frames := .held c.here t next :: c.frames
      world := c.world.modifyTransaction t fun s => { s with held := true } }
  | some ⟨none, _⟩ =>
    match db.acquire.perform c.world with
    | (.error e, w) => c.goOn (next (.error e)) w
    | (.ok connection, w) =>
      { c with
        control := .run meanwhile
        frames := .borrowed c.here connection next :: c.frames
        world := w }

/-- Run the first step of a script. -/
def stepScript (db : Database σ α) (c : Config σ α τ ρ) : Script α τ ρ → Option (Config σ α τ ρ)
  | .finish result => some { c with control := .done result }
  | .note entry next =>
    some (c.goOn next { c.world with trace := c.world.trace ++ [.noted entry] })
  | .operate operation next => some (c.after (Script.answer db c.here.scope operation) next)
  | .bypass depth operation next =>
    some (c.after (Script.answerPast db c.here depth operation) next)
  | .setRollbackOnly depth next =>
    some (c.goOn next ((Script.mark c.here depth).perform c.world).2)
  | .observe next => some (c.goOn (next (Script.observation c.here c.world)) c.world)
  | .configure change next =>
    some (c.goOn next { c.world with settings := change c.world.settings })
  | .scope settings work next => some (c.stepScope db settings work next)
  | .hold depth meanwhile next => some (c.stepHold db depth meanwhile next)
  | .elsewhere .. => none

/-- Go on when something has come to its end. -/
def stepDone (db : Database σ α) (c : Config σ α τ ρ) (result : Except Error ρ) :
    Frame α τ ρ → Config σ α τ ρ
  | .plain here next => { c with control := .run (next result), here }
  | .attempt trial opened =>
    let (result, world) := (db.closeAttempt opened result).perform c.world
    { c with control := .attempted trial result, here := trial.here, world }
  | .held here t next =>
    { c with
      control := .run (next result)
      here
      world := c.world.modifyTransaction t fun s => { s with held := false } }
  | .borrowed here connection next =>
    { c with
      control := .run (next result)
      here
      world := ((db.release connection false).perform c.world).2 }

/-- One step. Nothing follows the end, nor work by another handle. -/
def step (db : Database σ α) (c : Config σ α τ ρ) : Option (Config σ α τ ρ) :=
  match c.control with
  | .run script => c.stepScript db script
  | .attempt trial =>
    match (db.openAttempt trial.opening).perform c.world with
    | (.error e, w) => some { c with control := .attempted trial (.error e), world := w }
    | (.ok o, w) =>
      some (c.enter (o.scope trial.suspended) o.context (.attempt trial o) trial.work
        trial.number w)
  | .attempted trial result =>
    match trial.again? result with
    | some trial => some { c with control := .attempt trial }
    | none => some (c.goOn (trial.next result) c.world)
  | .done result =>
    match c.frames with
    | [] => none
    | frame :: frames => some ({ c with frames }.stepDone db result frame)

end Config

/-! ## Moves -/

namespace Config

/-- The moves of the machine, by what it is about to do. Each tells what was found, and where
the machine is then. -/
inductive Moves (db : Database σ α) (here : Surroundings) (frames : List (Frame α τ ρ))
    (w : World σ τ) : Control α τ ρ → Config σ α τ ρ → Prop
  | finish (result : Except Error ρ) :
      Moves db here frames w (.run (.finish result)) ⟨.done result, here, frames, w⟩
  | note (entry : τ) (next : Script α τ ρ) :
      Moves db here frames w (.run (.note entry next))
        ⟨.run next, here, frames, { w with trace := w.trace ++ [.noted entry] }⟩
  | operate (operation : Operation α) (next : Except Error Answer → Script α τ ρ) :
      Moves db here frames w (.run (.operate operation next))
        ⟨.run (next ((Script.answer db here.scope operation).perform w).1), here, frames,
          ((Script.answer db here.scope operation).perform w).2⟩
  | bypass (depth : Nat) (operation : ConnectionOperation)
      (next : Except Error Answer → Script α τ ρ) :
      Moves db here frames w (.run (.bypass depth operation next))
        ⟨.run (next ((Script.answerPast db here depth operation).perform w).1), here, frames,
          ((Script.answerPast db here depth operation).perform w).2⟩
  | mark (depth : Nat) (next : Script α τ ρ) :
      Moves db here frames w (.run (.setRollbackOnly depth next))
        ⟨.run next, here, frames, ((Script.mark here depth).perform w).2⟩
  | observe (next : Observation → Script α τ ρ) :
      Moves db here frames w (.run (.observe next))
        ⟨.run (next (Script.observation here w)), here, frames, w⟩
  | configure (change : DatabaseSettings → DatabaseSettings) (next : Script α τ ρ) :
      Moves db here frames w (.run (.configure change next))
        ⟨.run next, here, frames, { w with settings := change w.settings }⟩
  | refuse {settings : TransactionSettings} {work : Nat → Script α τ ρ}
      {next : Except Error ρ → Script α τ ρ} {e : Error}
      (hentry : Scope.entry here.scope (w.settings.normalize settings) = .refuse e) :
      Moves db here frames w (.run (.scope settings work next))
        ⟨.run (next (.error e)), here, frames, w⟩
  | join {settings : TransactionSettings} {work : Nat → Script α τ ρ}
      {next : Except Error ρ → Script α τ ρ} {t : Transaction} {flag : FlagId}
      {suspended : List Transaction}
      (hentry : Scope.entry here.scope (w.settings.normalize settings) = .join t flag suspended) :
      Moves db here frames w (.run (.scope settings work next))
        ⟨.run (work 1), ⟨some ⟨.transaction t flag, suspended⟩, ⟨some t, flag⟩ :: here.contexts⟩,
          .plain here next :: frames, w.entered 1 true⟩
  | free {settings : TransactionSettings} {work : Nat → Script α τ ρ}
      {next : Except Error ρ → Script α τ ρ} {suspended : List Transaction}
      (hentry : Scope.entry here.scope (w.settings.normalize settings) = .free suspended) :
      Moves db here frames w (.run (.scope settings work next))
        ⟨.run (work 1), ⟨some ⟨.nonTransactional, suspended⟩, ⟨none, w.nextFlag⟩ :: here.contexts⟩,
          .plain here next :: frames,
          World.entered { w with nextFlag := w.nextFlag + 1 } 1 false⟩
  /-- A suspended writer forbids that a transaction begins which locks. -/
  | forbid {settings : TransactionSettings} {work : Nat → Script α τ ρ}
      {next : Except Error ρ → Script α τ ρ} {opening : Opening} {suspended : List Transaction}
      {e : Error} {w' : World σ τ}
      (hentry : Scope.entry here.scope (w.settings.normalize settings)
        = .attempts opening suspended)
      (hpermit : (db.permit suspended opening).perform w = (.error e, w')) :
      Moves db here frames w (.run (.scope settings work next))
        ⟨.run (next (.error e)), here, frames, w'⟩
  | permit {settings : TransactionSettings} {work : Nat → Script α τ ρ}
      {next : Except Error ρ → Script α τ ρ} {opening : Opening} {suspended : List Transaction}
      {w' : World σ τ}
      (hentry : Scope.entry here.scope (w.settings.normalize settings)
        = .attempts opening suspended)
      (hpermit : (db.permit suspended opening).perform w = (.ok (), w')) :
      Moves db here frames w (.run (.scope settings work next))
        ⟨.attempt ⟨here, opening, suspended, work, (w.settings.normalize settings).retries, 1,
          next⟩, here, frames, w'⟩
  /-- There is no scope whose connection could be held. -/
  | stay {depth : Nat} {meanwhile : Script α τ ρ} {next : Except Error ρ → Script α τ ρ}
      (hctx : here.contexts[depth]? = none) :
      Moves db here frames w (.run (.hold depth meanwhile next))
        ⟨.run meanwhile, here, .plain here next :: frames, w⟩
  | hold {depth : Nat} {meanwhile : Script α τ ρ} {next : Except Error ρ → Script α τ ρ}
      {t : Transaction} {flag : FlagId} (hctx : here.contexts[depth]? = some ⟨some t, flag⟩) :
      Moves db here frames w (.run (.hold depth meanwhile next))
        ⟨.run meanwhile, here, .held here t next :: frames,
          w.modifyTransaction t fun s => { s with held := true }⟩
  | exhaust {depth : Nat} {meanwhile : Script α τ ρ} {next : Except Error ρ → Script α τ ρ}
      {flag : FlagId} {e : Error} {w' : World σ τ}
      (hctx : here.contexts[depth]? = some ⟨none, flag⟩)
      (hacquire : (db.acquire).perform w = (.error e, w')) :
      Moves db here frames w (.run (.hold depth meanwhile next))
        ⟨.run (next (.error e)), here, frames, w'⟩
  | borrow {depth : Nat} {meanwhile : Script α τ ρ} {next : Except Error ρ → Script α τ ρ}
      {flag : FlagId} {connection : ConnectionId} {w' : World σ τ}
      (hctx : here.contexts[depth]? = some ⟨none, flag⟩)
      (hacquire : (db.acquire).perform w = (.ok connection, w')) :
      Moves db here frames w (.run (.hold depth meanwhile next))
        ⟨.run meanwhile, here, .borrowed here connection next :: frames, w'⟩
  | unopened {trial : Trial α τ ρ} {e : Error} {w' : World σ τ}
      (hopen : (db.openAttempt trial.opening).perform w = (.error e, w')) :
      Moves db here frames w (.attempt trial) ⟨.attempted trial (.error e), here, frames, w'⟩
  | opened {trial : Trial α τ ρ} {o : Opened} {w' : World σ τ}
      (hopen : (db.openAttempt trial.opening).perform w = (.ok o, w')) :
      Moves db here frames w (.attempt trial)
        ⟨.run (trial.work trial.number),
          ⟨some (o.scope trial.suspended), o.context :: here.contexts⟩, .attempt trial o :: frames,
          w'.entered trial.number o.context.isTransactional⟩
  | again {trial : Trial α τ ρ} {e : Error} {retries : Nat}
      (hretries : trial.retries = retries + 1) (hfailure : e.isSerializationFailure = true) :
      Moves db here frames w (.attempted trial (.error e))
        ⟨.attempt { trial with retries, number := trial.number + 1 }, here, frames, w⟩
  | conclude {trial : Trial α τ ρ} {result : Except Error ρ} (hlast : trial.again? result = none) :
      Moves db here frames w (.attempted trial result)
        ⟨.run (trial.next result), here, frames, w⟩
  | leave {result : Except Error ρ} {outer : Surroundings} {next : Except Error ρ → Script α τ ρ}
      {rest : List (Frame α τ ρ)} (hframes : frames = .plain outer next :: rest) :
      Moves db here frames w (.done result) ⟨.run (next result), outer, rest, w⟩
  | close {result : Except Error ρ} {trial : Trial α τ ρ} {o : Opened}
      {rest : List (Frame α τ ρ)} (hframes : frames = .attempt trial o :: rest) :
      Moves db here frames w (.done result)
        ⟨.attempted trial ((db.closeAttempt o result).perform w).1, trial.here, rest,
          ((db.closeAttempt o result).perform w).2⟩
  | letGo {result : Except Error ρ} {outer : Surroundings} {t : Transaction}
      {next : Except Error ρ → Script α τ ρ} {rest : List (Frame α τ ρ)}
      (hframes : frames = .held outer t next :: rest) :
      Moves db here frames w (.done result)
        ⟨.run (next result), outer, rest, w.modifyTransaction t fun s => { s with held := false }⟩
  | giveBack {result : Except Error ρ} {outer : Surroundings} {connection : ConnectionId}
      {next : Except Error ρ → Script α τ ρ} {rest : List (Frame α τ ρ)}
      (hframes : frames = .borrowed outer connection next :: rest) :
      Moves db here frames w (.done result)
        ⟨.run (next result), outer, rest, ((db.release connection false).perform w).2⟩

variable {db : Database σ α} {here : Surroundings} {frames : List (Frame α τ ρ)} {w : World σ τ}
  {c c' : Config σ α τ ρ} {next : Except Error ρ → Script α τ ρ}

theorem moves_stepScope (control : Control α τ ρ) (settings : TransactionSettings)
    (work : Nat → Script α τ ρ) :
    Moves db here frames w (.run (.scope settings work next))
      (stepScope db ⟨control, here, frames, w⟩ settings work next) := by
  unfold stepScope
  dsimp only
  rcases hentry : Scope.entry here.scope (w.settings.normalize settings)
    with e | ⟨t, flag, suspended⟩ | suspended | ⟨opening, suspended⟩
  · exact .refuse hentry
  · exact .join hentry
  · exact .free hentry
  · dsimp only
    rcases hpermit : (db.permit suspended opening).perform w with ⟨e | _, w'⟩
    · exact .forbid hentry hpermit
    · exact .permit hentry hpermit

theorem moves_stepHold (control : Control α τ ρ) (depth : Nat) (meanwhile : Script α τ ρ) :
    Moves db here frames w (.run (.hold depth meanwhile next))
      (stepHold db ⟨control, here, frames, w⟩ depth meanwhile next) := by
  unfold stepHold
  dsimp only
  rcases hctx : here.contexts[depth]? with _ | ⟨_ | t, flag⟩
  · exact .stay hctx
  · dsimp only
    rcases hacquire : (db.acquire).perform w with ⟨e | connection, w'⟩
    · exact .exhaust hctx hacquire
    · exact .borrow hctx hacquire
  · exact .hold hctx

/-- Every step is one of these moves. -/
theorem moves_of_step (hstep : c.step db = some c') :
    Moves db c.here c.frames c.world c.control c' := by
  obtain ⟨control, here, frames, w⟩ := c
  cases control with
  | run script =>
    cases script with
    | finish result => cases hstep; exact .finish result
    | note entry next => cases hstep; exact .note entry next
    | operate operation next => cases hstep; exact .operate operation next
    | bypass depth operation next => cases hstep; exact .bypass depth operation next
    | setRollbackOnly depth next => cases hstep; exact .mark depth next
    | observe next => cases hstep; exact .observe next
    | configure change next => cases hstep; exact .configure change next
    | scope settings work next => cases hstep; exact moves_stepScope _ settings work
    | hold depth meanwhile next => cases hstep; exact moves_stepHold _ depth meanwhile
    | «elsewhere» dialect work next => cases hstep
  | attempt trial =>
    simp only [step] at hstep
    rcases hopen : (db.openAttempt trial.opening).perform w with ⟨e | o, w'⟩
    all_goals
      rw [hopen] at hstep
      cases hstep
    · exact .unopened hopen
    · exact .opened hopen
  | attempted trial result =>
    simp only [step] at hstep
    rcases hagain : trial.again? result with _ | again
    all_goals
      rw [hagain] at hstep
      cases hstep
    · exact .conclude hagain
    · -- another attempt is made while retries are left, and after a failure to serialize only
      unfold Trial.again? at hagain
      split at hagain
      · cases hagain
      · split at hagain
        · cases hagain
        · rename_i hretries
          split at hagain
          · rename_i hfailure
            cases hagain
            exact .again hretries hfailure
          · cases hagain
  | done result =>
    rcases frames with _ | ⟨⟨outer, next⟩ | ⟨trial, o⟩ | ⟨outer, t, next⟩ | ⟨outer, connection, next⟩,
      rest⟩
    all_goals cases hstep
    · exact .leave rfl
    · exact .close rfl
    · exact .letGo rfl
    · exact .giveBack rfl

/-- The moves are steps. -/
theorem Moves.step_eq {control : Control α τ ρ} (h : Moves db here frames w control c') :
    (⟨control, here, frames, w⟩ : Config σ α τ ρ).step db = some c' := by
  cases h with
  | refuse hentry => simp only [step, stepScript, stepScope, hentry, goOn]
  | join hentry => simp only [step, stepScript, stepScope, hentry]; rfl
  | free hentry => simp only [step, stepScript, stepScope, hentry]; rfl
  | forbid hentry hpermit => simp only [step, stepScript, stepScope, hentry, hpermit, goOn]
  | permit hentry hpermit => simp only [step, stepScript, stepScope, hentry, hpermit]
  | stay hctx => simp only [step, stepScript, stepHold, hctx]
  | hold hctx => simp only [step, stepScript, stepHold, hctx]
  | exhaust hctx hacquire => simp only [step, stepScript, stepHold, hctx, hacquire, goOn]
  | borrow hctx hacquire => simp only [step, stepScript, stepHold, hctx, hacquire]
  | unopened hopen => simp only [step, hopen]
  | opened hopen => simp only [step, hopen, enter]
  | again hretries hfailure => simp [step, Trial.again?, hretries, hfailure]
  | conclude hlast => simp only [step, hlast, goOn]
  | leave hframes => rw [hframes]; rfl
  | close hframes => rw [hframes]; rfl
  | letGo hframes => rw [hframes]; rfl
  | giveBack hframes => rw [hframes]; rfl
  | _ => rfl

end Config

/-- A state is reached from another one by way of those listed, the last one first. -/
inductive Reaches (db : Database σ α) (start : Config σ α τ ρ) :
    List (Config σ α τ ρ) → Config σ α τ ρ → Prop where
  | start : Reaches db start [] start
  | step {past : List (Config σ α τ ρ)} {c c' : Config σ α τ ρ} (h : Reaches db start past c)
      (hstep : c.step db = some c') : Reaches db start (c :: past) c'

namespace Config

/-- Go some steps on, if there are so many, and remember the states on the way. -/
def advance (db : Database σ α) :
    Nat → List (Config σ α τ ρ) × Config σ α τ ρ → List (Config σ α τ ρ) × Config σ α τ ρ
  | 0, p => p
  | steps + 1, (past, c) =>
    match c.step db with
    | some c' => advance db steps (c :: past, c')
    | none => (past, c)

theorem reaches_advance {db : Database σ α} {start : Config σ α τ ρ} (steps : Nat)
    {p : List (Config σ α τ ρ) × Config σ α τ ρ} (h : Reaches db start p.1 p.2) :
    Reaches db start (advance db steps p).1 (advance db steps p).2 := by
  induction steps generalizing p with
  | zero => exact h
  | succ steps ih =>
    obtain ⟨past, c⟩ := p
    rw [advance]
    rcases hstep : c.step db with _ | c'
    · exact h
    · exact ih (.step h hstep)

end Config

/-! ## The machine does what running does -/

/-- A script that uses one handle of the database only. -/
def Script.Local : Script α τ ρ → Prop
  | .finish _ => True
  | .note _ next => next.Local
  | .operate _ next => ∀ r, (next r).Local
  | .bypass _ _ next => ∀ r, (next r).Local
  | .setRollbackOnly _ next => next.Local
  | .observe next => ∀ seen, (next seen).Local
  | .configure _ next => next.Local
  | .scope _ work next => (∀ n, (work n).Local) ∧ ∀ r, (next r).Local
  | .hold _ meanwhile next => meanwhile.Local ∧ ∀ r, (next r).Local
  | .elsewhere .. => False

/-- The machine comes from one state to another one. -/
def Leads (db : Database σ α) (c c' : Config σ α τ ρ) : Prop := ∃ past, Reaches db c past c'

namespace Leads

variable {db : Database σ α} {c c₁ c₂ c' : Config σ α τ ρ}

theorem refl (db : Database σ α) (c : Config σ α τ ρ) : Leads db c c := ⟨[], .start⟩

theorem head (hstep : c.step db = some c₁) (h : Leads db c₁ c') : Leads db c c' := by
  obtain ⟨past, h⟩ := h
  induction h with
  | start => exact ⟨[c], .step .start hstep⟩
  | step _ hlast ih =>
    obtain ⟨past, ih⟩ := ih
    exact ⟨_, .step ih hlast⟩

theorem move {here : Surroundings} {frames : List (Frame α τ ρ)} {w : World σ τ}
    {control : Control α τ ρ} (hmove : Config.Moves db here frames w control c₁)
    (h : Leads db c₁ c') : Leads db ⟨control, here, frames, w⟩ c' :=
  .head hmove.step_eq h

theorem trans (h₁ : Leads db c c₁) (h₂ : Leads db c₁ c₂) : Leads db c c₂ := by
  obtain ⟨past, h₂⟩ := h₂
  induction h₂ with
  | start => exact h₁
  | step _ hlast ih =>
    obtain ⟨past, ih⟩ := ih
    exact ⟨_, .step ih hlast⟩

end Leads

namespace Config

open RowMapping.Action RowMapping.Manager

variable {db : Database σ α} {here : Surroundings} {frames : List (Frame α τ ρ)}
  {w : World σ τ}

/-- The machine runs a script to its end, whatever is open below. -/
def Runs (db : Database σ α) (script : Script α τ ρ) : Prop :=
  ∀ (here : Surroundings) (frames : List (Frame α τ ρ)) (w : World σ τ),
    Leads db ⟨.run script, here, frames, w⟩
      ⟨.done ((script.run db here).perform w).1, here, frames, ((script.run db here).perform w).2⟩

/-- From the start of the work of a scope to its end. -/
theorem Runs.work {work : Nat → Script α τ ρ} (hwork : ∀ n, Runs (τ := τ) db (work n))
    (inner : Scope) (ctx : Context) (number : Nat) (contexts : List Context)
    (frames : List (Frame α τ ρ)) (w : World σ τ) :
    Leads db ⟨.run (work number), ⟨some inner, ctx :: contexts⟩, frames,
        w.entered number ctx.isTransactional⟩
      ⟨.done ((Script.scopeWork work db contexts inner ctx number).perform w).1,
        ⟨some inner, ctx :: contexts⟩, frames,
        ((Script.scopeWork work db contexts inner ctx number).perform w).2⟩ := by
  rw [Script.scopeWork, perform_record_bind]
  exact hwork number _ _ _

/-- One attempt, from its start to its result. -/
theorem leads_attempt (trial : Trial α τ ρ) (hwork : ∀ n, Runs (τ := τ) db (trial.work n))
    (frames : List (Frame α τ ρ)) (w : World σ τ) {r : Except Error ρ} {w' : World σ τ}
    (hr : (db.tryOnce trial.opening trial.suspended
      (Script.scopeWork trial.work db trial.here.contexts) trial.number).perform w = (r, w')) :
    Leads db ⟨.attempt trial, trial.here, frames, w⟩
      ⟨.attempted trial r, trial.here, frames, w'⟩ := by
  rw [perform_tryOnce] at hr
  -- where nothing can be opened the work is never entered
  rcases hopen : (db.openAttempt trial.opening).perform w with ⟨e | o, w₁⟩
  · rw [hopen] at hr
    obtain ⟨rfl, rfl⟩ := Prod.mk.inj hr
    exact .move (.unopened hopen) (.refl db _)
  · rw [hopen] at hr
    refine .move (.opened hopen) ((Runs.work hwork _ _ _ _ _ _).trans (.head ?_ (.refl db _)))
    dsimp only at hr
    simp only [step, stepDone, hr]

/-- The attempts of a scope, from the first one to what comes afterwards. -/
theorem leads_trial (trial : Trial α τ ρ) (hwork : ∀ n, Runs (τ := τ) db (trial.work n))
    (frames : List (Frame α τ ρ)) (w : World σ τ) :
    Leads db ⟨.attempt trial, trial.here, frames, w⟩
      ⟨.run (trial.next ((retrying (db.tryOnce trial.opening trial.suspended
          (Script.scopeWork trial.work db trial.here.contexts)) trial.retries trial.number).perform
            w).1),
        trial.here, frames,
        ((retrying (db.tryOnce trial.opening trial.suspended
          (Script.scopeWork trial.work db trial.here.contexts)) trial.retries trial.number).perform
            w).2⟩ := by
  obtain ⟨here, opening, suspended, work, retries, number, next⟩ := trial
  -- the world and the number of the attempt change from one attempt to the next, the rest of
  -- the trial does not
  induction retries generalizing number w with
  | zero =>
    rw [retrying]
    rcases honce : (db.tryOnce opening suspended
      (Script.scopeWork work db here.contexts) number).perform w with ⟨e | x, w'⟩ <;>
    · exact (leads_attempt _ hwork frames w honce).trans (.move (.conclude rfl) (.refl db _))
  | succ retries ih =>
    rw [perform_retrying_succ]
    rcases honce : (db.tryOnce opening suspended
      (Script.scopeWork work db here.contexts) number).perform w with ⟨e | x, w'⟩
    · refine (leads_attempt _ hwork frames w honce).trans ?_
      dsimp only
      -- only a failure to serialize is worth another attempt
      rcases hretry : e.isSerializationFailure with _ | _
      · exact .move (.conclude (by simp [Trial.again?, hretry])) (.refl db _)
      · exact .move (.again rfl hretry) (ih w' (number + 1) hwork)
    · exact (leads_attempt _ hwork frames w honce).trans (.move (.conclude rfl) (.refl db _))

/-- The machine does what running does. -/
theorem runs (db : Database σ α) (script : Script α τ ρ) (hlocal : script.Local) :
    Runs db script := by
  -- the frames below and the world are arbitrary throughout, so the hypotheses serve for what
  -- is run inside of a scope as well as for what follows it
  induction script with
  | finish result => exact fun here frames w => .move (.finish result) (.refl db _)
  | note entry next ih => exact fun here frames w => .move (.note entry next) (ih hlocal here frames _)
  | operate operation next ih =>
    intro here frames w
    rw [Script.run, perform_outcome_bind]
    exact .move (.operate operation next) (ih _ (hlocal _) here frames _)
  | bypass depth operation next ih =>
    intro here frames w
    rw [Script.run, perform_outcome_bind]
    exact .move (.bypass depth operation next) (ih _ (hlocal _) here frames _)
  | setRollbackOnly depth next ih =>
    intro here frames w
    have hmark : ((Script.mark here depth).perform w).1 = .ok () := by
      rw [Script.mark]
      split <;> rfl
    have hrun : (Script.mark here depth >>= fun _ => next.run db here).perform w
        = (next.run db here).perform ((Script.mark here depth).perform w).2 :=
      perform_bind_ok (Prod.ext hmark rfl) _
    rw [Script.run, hrun]
    exact .move (.mark depth next) (ih hlocal here frames _)
  | observe next ih =>
    intro here frames w
    rw [Script.run, perform_look_bind]
    exact .move (.observe next) (ih _ (hlocal _) here frames _)
  | configure change next ih =>
    intro here frames w
    rw [Script.run, perform_change_bind]
    exact .move (.configure change next) (ih hlocal here frames _)
  | scope settings work next ihWork ih =>
    intro here frames w
    have hwork := fun n => ihWork n (hlocal.1 n)
    have hnext := fun r w' => ih r (hlocal.2 r) here frames w'
    rw [Script.perform_run_scope, Script.perform_transaction, withTransaction_eq]
    refine Leads.trans ?_ (hnext _ _)
    rcases hentry : Scope.entry here.scope (w.settings.normalize settings)
      with e | ⟨t, flag, suspended⟩ | suspended | ⟨opening, suspended⟩
    · exact .move (.refuse hentry) (.refl db _)
    · exact .move (.join hentry)
        ((Runs.work hwork _ _ 1 here.contexts _ w).trans (.move (.leave rfl) (.refl db _)))
    · rw [runEntry, runWithout, perform_newFlag_bind]
      exact .move (.free hentry)
        ((Runs.work hwork _ _ 1 here.contexts _ _).trans (.move (.leave rfl) (.refl db _)))
    · rw [runEntry, perform_bind]
      rcases hpermit : (db.permit suspended opening).perform w with ⟨e | _, w₁⟩
      · exact .move (.forbid hentry hpermit) (.refl db _)
      · exact .move (.permit hentry hpermit)
          (leads_trial ⟨here, opening, suspended, work, _, 1, next⟩ hwork frames w₁)
  | hold depth meanwhile next ihMeanwhile ih =>
    intro here frames w
    have hnext := fun r w' => ih r (hlocal.2 r) here frames w'
    rw [Script.run, perform_outcome_bind]
    refine Leads.trans ?_ (hnext _ _)
    rw [Script.holding]
    rcases hctx : here.contexts[depth]? with _ | ⟨_ | t, flag⟩
    · exact .move (.stay hctx)
        ((ihMeanwhile hlocal.1 here _ w).trans (.move (.leave rfl) (.refl db _)))
    · simp only [holding, useConnection]
      rw [perform_runAlone]
      rcases hacquire : (db.acquire).perform w with ⟨e | connection, w₁⟩
      · exact .move (.exhaust hctx hacquire) (.refl db _)
      · exact .move (.borrow hctx hacquire)
          ((ihMeanwhile hlocal.1 here _ w₁).trans (.move (.giveBack rfl) (.refl db _)))
    · simp only [holding]
      rw [perform_change_bind, perform_outcome_bind, perform_change_bind]
      exact .move (.hold hctx)
        ((ihMeanwhile hlocal.1 here _ _).trans (.move (.letGo rfl) (.refl db _)))
  | elsewhere dialect work next => exact absurd hlocal fun h => h

end Config

end RowMapping
