/-
The points that a program comes to.

A program is run as a whole, and its scopes are run somewhere inside of it: in the work of
other scopes, at any of their attempts, while connections are checked out, or by another
handle of the database. A point is a rest of the program together with where it runs and
with the world there. From one point the program goes on to the next one past a step, or
into it. What a program keeps in order it keeps in order at every point that it comes to.
-/
import RowMapping.Proofs.Transaction.AttemptSequence
import RowMapping.Proofs.Transaction.WatchedScripts

set_option autoImplicit false

namespace RowMapping

variable {σ δ τ α ρ κ : Type} {storage : σ → Storage δ} {schema : Schema δ}

/-! ## From point to point -/

/-- What is left of a program, where it runs, and the world there. -/
structure Point (σ α τ ρ : Type) where
  db : Database σ α
  script : Script α τ ρ
  here : Surroundings
  world : World σ τ

namespace Point

/-- Behind an action, whose result says how the program goes on. -/
def behind (p : Point σ α τ ρ) (a : Action σ τ κ) (next : Except Error κ → Script α τ ρ) :
    Point σ α τ ρ :=
  { p with script := next (a.perform p.world).1, world := (a.perform p.world).2 }

/-- In the work of a scope. -/
def inside (p : Point σ α τ ρ) (inner : Scope) (ctx : Context) (work : Nat → Script α τ ρ)
    (number : Nat) (w : World σ τ) : Point σ α τ ρ where
  db := p.db
  script := work number
  here := ⟨some inner, ctx :: p.here.contexts⟩
  world := w.entered number ctx.isTransactional

/-- The work of a scope there. -/
def work (p : Point σ α τ ρ) (work : Nat → Script α τ ρ) : Manager.ScopedWork σ τ ρ :=
  Script.scopeWork work p.db p.here.contexts

/-- By another handle of the database, which sees no scope. -/
def «elsewhere» (p : Point σ α τ ρ) (dialect : Dialect α) (script : Script α τ ρ) :
    Point σ α τ ρ where
  db := p.db.withDialect dialect
  script := script
  here := { p.here with scope := none }
  world := p.world

/-- The points next to one another, past a step or into it. -/
inductive Next (p : Point σ α τ ρ) : Point σ α τ ρ → Prop where
  | note {entry : τ} {next : Script α τ ρ} (h : p.script = .note entry next) :
    Next p (p.behind (Action.record (.noted entry)) fun _ => next)
  | operate {operation : Operation α} {next : Except Error Answer → Script α τ ρ}
      (h : p.script = .operate operation next) :
    Next p (p.behind (Script.answer p.db p.here.scope operation) next)
  | bypass {depth : Nat} {operation : ConnectionOperation}
      {next : Except Error Answer → Script α τ ρ} (h : p.script = .bypass depth operation next) :
    Next p (p.behind (Script.answerPast p.db p.here depth operation) next)
  | setRollbackOnly {depth : Nat} {next : Script α τ ρ}
      (h : p.script = .setRollbackOnly depth next) :
    Next p (p.behind (Script.mark p.here depth) fun _ => next)
  | observe {next : Observation → Script α τ ρ} (h : p.script = .observe next) :
    Next p { p with script := next (Script.observation p.here p.world) }
  | configure {change : DatabaseSettings → DatabaseSettings} {next : Script α τ ρ}
      (h : p.script = .configure change next) :
    Next p (p.behind (Action.change fun w => { w with settings := change w.settings })
      fun _ => next)
  | scope {settings : TransactionSettings} {work : Nat → Script α τ ρ}
      {next : Except Error ρ → Script α τ ρ} (h : p.script = .scope settings work next) :
    Next p (p.behind (p.db.transaction p.here.scope settings (p.work work)) next)
  | join {settings : TransactionSettings} {work : Nat → Script α τ ρ}
      {next : Except Error ρ → Script α τ ρ} {t : Transaction} {flag : FlagId}
      {suspended : List Transaction} (h : p.script = .scope settings work next)
      (hentry : Scope.entry p.here.scope (p.world.settings.normalize settings)
        = .join t flag suspended) :
    Next p (p.inside ⟨.transaction t flag, suspended⟩ ⟨some t, flag⟩ work 1 p.world)
  | free {settings : TransactionSettings} {work : Nat → Script α τ ρ}
      {next : Except Error ρ → Script α τ ρ} {suspended : List Transaction}
      (h : p.script = .scope settings work next)
      (hentry : Scope.entry p.here.scope (p.world.settings.normalize settings)
        = .free suspended) :
    Next p (p.inside ⟨.nonTransactional, suspended⟩ ⟨none, p.world.nextFlag⟩ work 1
      { p.world with nextFlag := p.world.nextFlag + 1 })
  | attempt {settings : TransactionSettings} {work : Nat → Script α τ ρ}
      {next : Except Error ρ → Script α τ ρ} {opening : Opening} {suspended : List Transaction}
      {o : Opened} {w₁ w₂ : World σ τ} {i : Nat} (h : p.script = .scope settings work next)
      (hentry : Scope.entry p.here.scope (p.world.settings.normalize settings)
        = .attempts opening suspended)
      (hpermit : (p.db.permit suspended opening).perform p.world = (.ok (), w₁))
      (hretries : i ≤ settings.retries)
      (hcollide : ∀ j, j < i →
        Manager.Collides (p.db.tryOnce opening suspended (p.work work)) w₁ j)
      (hopen : (p.db.openAttempt opening).perform
        (Manager.beforeAttempt (p.db.tryOnce opening suspended (p.work work)) w₁ i)
          = (.ok o, w₂)) :
    Next p (p.inside (o.scope suspended) o.context work (i + 1) w₂)
  | hold {depth : Nat} {meanwhile : Script α τ ρ} {next : Except Error ρ → Script α τ ρ}
      (h : p.script = .hold depth meanwhile next) :
    Next p (p.behind (Script.holding p.db p.here depth (meanwhile.run p.db p.here)) next)
  | around {depth : Nat} {meanwhile : Script α τ ρ} {next : Except Error ρ → Script α τ ρ}
      (h : p.script = .hold depth meanwhile next) (hctx : p.here.contexts[depth]? = none) :
    Next p { p with script := meanwhile }
  | held {depth : Nat} {meanwhile : Script α τ ρ} {next : Except Error ρ → Script α τ ρ}
      {t : Transaction} {flag : FlagId} (h : p.script = .hold depth meanwhile next)
      (hctx : p.here.contexts[depth]? = some ⟨some t, flag⟩) :
    Next p { p with
      script := meanwhile
      world := p.world.modifyTransaction t fun s => { s with held := true } }
  | borrowed {depth : Nat} {meanwhile : Script α τ ρ} {next : Except Error ρ → Script α τ ρ}
      {flag : FlagId} {c : ConnectionId} {w₁ : World σ τ}
      (h : p.script = .hold depth meanwhile next)
      (hctx : p.here.contexts[depth]? = some ⟨none, flag⟩)
      (hacquire : (p.db.acquire).perform p.world = (.ok c, w₁)) :
    Next p { p with script := meanwhile, world := w₁ }
  | past {dialect : Dialect α} {work : Script α τ ρ} {next : Except Error ρ → Script α τ ρ}
      (h : p.script = .elsewhere dialect work next) :
    Next p (p.behind (Script.withOwnSettings
      (work.run (p.db.withDialect dialect) { p.here with scope := none })) next)
  | «elsewhere» {dialect : Dialect α} {work : Script α τ ρ}
      {next : Except Error ρ → Script α τ ρ} (h : p.script = .elsewhere dialect work next) :
    Next p (p.elsewhere dialect work)

/-- A transaction that is active: its connection is in use, and its number was handed out. -/
structure Active (storage : σ → Storage δ) (w : World σ τ) (t : Transaction) : Prop where
  taken : (storage w.store).Taken t.connection
  numbered : t.id < w.nextTransaction

/-- A point at which everything is in order. The flags that can be reached were handed out,
and others are not set. The transaction of the scope has its connection for itself. -/
structure Orderly (storage : σ → Storage δ) (schema : Schema δ) (p : Point σ α τ ρ) : Prop where
  engine : p.db.engine.Unreliable schema storage
  sound : (storage p.world.store).SoundPool
  unset : p.world.Unset
  contexts : ∀ ctx ∈ p.here.contexts, ctx.flag < p.world.nextFlag
  flag : ∀ t flag suspended, p.here.scope = some ⟨.transaction t flag, suspended⟩ →
    flag < p.world.nextFlag
  active : p.db.dialect.Standard → ∀ t ∈ Scope.active? p.here.scope, Active storage p.world t

end Point

/-- What is watched at a point: the transaction of the scope, if it can be, and no more of it
than that it is there. -/
structure Watch.Fits (storage : σ → Storage δ) (p : Point σ α τ ρ) (W : Watch) : Prop where
  watched : Watched storage W p.world
  known : p.here.Known p.db.toManager W
  ended : ¬ W.unended
  free : ∀ name, ¬ W.reserved name
  active : p.db.dialect.Standard → W.transaction = Scope.active? p.here.scope

theorem Watch.Fits.stays {p : Point σ α τ ρ} {W : Watch} (hW : Watch.Fits storage p W)
    (hd : p.db.dialect.Standard) {w : World σ τ} (hw : Watched storage W w) :
    ∀ t ∈ Scope.active? p.here.scope, Point.Active storage w t := by
  intro t ht
  have hmine : t ∈ W.transaction := by
    rw [hW.active hd]
    exact ht
  exact ⟨hw.taken t hmine, hw.numbered t hmine⟩

namespace Point.Orderly

open RowMapping.Action

variable {p p' : Point σ α τ ρ}

theorem exists_watch (h : p.Orderly storage schema) : ∃ W, Watch.Fits storage p W := by
  by_cases hd : p.db.dialect.Standard
  · have hactive := h.active hd
    refine ⟨⟨p.world.nextFlag, Scope.active? p.here.scope, False, fun _ => False⟩,
      ⟨h.sound, Nat.le_refl _, fun t ht => (hactive t ht).taken,
        fun t ht => (hactive t ht).numbered, fun h => h.elim⟩,
      ⟨h.contexts, ?_⟩, fun h => h, fun _ h => h, fun _ => rfl⟩
    intro t flag suspended hscope
    refine ⟨h.flag t flag suspended hscope, fun u hmine => .inl ⟨?_, hd⟩⟩
    rw [hscope] at hmine
    exact (Option.some.inj hmine).symm
  · -- savepoints of another dialect are not watched
    refine ⟨⟨p.world.nextFlag, none, False, fun _ => False⟩,
      ⟨h.sound, Nat.le_refl _, nofun, nofun, fun h => h.elim⟩, ⟨h.contexts, ?_⟩,
      fun h => h, fun _ h => h, fun hstandard => absurd hstandard hd⟩
    exact fun t flag suspended hscope => ⟨h.flag t flag suspended hscope, nofun⟩

/-- The same point at a later time. -/
theorem later (h : p.Orderly storage schema) {W : Watch} (hW : Watch.Fits storage p W)
    {new : List (Event τ)} {w' : World σ τ}
    (habides : Abides p.db.engine storage W new p.world w') (script' : Script α τ ρ) :
    Orderly storage schema ⟨p.db, script', p.here, w'⟩ where
  engine := h.engine
  sound := habides.sound
  unset := habides.unset h.unset
  contexts ctx hctx := Nat.lt_of_lt_of_le (h.contexts ctx hctx) habides.nextFlag
  flag t flag suspended hscope :=
    Nat.lt_of_lt_of_le (h.flag t flag suspended hscope) habides.nextFlag
  active hd t ht := hW.stays hd (habides.watched hW.watched) t ht

/-- Behind an action during which everything abides that can be watched. -/
theorem behind (h : p.Orderly storage schema) {a : Action σ τ κ}
    (ha : ∀ W, Watch.Fits storage p W → Abiding p.db.engine storage W a)
    (next : Except Error κ → Script α τ ρ) : (p.behind a next).Orderly storage schema := by
  obtain ⟨W, hW⟩ := h.exists_watch
  obtain ⟨new, habides⟩ := ha W hW p.world hW.watched
  exact h.later hW habides _

/-! ## Steps -/

/-- What is watched at a point abides while a scope works there. -/
theorem scopeWork (h : p.Orderly storage schema) {W : Watch} (hW : Watch.Fits storage p W)
    (work : Nat → Script α τ ρ) (number : Nat) :
    ScopedWorkAbides p.db.toManager storage W (p.work work) number :=
  .scripts h.engine (fun hu => absurd hu hW.ended) (fun name hn => absurd hn (hW.free name))
    hW.known.contexts

/-- In the work of a scope, in the scope it belongs to. -/
theorem inside (h : p.Orderly storage schema) {inner : Scope} {ctx : Context}
    (work : Nat → Script α τ ρ) (number : Nat) {w' : World σ τ}
    (hsound : (storage w'.store).SoundPool) (hunset : w'.Unset)
    (hnextFlag : p.world.nextFlag ≤ w'.nextFlag) (hctx : ctx.flag < w'.nextFlag)
    (hflag : ∀ t flag suspended, inner = ⟨.transaction t flag, suspended⟩ → flag < w'.nextFlag)
    (hactive : p.db.dialect.Standard → ∀ t ∈ Scope.active? (some inner), Active storage w' t) :
    (p.inside inner ctx work number w').Orderly storage schema where
  engine := h.engine
  sound := hsound
  unset := hunset
  contexts other hother := by
    rcases List.mem_cons.mp hother with rfl | hother
    · exact hctx
    · exact Nat.lt_of_lt_of_le (h.contexts other hother) hnextFlag
  flag t flag suspended hinner := hflag t flag suspended (Option.some.inj hinner)
  active hd t ht := ⟨(hactive hd t ht).taken, (hactive hd t ht).numbered⟩

section Attempts

variable {settings : TransactionSettings} {work : Nat → Script α τ ρ} {opening : Opening}
  {suspended : List Transaction} {w₁ : World σ τ}

/-- Savepoints are set in the transaction of the scope, which is known. -/
theorem concerns {W : Watch} (hW : Watch.Fits storage p W)
    (hentry : Scope.entry p.here.scope settings = .attempts opening suspended) :
    ∀ t, opening = .savepoint t → Concerns p.db.toManager W t := by
  rintro t rfl
  obtain ⟨flag, hscope⟩ := Scope.of_savepoint hentry
  exact (hW.known.scope t flag suspended hscope).2

/-- What is watched abides until a scope is tried. -/
theorem permitted (h : p.Orderly storage schema) {W : Watch} (hW : Watch.Fits storage p W)
    (hpermit : (p.db.permit suspended opening).perform p.world = (.ok (), w₁)) :
    ∃ new, Abides p.db.engine storage W new p.world w₁ := by
  obtain ⟨new, habides⟩ := (Abiding.composable p.db.engine storage W).permit
    (fun c => .totalChanges h.engine c) suspended opening p.world hW.watched
  rw [hpermit] at habides
  exact ⟨new, habides⟩

/-- And until any of its attempts. -/
theorem before (h : p.Orderly storage schema) {W : Watch} (hW : Watch.Fits storage p W)
    (work : Nat → Script α τ ρ)
    (hentry : Scope.entry p.here.scope settings = .attempts opening suspended)
    (hw : Watched storage W w₁) (i : Nat) :
    ∃ new, Abides p.db.engine storage W new w₁
      (Manager.beforeAttempt (p.db.tryOnce opening suspended (p.work work)) w₁ i) :=
  Abides.beforeAttempt
    (fun n => .tryOnce h.engine (concerns hW hentry) suspended (h.scopeWork hW work n)) hw i

theorem attempt (h : p.Orderly storage schema) {o : Opened} {w₂ : World σ τ} {i : Nat}
    (hentry : Scope.entry p.here.scope settings = .attempts opening suspended)
    (hpermit : (p.db.permit suspended opening).perform p.world = (.ok (), w₁))
    (hopen : (p.db.openAttempt opening).perform
      (Manager.beforeAttempt (p.db.tryOnce opening suspended (p.work work)) w₁ i) = (.ok o, w₂)) :
    (p.inside (o.scope suspended) o.context work (i + 1) w₂).Orderly storage schema := by
  obtain ⟨W, hW⟩ := h.exists_watch
  obtain ⟨new₁, hpermitted⟩ := h.permitted hW hpermit
  have hw₁ := hpermitted.watched hW.watched
  obtain ⟨new₂, hbefore⟩ := h.before hW work hentry hw₁ i
  have hw := hbefore.watched hw₁
  obtain ⟨new₃, hopened⟩ := Abides.openAttempt h.engine (concerns hW hentry) hw hopen
  have hall := (hpermitted.trans hbefore).trans hopened
  -- the flag of the attempt is the one that was handed out last
  have hflag : o.flag < w₂.nextFlag := by
    rcases opening with isolation | t
    · obtain ⟨t, w', -, rfl, rfl⟩ := Manager.opened_own hopen
      exact Nat.lt_succ_self _
    · obtain ⟨w', -, rfl, rfl⟩ := Manager.opened_savepoint hopen
      exact Nat.lt_succ_self _
  refine h.inside work (i + 1) hall.sound (hall.unset h.unset) hall.nextFlag ?_ ?_ ?_
  · exact hflag
  · rintro t flag ts ⟨⟩
    exact hflag
  · rintro hd t ⟨⟩
    rcases opening with isolation | t
    · obtain ⟨t, w', hrun, rfl, rfl⟩ := Manager.opened_own hopen
      have hbegun := Manager.begun_of_begin h.engine hw.sound hrun
      exact ⟨hbegun.taken, hbegun.numbered⟩
    · obtain ⟨flag, hscope⟩ := Scope.of_savepoint hentry
      obtain ⟨w', -, rfl, rfl⟩ := Manager.opened_savepoint hopen
      refine hW.stays hd (hopened.watched hw) t ?_
      rw [hscope]
      rfl

end Attempts

/-- Everything is in order at the next point. -/
theorem next (h : p.Orderly storage schema) (hnext : p.Next p') :
    p'.Orderly storage schema := by
  -- past a step everything abides that is watched; into it, the scope is the one entered
  cases hnext with
  | note hscript => exact h.behind (fun W _ => .record fun _ _ => by simp) _
  | operate hscript => exact h.behind (fun W _ => .answer h.engine _ _) _
  | bypass hscript =>
    refine h.behind (fun W hW => ?_) _
    exact .answerPast h.engine _ _ (fun hu => absurd hu hW.ended)
      fun name hn => absurd hn (hW.free name)
  | setRollbackOnly hscript => exact h.behind (fun W hW => .mark hW.known.contexts _) _
  | observe hscript => exact { h with }
  | configure hscript => exact h.behind (fun W _ => .changeSettings _) _
  | @scope settings work next hscript =>
    refine h.behind (fun W hW => ?_) _
    exact (Abiding.still fun _ => rfl).bind fun _ =>
      .withTransaction h.engine hW.known.scope _ (h.scopeWork hW work)
  | join hscript hentry =>
    have hscope := Scope.of_join hentry
    refine h.inside _ 1 h.sound h.unset (Nat.le_refl _) (h.flag _ _ _ hscope) ?_ ?_
    · rintro t flag ts ⟨⟩
      exact h.flag _ _ _ hscope
    · rintro hd t ⟨⟩
      refine h.active hd _ ?_
      rw [hscope]
      rfl
  | free hscript hentry =>
    refine h.inside _ 1 h.sound (fun i hi => ?_) (Nat.le_succ _) (Nat.lt_succ_self _) nofun nofun
    exact h.unset i (Nat.le_of_succ_le hi)
  | attempt hscript hentry hpermit hretries hcollide hopen => exact h.attempt hentry hpermit hopen
  | hold hscript =>
    refine h.behind (fun W hW => ?_) _
    exact .holding h.engine _ _ (.script h.engine (fun hu => absurd hu hW.ended)
      (fun name hn => absurd hn (hW.free name)) hW.known)
  | around hscript hctx => exact { h with }
  | @held depth meanwhile next t flag hscript hctx =>
    obtain ⟨W, hW⟩ := h.exists_watch
    obtain ⟨new, hheld⟩ := Abiding.note (E := p.db.engine) t (fun s => { s with held := true })
      (fun _ => ⟨rfl, rfl⟩) p.world hW.watched
    exact h.later hW hheld _
  | borrowed hscript hctx hacquire =>
    obtain ⟨W, hW⟩ := h.exists_watch
    obtain ⟨hacquired, -⟩ := Abides.acquire h.engine hW.watched hacquire
    exact h.later hW hacquired _
  | @past dialect work next hscript =>
    refine h.behind (fun W hW => ?_) _
    have hthere : Surroundings.Known (p.db.withDialect dialect).toManager W
        { p.here with scope := none } := ⟨hW.known.contexts, nofun⟩
    have hengine : (p.db.withDialect dialect).engine.Unreliable schema storage := h.engine
    exact .withOwnSettings (.script hengine (fun hu => absurd hu hW.ended)
      (fun name hn => absurd hn (hW.free name)) hthere)
  | «elsewhere» hscript => exact { h with flag := nofun, active := nofun }

/-- At the start of a program nothing can be out of order but the world. -/
theorem start {db : Database σ α} (hE : db.engine.Unreliable schema storage)
    (script : Script α τ ρ) {w : World σ τ} (hsound : (storage w.store).SoundPool)
    (hunset : w.Unset) : Orderly storage schema ⟨db, script, {}, w⟩ where
  engine := hE
  sound := hsound
  unset := hunset
  contexts := nofun
  flag := nofun
  active := nofun

end Point.Orderly

end RowMapping
