/-
Programs of nested scopes do what they mean.

By induction on the program: from a world that agrees with a ledger, running the
program comes to the result that its meaning tells, and to a world that agrees with
the ledger of the meaning. What the scope suspends is kept all the way, so a scope
that resumes finds its own transaction as it left it.

Agreement is about the storage. Whole runs are on any engine in whose states a storage
can be seen and whose operations do there what the storage does.
-/
import RowMapping.Proofs.Transaction.Journaling
import RowMapping.Proofs.Transaction.Ledgers
import RowMapping.Proofs.Transaction.ScopeWrites

set_option autoImplicit false

namespace RowMapping

variable {σ δ τ α ρ : Type}

namespace Premises

open RowMapping.Action RowMapping.Manager

variable {g : Premises δ α} {w w' : World (Storage δ) τ} {here : Surroundings} {p : Place}
  {l l' : Ledger} {marks : List (Savepoint δ)} {t : Transaction} {flag : FlagId}
  {suspended : List Transaction} {contexts : List Context} {script : Script α τ ρ}
  {account : Account ρ} {settings : TransactionSettings}

/-- A script does what an account says, wherever it is run. -/
def Follows (g : Premises δ α) (script : Script α τ ρ) (account : Account ρ) : Prop :=
  ∀ (w : World (Storage δ) τ) (here : Surroundings) (p : Place) (l : Ledger)
    (marks : List (Savepoint δ)), g.Agrees w here p l marks →
    g.ComesTo (script.run g.database here) w here p marks (account p l)

/-- Entering a scope leaves nothing but an entry on the trace. -/
theorem Follows.entered (hf : g.Follows script account) {inner : Scope} {ctx : Context}
    (h : g.Agrees w ⟨some inner, ctx :: contexts⟩ p l marks) (attempt : Nat) :
    g.ComesTo (Script.scopeWork (fun _ => script) g.database contexts inner ctx attempt) w
      ⟨some inner, ctx :: contexts⟩ p marks (account p l) := by
  let w₁ := { w with trace := w.trace ++ [Event.entered attempt ctx.isTransactional] }
  -- nothing that agreement speaks of is on the trace
  have h₁ : g.Agrees w₁ ⟨some inner, ctx :: contexts⟩ p l marks := by
    refine { h with standing := { h.standing with waiting := ?_ }, current := ?_ }
    · intro u hu
      exact { h.standing.waiting u hu with }
    · intro t ht
      exact { h.current t ht with waits := { (h.current t ht).waits with } }
  obtain ⟨w', hrun, hagrees, hkept⟩ := hf w₁ _ p l marks h₁
  refine ⟨w', ?_, hagrees, ⟨hkept.store, hkept.states, hkept.numbers⟩⟩
  rw [Script.scopeWork, perform_record_bind]
  exact hrun

/-! ## Scopes that begin nothing -/

/-- Work that joins a scope. -/
theorem Follows.join (hf : g.Follows script account)
    (h : g.Agrees w ⟨some ⟨.transaction t flag, suspended⟩, contexts⟩ p l marks)
    (hmanner : p.venue.manner settings.propagation = .join flag) :
    g.ComesTo (Script.scopeWork (fun _ => script) g.database contexts
        ⟨.transaction t flag, suspended⟩ ⟨some t, flag⟩ 1) w
      ⟨some ⟨.transaction t flag, suspended⟩, contexts⟩ p marks (g.enclose settings account p l) := by
  have hinner : g.Agrees w ⟨some ⟨.transaction t flag, suspended⟩, ⟨some t, flag⟩ :: contexts⟩
      { p with flags := flag :: p.flags } l marks := by
    refine { h with flags := ?_, current := fun u hu => { h.current u hu with } }
    exact congrArg (flag :: ·) h.flags
  obtain ⟨w', hrun, hagrees, hkept⟩ := hf.entered hinner 1
  rw [enclose, hmanner]
  exact ⟨w', hrun, { hagrees with
    flags := h.flags, current := fun u hu => { hagrees.current u hu with } }, hkept⟩

/-- Work that runs without a transaction. -/
theorem Follows.free (hf : g.Follows script account) (h : g.Agrees w here p l marks)
    (hmanner : p.venue.manner settings.propagation = .free) :
    g.ComesTo (runWithout (Scope.setAside here.scope)
        (Script.scopeWork (fun _ => script) g.database here.contexts)) w
      here p marks (g.enclose settings account p l) := by
  let w₁ := { w with nextFlag := w.nextFlag + 1 }
  have hnext : w.nextFlag = l.nextFlag := h.standing.nextFlag
  have hinner : g.Agrees w₁
      ⟨some ⟨.nonTransactional, Scope.setAside here.scope⟩, ⟨none, w.nextFlag⟩ :: here.contexts⟩
      (p.aside .alone l) (l.enter false) [] := {
    standing := { h.setAside with
      nextFlag := congrArg (· + 1) hnext
      waiting := fun u hu => { h.setAside.waiting u hu with } }
    flags := by rw [List.map_cons, h.flags, hnext]; rfl
    venue := trivial
    blocked := h.blocked_setAside
    current := fun _ hn => by cases hn
    idle := fun _ => ⟨rfl, rfl, rfl, rfl⟩ }
  obtain ⟨w', hrun, hagrees, hkept⟩ := hf.entered hinner 1
  have hall : Kept none w w' := ⟨hkept.store, hkept.states, hkept.numbers⟩
  rw [enclose, hmanner]
  refine ⟨w', ?_, h.resume hall { hagrees.standing with } rfl rfl rfl, hall.weaken _⟩
  rw [runWithout, perform_newFlag_bind]
  exact hrun

/-! ## Scopes with a transaction of their own -/

/-- The place and the ledger of a transaction that has just begun. -/
theorem Agrees.begin {lock : Bool} {w₁ : World (Storage δ) τ} (h : g.Agrees w here p l marks)
    (hb : Begun w w₁ t lock) :
    g.Agrees { w₁ with nextFlag := w₁.nextFlag + 1 }
      ⟨some ⟨.transaction t w₁.nextFlag, Scope.setAside here.scope⟩,
        ⟨some t, w₁.nextFlag⟩ :: here.contexts⟩
      (p.aside (.within l.nextFlag) l) (l.enter lock) [] := by
  have hnext : w₁.nextFlag = l.nextFlag := hb.nextFlag.trans h.standing.nextFlag
  have hkept : Kept none w w₁ := (Kept.refl (some t) w₁).after_begin hb
  have hstanding := h.setAside.begin hb
  refine {
    standing := { hstanding with
      nextFlag := congrArg (· + 1) hnext
      waiting := fun u hu => { hstanding.waiting u hu with } }
    flags := by rw [List.map_cons, h.flags, hnext]; rfl
    venue := hnext
    blocked := ?_
    current := fun u hu => ?_
    idle := fun hn => by cases hn }
  · have hwritten := hkept.any_written h.setAside.waiting fun _ hn => by cases hn
    exact h.blocked_setAside.trans hwritten.symm
  · cases hu
    have hstate : w₁.stateOf t = { written := lock } := hb.state
    -- what has just begun sees what is committed
    have hshown : g.contents (p.aside (.within l.nextFlag) l) (l.enter lock)
        = w.store.contents := by
      rw [contents_eq, h.standing.contents]
      rfl
    refine {
      waits := {
        number := by
          show t.id < w₁.nextTransaction
          rw [hb.next, hb.number]
          exact Nat.lt_succ_self _
        taken := hb.taken
        held := congrArg (·.held) hstate
        changes := fun _ => hb.changes }
      written := congrArg (·.written) hstate
      finished := congrArg (·.finished) hstate
      tainted := congrArg (·.tainted) hstate
      shows := by rw [hshown]; exact hb.shows
      untouched := fun _ => ⟨rfl, rfl⟩
      unwritten := fun hn => hn }

/-- Work that has a transaction of its own, once nobody holds a lock it needs. -/
theorem Follows.begin_once (hf : g.Follows script account) (h : g.Agrees w here p l marks)
    (isolation : Isolation)
    (hfree : g.database.dialect.locksOnBegin isolation = true → w.store.writer = none)
    {result : Except Error ρ} {after : Ledger}
    (hwork : account (p.aside (.within l.nextFlag) l)
      (l.enter (g.database.dialect.locksOnBegin isolation)) = (result, after)) :
    g.ComesTo (g.database.runNewOnce isolation (Scope.setAside here.scope)
        (Script.scopeWork (fun _ => script) g.database here.contexts) 1) w here p marks
      ((g.conclude result (after.marked l.nextFlag) after).1, { after.resume l with
        committed := (g.conclude result (after.marked l.nextFlag) after).2 }) := by
  -- it begins, the work agrees within it, and it is settled
  obtain ⟨t, w₁, hbegin, hb, -⟩ := g.perform_begin h.setAside.tidy hfree
  have hnext : w₁.nextFlag = l.nextFlag := hb.nextFlag.trans h.standing.nextFlag
  obtain ⟨w₂, hrun, hagrees, hkept₂⟩ := hf.entered (h.begin hb) 1
  rw [hwork] at hrun hagrees
  have hcurrent := hagrees.current t rfl
  have hmarked : w₂.flags w₁.nextFlag = after.marked l.nextFlag := by
    rw [hagrees.standing.marked, hnext]
  obtain ⟨w', hsettle, hkept₃, hstanding⟩ := hagrees.standing.settle result
    (after.marked l.nextFlag) hcurrent.waits.taken hcurrent.finished hcurrent.tainted
    hcurrent.shows
  have hkept : Kept (some t) w₁ w₂ := ⟨hkept₂.store, hkept₂.states, hkept₂.numbers⟩
  have hall : Kept none w w' := (hkept.trans hkept₃).after_begin hb
  refine ⟨w', ?_, h.resume hall { hstanding with } rfl rfl rfl, hall.weaken _⟩
  rw [runNewOnce, perform_bind_ok hbegin, perform_newFlag_bind, perform_outcome_bind, hrun,
    perform_look_bind]
  show (g.database.settle t result (w₂.flags w₁.nextFlag)).perform w₂ = _
  rw [hmarked]
  exact hsettle

/-- Work that has a transaction of its own. -/
theorem Follows.begin (hf : g.Follows script account) (h : g.Agrees w here p l marks)
    (hretries : settings.retries = 0)
    (hmanner : p.venue.manner settings.propagation = .begin) :
    g.ComesTo (g.database.runNew settings (Scope.setAside here.scope)
        (Script.scopeWork (fun _ => script) g.database here.contexts)) w
      here p marks (g.enclose settings account p l) := by
  have hensure := h.setAside.perform_ensureNoWriter
  rw [← h.blocked_setAside] at hensure
  have honce := fun hfree => hf.begin_once h settings.isolation hfree rfl
  rw [enclose, hmanner, runNew, hretries]
  dsimp only
  rcases hlock : g.database.dialect.locksOnBegin settings.isolation with _ | _
  · rw [hlock] at honce
    simp only [Bool.false_eq_true, if_false, Bool.false_and]
    exact honce fun hn => by cases hn
  · rw [hlock] at honce
    simp only [if_true, Bool.true_and]
    -- a transaction that locks needs the lock, and whoever has it is among those suspended
    rcases hblocked : p.blocked || l.wrote with _ | _
    · have hunlocked := h.setAside.unlocked (h.blocked_setAside.symm.trans hblocked)
      obtain ⟨w', hrun, hagrees, hkept⟩ := honce fun _ => hunlocked
      rw [hblocked] at hensure
      refine ⟨w', ?_, hagrees, hkept⟩
      rw [perform_bind_ok hensure]
      exact hrun
    · rw [hblocked] at hensure
      exact ⟨w, perform_bind_error hensure _, h, .refl _ w⟩

/-! ## Scopes that divide a transaction -/

/-- Nothing moved but what the transaction of a connection shows. -/
structure Adjusts (w w' : World (Storage δ) τ) (c : ConnectionId) : Prop where
  books : w.SameBooks w'
  moves : w.store.MovesOnly c w'.store
  contents : w'.store.contents = w.store.contents
  changes : (w'.store.sessions c).changes = (w.store.sessions c).changes

/-- The current transaction goes on from a statement that adjusts what it shows. -/
theorem Current.adjust (h : g.Current w t p l marks) {w' : World (Storage δ) τ}
    (hw : Adjusts w w' t.connection) {p' : Place} {marks' : List (Savepoint δ)}
    (hwrote : l'.wrote = l.wrote) (hlocks : l'.locks = l.locks)
    (hshows : w'.store.Shows t.connection marks' l.locks (g.contents p' l'))
    (huntouched : l.locks = false → p'.below = [] ∧ l'.own = []) :
    g.Current w' t p' l' marks' := by
  have hstate : w'.stateOf t = w.stateOf t := congrFun hw.books.transactions t.id
  exact {
    waits := {
      number := by rw [hw.books.nextTransaction]; exact h.waits.number
      taken := (hw.moves.taken _).mpr h.waits.taken
      held := by rw [hstate]; exact h.waits.held
      changes := by rw [hstate, hw.changes]; exact h.waits.changes }
    written := by rw [hstate, hwrote]; exact h.written
    finished := by rw [hstate]; exact h.finished
    tainted := by rw [hstate]; exact h.tainted
    shows := by rw [hlocks]; exact hshows
    untouched := by rw [hlocks]; exact huntouched
    unwritten := by rw [hlocks, hwrote]; exact h.unwritten }

/-- What a savepoint remembers of a place. -/
def remembered (g : Premises δ α) (p : Place) (l : Ledger) : Option (δ) :=
  if l.locks then some (g.contents p l) else none

/-- The scope in a transaction with a new flag. -/
abbrev dividing (t : Transaction) (flag : FlagId) (suspended : List Transaction)
    (contexts : List Context) : Surroundings :=
  ⟨some ⟨.transaction t flag, suspended⟩, ⟨some t, flag⟩ :: contexts⟩

/-- Setting a savepoint divides the current transaction. -/
theorem Agrees.savepoint
    (h : g.Agrees w ⟨some ⟨.transaction t flag, suspended⟩, contexts⟩ p l marks) :
    ∃ name w₁ w₂, (nextSavepoint t).perform w = (.ok name, w₁) ∧
      (g.database.execute t.connection (.savepoint name)).perform w₁ = (.ok (), w₂) ∧
      w₂.nextFlag = l.nextFlag ∧ Kept (some t) w w₂ ∧
      g.Agrees { w₂ with nextFlag := w₂.nextFlag + 1 }
        (dividing t w₂.nextFlag suspended contexts) (p.inner l)
        { l with own := [], nextFlag := l.nextFlag + 1 } (⟨name, g.remembered p l⟩ :: marks) := by
  have hstanding : g.Standing w suspended (some t) l := h.standing
  have hcurrent := h.current t rfl
  let name := "sp_" ++ toString ((w.stateOf t).savepoints + 1)
  -- drawing a name only counts the savepoints of the transaction
  let w₁ := w.modifyTransaction t fun s => { s with savepoints := s.savepoints + 1 }
  obtain ⟨hkept₁, hstanding₁⟩ := hstanding.modify fun s => { s with savepoints := s.savepoints + 1 }
  have hstate : w₁.stateOf t = { w.stateOf t with savepoints := (w.stateOf t).savepoints + 1 } :=
    World.stateOf_modifyTransaction t _ w
  have hcurrent₁ : g.Current w₁ t p l marks := { hcurrent with
    waits := { hcurrent.waits with
      held := by rw [hstate]; exact hcurrent.waits.held
      changes := by rw [hstate]; exact hcurrent.waits.changes }
    written := by rw [hstate]; exact hcurrent.written
    finished := by rw [hstate]; exact hcurrent.finished
    tainted := by rw [hstate]; exact hcurrent.tainted }
  obtain ⟨hok, hshows, hcontents, hchanges⟩ := Storage.savepoint_shows hcurrent₁.shows name
  let w₂ := g.database.afterStatement t.connection (.savepoint name) w₁
  have hadjusts : Adjusts w₁ w₂ t.connection := ⟨sameBooks_afterStatement _ _ _ _,
    Storage.movesOnly_execute g.schema.check _ (.savepoint name) _, hcontents, hchanges⟩
  obtain ⟨hkept₂, hstanding₂⟩ := hstanding₁.of_movesOnly hcurrent₁.waits.taken hadjusts.books
    hadjusts.moves hadjusts.contents
  have hkept := hkept₁.trans hkept₂
  have hnext : w₂.nextFlag = l.nextFlag := hstanding₂.nextFlag
  have hcurrent₂ : g.Current w₂ t (p.inner l) { l with own := [], nextFlag := l.nextFlag + 1 }
      (⟨name, g.remembered p l⟩ :: marks) := by
    -- the writes of the scope so far are below those that the savepoint divides off
    refine hcurrent₁.adjust hadjusts rfl rfl ?_ fun hlocks => ?_
    · have hsame : g.contents (p.inner l) { l with own := [], nextFlag := l.nextFlag + 1 }
          = g.contents p l := by
        show replay _ (l.committed ++ (p.below ++ l.own) ++ []) _ = _
        rw [List.append_nil, ← List.append_assoc]
        rfl
      rw [hsame]
      exact hshows
    · obtain ⟨hbelow, hown⟩ := hcurrent.untouched hlocks
      exact ⟨by rw [Place.inner, hbelow, hown]; rfl, rfl⟩
  refine ⟨name, w₁, w₂, perform_nextSavepoint t w, g.perform_execute_ok hok, hnext, hkept, {
    standing := { hstanding₂ with
      nextFlag := congrArg (· + 1) hnext
      waiting := fun u hu => { hstanding₂.waiting u hu with } }
    flags := by rw [List.map_cons, h.flags, hnext]; rfl
    venue := hnext
    blocked := ?_
    current := fun u hu => ?_
    idle := fun hn => by cases hn }⟩
  · exact h.blocked.trans (hkept.any_written hstanding.waiting hstanding.apart).symm
  · cases hu
    exact { hcurrent₂ with waits := { hcurrent₂.waits with } }

/-- When a divided transaction goes on, the scope around agrees with what it shows. -/
theorem Agrees.leave {w₀ : World (Storage δ) τ} {flag' : FlagId} {after : Ledger}
    {inner : List (Savepoint δ)}
    (h₀ : g.Agrees w₀ ⟨some ⟨.transaction t flag, suspended⟩, contexts⟩ p l marks)
    (h : g.Agrees w (dividing t flag' suspended contexts) (p.inner l) after inner)
    (hw : Adjusts w w' t.connection) (own : List Write)
    (hshows : w'.store.Shows t.connection marks after.locks (g.contents p { after with own }))
    (hown : after.locks = false → own = []) :
    g.Agrees w' ⟨some ⟨.transaction t flag, suspended⟩, contexts⟩ p { after with own } marks ∧
      Kept (some t) w w' := by
  have hstanding : g.Standing w suspended (some t) after := h.standing
  have hcurrent := h.current t rfl
  obtain ⟨hkept, hstanding'⟩ :=
    hstanding.of_movesOnly hcurrent.waits.taken hw.books hw.moves hw.contents
  refine ⟨{
    standing := { hstanding' with }
    flags := h₀.flags
    venue := h₀.venue
    blocked := ?_
    current := fun u hu => ?_
    idle := fun hn => by cases hn }, hkept⟩
  · exact h.blocked.trans (hkept.any_written hstanding.waiting hstanding.apart).symm
  · cases hu
    -- what is below the savepoint includes what is below the scope
    refine hcurrent.adjust hw rfl rfl hshows fun hlocks => ⟨?_, hown hlocks⟩
    obtain ⟨hbelow, -⟩ := hcurrent.untouched hlocks
    exact (List.append_eq_nil_iff.mp hbelow).1

/-- Releasing the savepoint adds the writes of the scope to those around it. -/
theorem Agrees.release {w₀ : World (Storage δ) τ} {flag' : FlagId} {after : Ledger}
    {name : String} {mark : Option δ}
    (h₀ : g.Agrees w₀ ⟨some ⟨.transaction t flag, suspended⟩, contexts⟩ p l marks)
    (h : g.Agrees w (dividing t flag' suspended contexts) (p.inner l) after
      (⟨name, mark⟩ :: marks)) :
    ∃ w', (g.database.execute t.connection (.release name)).perform w = (.ok (), w') ∧
      g.Agrees w' ⟨some ⟨.transaction t flag, suspended⟩, contexts⟩ p
        { after with own := l.own ++ after.own } marks ∧
      Kept (some t) w w' := by
  have hcurrent := h.current t rfl
  obtain ⟨hok, hshows, hcontents, hchanges⟩ := Storage.release_shows g.schema.check hcurrent.shows
  have hadjusts : Adjusts w (g.database.afterStatement t.connection (.release name) w)
      t.connection := ⟨sameBooks_afterStatement _ _ _ _,
    Storage.movesOnly_execute g.schema.check _ (.release name) _, hcontents, hchanges⟩
  -- what was written since the savepoint is the transaction's own from now on
  have hsame : g.contents (p.inner l) after
      = g.contents p { after with own := l.own ++ after.own } := by
    show replay _ (after.committed ++ (p.below ++ l.own) ++ after.own) _ = _
    rw [← List.append_assoc, List.append_assoc]
    rfl
  have hown : after.locks = false → l.own ++ after.own = [] := by
    intro hlocks
    obtain ⟨hbelow, hafter⟩ := hcurrent.untouched hlocks
    rw [(List.append_eq_nil_iff.mp hbelow).2, hafter]
    rfl
  obtain ⟨hagrees, hkept⟩ := h₀.leave h hadjusts _ (hsame ▸ hshows) hown
  exact ⟨_, g.perform_execute_ok hok, hagrees, hkept⟩

/-- Undoing drops the writes of the scope, and none of those made before it. -/
theorem Agrees.undo {w₀ : World (Storage δ) τ} {flag' : FlagId} {after : Ledger} {name : String}
    (h₀ : g.Agrees w₀ ⟨some ⟨.transaction t flag, suspended⟩, contexts⟩ p l marks)
    (h : g.Agrees w (dividing t flag' suspended contexts) (p.inner l) after
      (⟨name, g.remembered p l⟩ :: marks))
    (hlocked : l.locks = true → Locked l after) :
    ∃ w', (g.database.undo t name).perform w = (.ok (), w') ∧
      g.Agrees w' ⟨some ⟨.transaction t flag, suspended⟩, contexts⟩ p
        { after with own := l.own } marks ∧
      Kept (some t) w w' := by
  have hstanding : g.Standing w suspended (some t) after := h.standing
  have hcurrent := h.current t rfl
  -- without the lock at the end there was none when the savepoint was set
  have hnothing : after.locks = false → g.remembered p l = none := by
    intro hlocks
    rw [remembered]
    rcases hl : l.locks with _ | _
    · rfl
    · rw [(hlocked hl).locks] at hlocks
      cases hlocks
  obtain ⟨hok₁, hshows₁, hcontents₁, hchanges₁⟩ :=
    Storage.rollbackTo_shows hcurrent.shows hnothing
  let w₁ := g.database.afterStatement t.connection (.rollbackTo name) w
  have hadjusts₁ : Adjusts w w₁ t.connection := ⟨sameBooks_afterStatement _ _ _ _,
    Storage.movesOnly_execute g.schema.check _ (.rollbackTo name) _, hcontents₁, hchanges₁⟩
  have hsame : (g.remembered p l).getD w.store.contents
      = g.contents p { after with own := l.own } := by
    rw [remembered]
    rcases hl : l.locks with _ | _
    · -- the savepoint was set before the first write
      obtain ⟨hbelow, hown⟩ := (h₀.current t rfl).untouched hl
      rw [contents_eq g p { after with own := l.own }, hbelow, hown, hstanding.contents]
      rfl
    · rw [contents_eq, contents_eq]
      show replay _ _ _ = replay _ _ (replay _ after.committed _)
      rw [(hlocked hl).committed]
  rw [hsame] at hshows₁
  obtain ⟨hok₂, hshows₂, hcontents₂, hchanges₂⟩ := Storage.release_shows g.schema.check hshows₁
  let w₂ := g.database.afterStatement t.connection (.release name) w₁
  have hadjusts₂ : Adjusts w₁ w₂ t.connection := ⟨sameBooks_afterStatement _ _ _ _,
    Storage.movesOnly_execute g.schema.check _ (.release name) _, hcontents₂, hchanges₂⟩
  have hadjusts : Adjusts w w₂ t.connection := ⟨hadjusts₁.books.trans hadjusts₂.books,
    hadjusts₁.moves.trans hadjusts₂.moves, hcontents₂.trans hcontents₁,
    hchanges₂.trans hchanges₁⟩
  have hown : after.locks = false → l.own = [] := by
    intro hlocks
    obtain ⟨hbelow, -⟩ := hcurrent.untouched hlocks
    exact (List.append_eq_nil_iff.mp hbelow).2
  obtain ⟨hagrees, hkept⟩ := h₀.leave h hadjusts l.own hshows₂ hown
  refine ⟨w₂, ?_, hagrees, hkept⟩
  show (g.database.execute t.connection (.rollbackTo name)
    >>= fun _ => g.database.execute t.connection (.release name)).perform w = _
  have hrun₁ : (g.database.execute t.connection (.rollbackTo name)).perform w = (.ok (), w₁) :=
    g.perform_execute_ok hok₁
  rw [perform_bind_ok hrun₁]
  exact g.perform_execute_ok hok₂

/-- Work that divides a transaction. -/
theorem Follows.divide (hf : g.Follows script account)
    (hlocked : ∀ (p : Place) (l : Ledger) (flag : FlagId), p.venue = .within flag →
      l.wrote = true → l.locks = true → Locked l (account p l).2)
    (h : g.Agrees w ⟨some ⟨.transaction t flag, suspended⟩, contexts⟩ p l marks)
    (hretries : settings.retries = 0)
    (hmanner : p.venue.manner settings.propagation = .divide) :
    g.ComesTo (g.database.runNested t settings.retries suspended
        (Script.scopeWork (fun _ => script) g.database contexts)) w
      ⟨some ⟨.transaction t flag, suspended⟩, contexts⟩ p marks
      (g.enclose settings account p l) := by
  obtain ⟨name, w₁, w₂, hname, hsavepoint, hnext, hkept₂, hinner⟩ := h.savepoint
  obtain ⟨w₃, hrun, hagrees, hkept₃⟩ := hf.entered hinner 1
  have hkept : Kept (some t) w w₃ :=
    hkept₂.trans ⟨hkept₃.store, hkept₃.states, hkept₃.numbers⟩
  rcases haccount : account (p.inner l) { l with own := [], nextFlag := l.nextFlag + 1 }
    with ⟨result, after⟩
  rw [haccount] at hrun hagrees
  have hkeeps : l.locks = true → Locked l after := by
    intro hlocks
    have hwrote : l.wrote = true := by
      rcases hl : l.wrote with _ | _
      · rw [(h.current t rfl).unwritten hl] at hlocks
        cases hlocks
      · rfl
    have h := hlocked (p.inner l) { l with own := [], nextFlag := l.nextFlag + 1 } l.nextFlag rfl
      hwrote hlocks
    rw [haccount] at h
    exact ⟨h.committed, h.wrote, h.locks⟩
  have hmarked : w₃.flags w₂.nextFlag = after.marked l.nextFlag := by
    rw [hagrees.standing.marked, hnext]
  -- both ways out are ready: dropping the writes of the work, and keeping them
  obtain ⟨w₄, hundo, hundone, hkept₄⟩ := h.undo hagrees hkeeps
  obtain ⟨w₅, hrelease, hreleased, hkept₅⟩ := h.release hagrees
  have hleave : (g.database.runNestedOnce t suspended
      (Script.scopeWork (fun _ => script) g.database contexts) 1).perform w
        = (g.database.leave t name result (after.marked l.nextFlag)).perform w₃ := by
    have hsavepoint' : (g.database.execute t.connection
        (g.database.dialect.savepoint name)).perform w₁ = (.ok (), w₂) := hsavepoint
    rw [runNestedOnce, perform_bind_ok hname, perform_bind_ok hsavepoint', perform_newFlag_bind,
      perform_outcome_bind, hrun, perform_look_bind, ← hmarked]
  rw [enclose, hmanner, runNested, hretries]
  dsimp only
  rw [haccount]
  show g.ComesTo (g.database.runNestedOnce t suspended _ 1) w _ p marks _
  rcases result with e | x
  · refine ⟨w₄, ?_, hundone, hkept.trans hkept₄⟩
    rw [hleave, perform_leave_error, hundo]
  · rcases hflag : after.marked l.nextFlag with _ | _
    · refine ⟨w₅, ?_, hreleased, hkept.trans hkept₅⟩
      have hrelease' : (g.database.execute t.connection
          (g.database.dialect.release name)).perform w₃ = (.ok (), w₅) := hrelease
      rw [hleave, hflag, perform_leave_ok, hrelease']
    · refine ⟨w₄, ?_, hundone, hkept.trans hkept₄⟩
      rw [hleave, hflag, perform_leave_marked, hundo]

/-! ## Marks -/

/-- Marking a scope around moves nothing but its flag. -/
theorem Agrees.mark (h : g.Agrees w here p l marks) (depth : Nat) :
    g.ComesTo (Script.mark here depth) w here p marks (.ok (), l.mark p depth) := by
  have hflag : p.flags[depth]? = here.contexts[depth]?.map (·.flag) := by
    rw [← h.flags, List.getElem?_map]
  rw [Script.mark, Ledger.mark, hflag]
  rcases here.contexts[depth]? with _ | ctx
  · exact ⟨w, rfl, h, .refl _ w⟩
  · have hmarked : w.flags = l.marked := h.standing.marked
    refine ⟨w.setFlag ctx.flag, rfl, { h with
      standing := { h.standing with
        marked := by rw [← hmarked]; rfl
        waiting := fun u hu => { h.standing.waiting u hu with } }
      current := fun t ht => { h.current t ht with
        waits := { (h.current t ht).waits with } } }, ⟨.refl _ _, fun _ _ _ => rfl, Nat.le_refl _⟩⟩

/-! ## All scopes -/

/-- A scope where no transaction is active. -/
theorem Follows.outside (hf : g.Follows script account) (h : g.Agrees w here p l marks)
    (hvenue : p.venue = .outside ∨ p.venue = .alone) (hretries : settings.retries = 0)
    (hpropagation : settings.propagation ≠ .default) :
    g.ComesTo (g.database.runOutside (Scope.setAside here.scope) settings
        (Script.scopeWork (fun _ => script) g.database here.contexts)) w
      here p marks (g.enclose settings account p l) := by
  rw [runOutside]
  rcases hp : settings.propagation
  · exact absurd hp hpropagation
  · exact hf.begin h hretries (by rcases hvenue with hv | hv <;> rw [hv, hp] <;> rfl)
  · have hrefused : g.enclose settings account p l = (.error (.noActiveTransaction .mandatory), l) := by
      rw [Premises.enclose, hp]
      rcases hvenue with hv | hv <;> rw [hv] <;> rfl
    rw [hrefused]
    exact ⟨w, rfl, h, .refl _ w⟩
  · exact hf.begin h hretries (by rcases hvenue with hv | hv <;> rw [hv, hp] <;> rfl)
  · exact hf.begin h hretries (by rcases hvenue with hv | hv <;> rw [hv, hp] <;> rfl)
  all_goals exact hf.free h (by rcases hvenue with hv | hv <;> rw [hv, hp] <;> rfl)

/-- A scope does with its work what its kind says, wherever it is run. -/
theorem Follows.enclose (hf : g.Follows script account)
    (hlocked : ∀ (p : Place) (l : Ledger) (flag : FlagId), p.venue = .within flag →
      l.wrote = true → l.locks = true → Locked l (account p l).2)
    (h : g.Agrees w here p l marks) (hretries : settings.retries = 0)
    (hpropagation : settings.propagation ≠ .default) :
    g.ComesTo (g.database.withTransaction here.scope settings
        (Script.scopeWork (fun _ => script) g.database here.contexts)) w
      here p marks (g.enclose settings account p l) := by
  obtain ⟨_ | ⟨⟨t, flag⟩ | _, suspended⟩, contexts⟩ := here
  · exact hf.outside h (.inl h.venue.eq_outside) hretries hpropagation
  · have hvenue := h.venue.eq_within
    show g.ComesTo (g.database.runInside t flag suspended settings _) w _ p marks _
    rw [runInside]
    -- the propagations in their order
    rcases hp : settings.propagation
    · exact absurd hp hpropagation
    · exact hf.join h (by rw [hvenue, hp]; rfl)
    · exact hf.join h (by rw [hvenue, hp]; rfl)
    · exact hf.begin h hretries (by rw [hvenue, hp]; rfl)
    · exact hf.divide hlocked h hretries (by rw [hvenue, hp]; rfl)
    · exact hf.join h (by rw [hvenue, hp]; rfl)
    · exact hf.free h (by rw [hvenue, hp]; rfl)
    · have hrefused : g.enclose settings account p l
          = (.error (.illegalTransactionState .never), l) := by
        rw [Premises.enclose, hvenue, hp]
        rfl
      rw [hrefused]
      exact ⟨w, rfl, h, .refl _ w⟩
  · have hsuspended : Scope.setAside (some ⟨.nonTransactional, suspended⟩) = suspended :=
      List.append_nil suspended
    have hrun := hf.outside h (.inr h.venue.eq_alone) hretries hpropagation
    rw [hsuspended] at hrun
    exact hrun

/-- **Refinement.** A program of nested scopes does what it means, wherever it is run. -/
theorem follows_meaning (g : Premises δ α) (prog : Program α ρ) :
    g.Follows (prog.script : Script α τ ρ) (prog.meaning g) := by
  -- the hypotheses are about the work and the rest at every place, so suspended scopes and
  -- those inside of a savepoint are covered alike
  induction prog with
  | finish result => exact fun w here p l marks h => ⟨w, rfl, h, .refl _ w⟩
  | write operation next ih =>
    intro w here p l marks h
    obtain ⟨w₁, hrun₁, hagrees₁, hkept₁⟩ := h.perform_answer operation
    obtain ⟨w', hrun, hagrees, hkept⟩ := ih (g.write operation p l).1 w₁ here p _ marks hagrees₁
    refine ⟨w', ?_, hagrees, hkept₁.trans hkept⟩
    rw [Program.script, Script.run, perform_outcome_bind, hrun₁]
    exact hrun
  | setRollbackOnly depth next ih =>
    intro w here p l marks h
    obtain ⟨w₁, hrun₁, hagrees₁, hkept₁⟩ := h.mark depth
    obtain ⟨w', hrun, hagrees, hkept⟩ := ih w₁ here p _ marks hagrees₁
    refine ⟨w', ?_, hagrees, hkept₁.trans hkept⟩
    rw [Program.script, Script.run, perform_bind_ok hrun₁]
    exact hrun
  | scope propagation isolation work next ihWork ih =>
    intro w here p l marks h
    let settings := g.settings.normalize { propagation, isolation }
    have hpropagation : settings.propagation ≠ .default :=
      Propagation.normalize_ne_default propagation g.settings.defaultPropagation
    obtain ⟨w₁, hrun₁, hagrees₁, hkept₁⟩ : g.ComesTo
        (g.database.withTransaction here.scope settings
          (Script.scopeWork (fun _ => work.script) g.database here.contexts)) w
        here p marks (g.enclose settings (work.meaning g) p l) :=
      ihWork.enclose (locked_meaning work) h rfl hpropagation
    obtain ⟨w', hrun, hagrees, hkept⟩ :=
      ih (g.enclose settings (work.meaning g) p l).1 w₁ here p _ marks hagrees₁
    refine ⟨w', ?_, hagrees, hkept₁.trans hkept⟩
    rw [Program.script, Script.perform_run_scope, Script.perform_transaction, h.standing.settings,
      hrun₁]
    exact hrun

/-! ## Whole runs -/

/-- A world in which nothing is going on, with the contents and the settings of the
premises. -/
structure Starts (g : Premises δ α) (w : World (Storage δ) τ) : Prop where
  tidy : w.store.Tidy
  unlocked : w.store.writer = none
  contents : w.store.contents = g.initial
  settings : w.settings = g.settings

/-- The ledger of a world in which nothing is going on. -/
def opening (w : World σ τ) : Ledger := { marked := w.flags, nextFlag := w.nextFlag }

theorem Starts.agrees (h : g.Starts w) : g.Agrees w {} {} (opening w) [] where
  standing := {
    tidy := h.tidy
    contents := h.contents
    settings := h.settings
    marked := rfl
    nextFlag := rfl
    waiting := fun _ hu => by cases hu
    apart := fun _ hn => by cases hn
    writer := fun c hc => by rw [h.unlocked] at hc; cases hc }
  flags := rfl
  venue := trivial
  blocked := rfl
  current := fun _ hn => by cases hn
  idle := fun _ => ⟨rfl, rfl, rfl, rfl⟩

/-- **Scope semantics.** On an engine that does what the storage does, a program comes to the
result it means, and what is committed at its end is exactly what its meaning commits. Nothing
is left going on. -/
theorem run_meaning (g : Premises δ α) {E : Engine σ} {storage : σ → Storage δ}
    (hE : E.Mirrors (Storage.engine g.schema) storage) (prog : Program α ρ) (w : World σ τ)
    (h : g.Starts (w.over storage)) :
    let ended := (prog.script.run (g.database.on E) {}).perform w
    ended.1 = (prog.meaning g {} (opening w)).1 ∧
      (storage ended.2.store).contents
        = replay g.schema (prog.meaning g {} (opening w)).2.committed g.initial ∧
      (storage ended.2.store).Tidy ∧ (storage ended.2.store).writer = none := by
  intro ended
  obtain ⟨w', hrun, hagrees, -⟩ := g.follows_meaning prog (w.over storage) {} {} _ [] h.agrees
  -- what the storage comes to is what can be seen of the engine
  have hmirrored : (prog.script.run g.database {}).perform (w.over storage)
      = (ended.1, ended.2.over storage) := Alike.script hE prog.script {} w
  rw [hrun] at hmirrored
  obtain ⟨hresult, hended⟩ := Prod.mk.inj hmirrored
  have hstore : storage ended.2.store = w'.store := congrArg World.store hended.symm
  rw [hstore]
  exact ⟨hresult.symm, hagrees.standing.contents, hagrees.standing.tidy,
    hagrees.standing.unlocked rfl⟩

/-- Contents that list the writes carried out. -/
def journal : Premises (List String) Empty where
  schema := {
    update := fun sql _ d => .ok ⟨d ++ [sql], ⟨1, 0⟩⟩
    select := fun sql _ _ => .error (Storage.syntaxError sql) }
  registry := .empty
  settings := {}
  initial := []

/-- A scope that commits a write, a savepoint that drops one, and a failure around. -/
def outliving : Program Empty Unit :=
  .scope .required .default
    (.scope .requiresNew .default
        (.write (.one { sql := "kept" }) fun _ =>
          .scope .nested .default
            (.write (.one { sql := "undone" }) fun _ => .setRollbackOnly 0 (.finish (.ok ())))
            .finish)
        fun _ => .write (.one { sql := "dropped" }) fun _ =>
          .finish (.error (.callback "failed")))
    fun _ => .finish (.ok ())

/-- It comes to the same on the storage itself and on the storage with a journal. -/
theorem run_meaning_outliving :
    let alone : World (Storage (List String)) Unit := { store := { contents := [] } }
    let written : World (Storage (List String) × List (Deed (List String))) Unit :=
      { store := ({ contents := [] }, []) }
    (journal.Starts (alone.over id) ∧ journal.Starts (written.over Prod.fst)) ∧
      ((outliving.script.run journal.database {}).perform alone).2.store.contents = ["kept"] ∧
      ((outliving.script.run (journal.database.on (journal.database.engine.withJournal id))
        {}).perform written).2.store.1.contents = ["kept"] := by
  intro alone written
  have hstarts : journal.Starts alone :=
    ⟨⟨⟨List.nodup_nil, fun _ h => by cases h⟩, rfl, fun _ _ => rfl, fun _ h => by cases h⟩,
      rfl, rfl, rfl⟩
  have hcommits : replay journal.schema
      (outliving.meaning journal {} (opening alone)).2.committed journal.initial = ["kept"] := rfl
  have halone := (run_meaning journal (.refl journal.database.engine) outliving alone hstarts).2.1
  have hwritten :=
    (run_meaning journal (.withJournal journal.database.engine id) outliving written hstarts).2.1
  rw [Database.on_engine, id] at halone
  exact ⟨⟨hstarts, hstarts⟩, halone.trans hcommits, hwritten.trans hcommits⟩

end Premises

end RowMapping
