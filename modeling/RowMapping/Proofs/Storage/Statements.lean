/-
What statements and writes come to.

A statement is refused, and then nothing has happened, or it does one of a few things to
the connection it runs on. `Executed` lists them, each with what was found when it was done,
and `Written` does the same for writes. Whatever holds of every statement is proved case by
case on these lists.
-/
import RowMapping.Storage.Snapshot

set_option autoImplicit false

namespace RowMapping

variable {δ : Type}

/-! ## Kinds of statements -/

namespace Statement

variable {statement : Statement}

/-- A statement that begins a transaction. -/
def Begins (statement : Statement) : Prop :=
  statement = .beginDeferred ∨ statement = .beginImmediate

/-- A statement that opens a transaction where none is open. -/
def Opens (statement : Statement) : Prop :=
  statement.Begins ∨ ∃ name, statement = .savepoint name

/-- A statement that ends no transaction. -/
def EndsNothing (statement : Statement) : Prop :=
  statement ≠ .commit ∧ statement ≠ .rollback

/-- A statement that divides a transaction. -/
def Divides (statement : Statement) : Prop :=
  ∃ name, statement = .savepoint name ∨ statement = .rollbackTo name ∨ statement = .release name

/-- A statement that leaves transactions alone. -/
def Prepares (statement : Statement) : Prop :=
  (∃ allowed, statement = .readUncommitted allowed) ∨ ∃ sql, statement = .foreignText sql

/-- A statement that changes no settings. -/
def KeepsSettings (statement : Statement) : Prop :=
  ∀ allowed, statement ≠ .readUncommitted allowed

theorem Begins.keepsSettings (h : statement.Begins) : statement.KeepsSettings := by
  rintro allowed rfl
  simp [Begins] at h

theorem Divides.keepsSettings (h : statement.Divides) : statement.KeepsSettings := by
  rintro allowed rfl
  obtain ⟨name, h⟩ := h
  simp at h

theorem Divides.endsNothing (h : statement.Divides) : statement.EndsNothing := by
  obtain ⟨name, rfl | rfl | rfl⟩ := h
  all_goals exact ⟨nofun, nofun⟩

end Statement

/-- A view in which a write has made a change. -/
def View.changed (view : View δ) (change : Change δ) : View δ :=
  { view with
    contents := change.contents
    dirty := view.dirty || change.result.rowsAffected != 0 }

namespace Storage

variable {c : ConnectionId} {s : Storage δ}

/-! ## Statements -/

/-- What committing an open transaction comes to. -/
inductive Committed (check : δ → Except DriverError Unit) (c : ConnectionId)
    (t : OpenTransaction δ) (s : Storage δ) : Except DriverError Unit × Storage δ → Prop
  /-- A constraint of the changed contents fails. The transaction stays open. -/
  | refused {view : View δ} {e : DriverError} (hview : t.view = some view)
      (hwriter : s.writer = some c) (hcheck : check view.contents = .error e) :
      Committed check c t s (.error e, s)
  | published {view : View δ} (hview : t.view = some view) (hwriter : s.writer = some c)
      (hcheck : check view.contents = .ok ()) :
      Committed check c t s (.ok (), (s.publish view.contents view.dirty).discard c)
  /-- Without the lock, or before the first look, there is nothing to publish. -/
  | dropped (hnothing : t.view ≠ none → s.writer ≠ some c) :
      Committed check c t s (.ok (), s.discard c)

/-- What running a statement comes to. -/
inductive Executed (check : δ → Except DriverError Unit) (c : ConnectionId) (s : Storage δ) :
    Statement → Except DriverError Unit × Storage δ → Prop
  | refused (statement : Statement) (e : DriverError) : Executed check c s statement (.error e, s)
  | begun (hnone : (s.sessions c).transaction = none) :
      Executed check c s .beginDeferred (.ok (), s.setTransaction c (some {}))
  /-- A transaction has begun that has the lock from the start. -/
  | locked (hnone : (s.sessions c).transaction = none) (hfree : s.lockedAgainst c = false) :
      Executed check c s .beginImmediate
        (.ok (), { s.setTransaction c (some { view := some (s.viewOf {}) }) with writer := some c })
  | allowed (allowed : Bool) : Executed check c s (.readUncommitted allowed)
      (.ok (), s.setSession c { s.sessions c with readUncommitted := allowed })
  | committed {t : OpenTransaction δ} {r : Except DriverError Unit × Storage δ}
      (ht : (s.sessions c).transaction = some t) (h : Committed check c t s r) :
      Executed check c s .commit r
  | rolledBack {t : OpenTransaction δ} (ht : (s.sessions c).transaction = some t) :
      Executed check c s .rollback (.ok (), s.discard c)
  | marked (name : String) : Executed check c s (.savepoint name) (s.savepoint name c)
  | wentBack {name : String} {t : OpenTransaction δ} {mark : Savepoint δ}
      {outer : List (Savepoint δ)} (ht : (s.sessions c).transaction = some t)
      (hfrom : savepointsFrom name t.savepoints = mark :: outer) :
      Executed check c s (.rollbackTo name) (.ok (), s.setTransaction c (some { t with
        view := t.view.map fun v => { v with contents := mark.contents.getD v.snapshot }
        savepoints := mark :: outer }))
  | released {name : String} {t : OpenTransaction δ} {mark : Savepoint δ}
      {outer : List (Savepoint δ)} (ht : (s.sessions c).transaction = some t)
      (hfrom : savepointsFrom name t.savepoints = mark :: outer)
      (hlasts : t.bySavepoint = true → outer ≠ []) :
      Executed check c s (.release name) (.ok (), s.setTransaction c (some { t with
        savepoints := outer }))
  /-- The outermost savepoint of a transaction that a savepoint has begun. -/
  | ended {name : String} {t : OpenTransaction δ} {mark : Savepoint δ}
      {r : Except DriverError Unit × Storage δ} (ht : (s.sessions c).transaction = some t)
      (hfrom : savepointsFrom name t.savepoints = [mark]) (hby : t.bySavepoint = true)
      (h : Committed check c t s r) : Executed check c s (.release name) r

theorem committed_commitOpen (check : δ → Except DriverError Unit) (c : ConnectionId)
    (t : OpenTransaction δ) (s : Storage δ) : Committed check c t s (s.commitOpen check c t) := by
  unfold commitOpen
  split
  · rename_i view hview
    split
    · rename_i hwriter
      split
      · rename_i e hcheck
        exact .refused hview hwriter hcheck
      · rename_i hcheck
        exact .published hview hwriter hcheck
    · rename_i hwriter
      exact .dropped fun _ => hwriter
  · rename_i hview
    exact .dropped fun h => absurd hview h

theorem executed_release (check : δ → Except DriverError Unit) (name : String)
    (c : ConnectionId) (s : Storage δ) :
    Executed check c s (.release name) (s.release check name c) := by
  unfold release
  split
  · exact .refused _ _
  · rename_i t ht
    split
    · exact .refused _ _
    · rename_i mark outer hfrom
      split
      · rename_i hends
        obtain ⟨hby, houter⟩ : t.bySavepoint = true ∧ outer = [] := by simpa using hends
        exact .ended ht (houter ▸ hfrom) hby (committed_commitOpen check c t s)
      · rename_i hends
        exact .released ht hfrom fun hby houter => hends (by simp [hby, houter])

/-- Every statement comes to one of these. -/
theorem executed (check : δ → Except DriverError Unit) (c : ConnectionId)
    (statement : Statement) (s : Storage δ) :
    Executed check c s statement (s.execute check c statement) := by
  cases statement with
  | beginDeferred =>
    show Executed check c s _ (s.begin false c)
    unfold begin
    split
    · exact .refused _ _
    · rename_i hopen
      exact .begun (by simpa using hopen)
  | beginImmediate =>
    show Executed check c s _ (s.begin true c)
    unfold begin
    split
    · exact .refused _ _
    · rename_i hopen
      rw [if_pos rfl]
      split
      · exact .refused _ _
      · rename_i hlock
        exact .locked (by simpa using hopen) (eq_false_of_ne_true hlock)
  | readUncommitted allowed => exact .allowed allowed
  | commit =>
    show Executed check c s _ (s.commit check c)
    unfold commit
    split
    · exact .refused _ _
    · rename_i t ht
      exact .committed ht (committed_commitOpen check c t s)
  | rollback =>
    show Executed check c s _ (s.rollback c)
    unfold rollback
    split
    · exact .refused _ _
    · rename_i t ht
      exact .rolledBack ht
  | savepoint name => exact .marked name
  | rollbackTo name =>
    show Executed check c s _ (s.rollbackTo name c)
    unfold rollbackTo
    split
    · exact .refused _ _
    · rename_i t ht
      split
      · exact .refused _ _
      · rename_i mark outer hfrom
        exact .wentBack ht hfrom
  | release name => exact executed_release check name c s
  | foreignText sql => exact .refused _ _

/-! ## Looking -/

/-- Outside of a transaction looking leaves no trace. -/
theorem look_closed (h : (s.sessions c).transaction = none) : (s.look c).2 = s := by
  rw [look, h]

/-- A transaction takes its snapshot when it looks, unless it has one. -/
theorem look_within {t : OpenTransaction δ} (ht : (s.sessions c).transaction = some t) :
    (s.look c).2 = s.setTransaction c (some { t with view := some (s.viewOf t) }) := by
  rw [look, ht]

/-- Looking does not ask for the lock. -/
theorem lockedAgainst_look (c : ConnectionId) (s : Storage δ) :
    (s.look c).2.lockedAgainst c = s.lockedAgainst c := by
  unfold look
  split <;> rfl

/-! ## Writes -/

/-- What a write comes to. -/
inductive Written (schema : Schema δ) (c : ConnectionId) (sql : String) (cells : List Cell)
    (s : Storage δ) : Except DriverError UpdateResult × Storage δ → Prop
  /-- The write is not tried. A transaction has looked by then. -/
  | refused (e : DriverError) : Written schema c sql cells s (.error e, (s.look c).2)
  /-- The write has failed in a transaction, which has the lock nevertheless. -/
  | failed {t : OpenTransaction δ} {e : DriverError} (ht : (s.sessions c).transaction = some t)
      (hfree : s.lockedAgainst c = false)
      (hchange : schema.update sql cells (s.viewOf t).contents = .error e) :
      Written schema c sql cells s (.error e, { (s.look c).2 with writer := some c })
  | changed {t : OpenTransaction δ} {change : Change δ}
      (ht : (s.sessions c).transaction = some t) (hfree : s.lockedAgainst c = false)
      (hchange : schema.update sql cells (s.viewOf t).contents = .ok change) :
      Written schema c sql cells s (.ok change.result,
        (({ (s.look c).2 with writer := some c }).setTransaction c
          (some { t with view := some ((s.viewOf t).changed change) })).countChanges c
            change.result.rowsAffected)
  /-- A write outside of a transaction. -/
  | published {change : Change δ} (hnone : (s.sessions c).transaction = none)
      (hfree : s.lockedAgainst c = false)
      (hchecked : checked schema.check (schema.update sql cells s.contents) = .ok change) :
      Written schema c sql cells s (.ok change.result,
        (s.publish change.contents (change.result.rowsAffected != 0)).countChanges c
          change.result.rowsAffected)

/-- Every write comes to one of these. -/
theorem written (schema : Schema δ) (c : ConnectionId) (sql : String) (cells : List Cell)
    (s : Storage δ) : Written schema c sql cells s (s.update schema c sql cells) := by
  have hrefused : ∀ e, Written schema c sql cells s (.error e, (s.look c).2) := .refused
  rcases ht : (s.sessions c).transaction with _ | t
  · -- without a transaction the row is published at once
    rw [look_closed ht] at hrefused
    rw [update, ht]
    dsimp only
    unfold writeAlone
    split
    · exact hrefused _
    · rename_i hlock
      split
      · exact hrefused _
      · rename_i change hchecked
        exact .published ht (eq_false_of_ne_true hlock) hchecked
  · -- within a transaction it is written into its view
    have hlook := look_within ht
    rw [hlook] at hrefused
    rw [update, ht]
    simp only [writeWithin]
    split
    · exact hrefused _
    · rename_i hlock
      have hfree : s.lockedAgainst c = false := eq_false_of_ne_true hlock
      split
      · exact hrefused _
      · rw [← hlook]
        unfold writeLocked
        split
        · rename_i e hchange
          exact .failed ht hfree hchange
        · rename_i change hchange
          exact .changed ht hfree hchange

end Storage

end RowMapping
