/-
What a transaction shows while nobody else can write.

A transaction that has neither read nor written shows what is committed. Once it has
taken the write lock it shows its own contents, and what it took its snapshot of is
still what is committed, since only the owner of the lock can commit a change.
`Shows` is this invariant. Each statement of a transaction keeps it, and the lemmas
below say which contents are shown afterwards.
-/
import RowMapping.Proofs.Storage.Connections

set_option autoImplicit false

namespace RowMapping

variable {δ : Type}

namespace Storage

/-- The transaction open on a connection shows the contents `d`. Either it has the
write lock or it has not looked at anything yet; `marks` are its savepoints. -/
def Shows (s : Storage δ) (c : ConnectionId) (marks : List (Savepoint δ)) (locks : Bool)
    (d : δ) : Prop :=
  ∃ view : Option (View δ), (s.sessions c).transaction = some ⟨view, marks, false⟩ ∧
    match view with
    | none => locks = false ∧ d = s.contents ∧ s.writer ≠ some c
    | some v => locks = true ∧ d = v.contents ∧ v.snapshot = s.contents ∧
        v.version = s.version ∧ s.writer = some c

namespace Shows

variable {s s' : Storage δ} {c : ConnectionId} {marks : List (Savepoint δ)} {locks : Bool} {d : δ}

/-- A transaction has the lock if and only if it is the writer. -/
theorem writer_iff (h : s.Shows c marks locks d) : s.writer = some c ↔ locks = true := by
  obtain ⟨_ | v, -, hv⟩ := h
  · rw [hv.1]
    exact ⟨fun hw => absurd hw hv.2.2, fun hl => by cases hl⟩
  · exact ⟨fun _ => hv.1, fun _ => hv.2.2.2.2⟩

/-- What is shown outlives everything that others do while they keep the connection. -/
theorem keep {mine : ConnectionId → Prop} (h : s.Shows c marks locks d) (hk : s.Keeps mine s')
    (htaken : s.Taken c) (hmine : ¬ mine c) :
    s'.Shows c marks locks (if locks then d else s'.contents) := by
  have hsession := hk.sessions c htaken hmine
  have hwriter := hk.writer c htaken hmine
  -- only the owner of the lock commits, so what it took its snapshot of is still committed
  obtain ⟨_ | v, ht, hv⟩ := h
  · obtain ⟨rfl, -, hw⟩ := hv
    exact ⟨none, by rw [hsession, ht], rfl, rfl, fun hw' => hw (hwriter.mp hw')⟩
  · obtain ⟨rfl, rfl, hs, hn, hw⟩ := hv
    obtain ⟨hc, hn'⟩ := hk.locked c htaken hmine hw
    exact ⟨some v, by rw [hsession, ht], rfl, rfl, by rw [hc, hs], by rw [hn', hn],
      hwriter.mpr hw⟩

end Shows

/-! ## Beginning -/

/-- A transaction that takes nothing shows what is committed. -/
theorem begin_deferred {s : Storage δ} {c : ConnectionId}
    (h : (s.sessions c).transaction = none) (hfree : s.writer ≠ some c) :
    (s.begin false c).1 = .ok () ∧ (s.begin false c).2.Shows c [] false s.contents ∧
      (s.begin false c).2.contents = s.contents := by
  simp only [begin, h, Option.isSome_none, Bool.false_eq_true, if_false]
  exact ⟨trivial, ⟨none, by simp [setTransaction], rfl, rfl, hfree⟩, rfl⟩

/-- A transaction that takes the lock at once shows what is committed. -/
theorem begin_immediate {s : Storage δ} {c : ConnectionId}
    (h : (s.sessions c).transaction = none) (hfree : s.writer = none) :
    (s.begin true c).1 = .ok () ∧ (s.begin true c).2.Shows c [] true s.contents ∧
      (s.begin true c).2.contents = s.contents := by
  have hlock : s.lockedAgainst c = false := by simp [lockedAgainst, hfree]
  simp only [begin, h, Option.isSome_none, Bool.false_eq_true, if_false, if_true, hlock]
  exact ⟨trivial, ⟨some (s.viewOf {}), by simp [setTransaction], rfl, rfl, rfl, rfl, rfl⟩, rfl⟩

/-! ## Writing -/

/-- Writing in a transaction that has the lock or finds it free: the schema decides by
the contents shown, and the transaction has the lock from then on. -/
theorem update_within {schema : Schema δ} {s : Storage δ} {c : ConnectionId}
    {marks : List (Savepoint δ)} {locks : Bool} {d : δ} (h : s.Shows c marks locks d)
    (hfree : ∀ i, s.writer = some i → i = c) (sql : String) (cells : List Cell) :
    (s.update schema c sql cells).1 = (schema.update sql cells d).map (·.result) ∧
      (s.update schema c sql cells).2.Shows c marks true
        (match schema.update sql cells d with
          | .ok changed => changed.contents
          | .error _ => d) ∧
      (s.update schema c sql cells).2.contents = s.contents ∧
      (s.update schema c sql cells).2.writer = some c := by
  obtain ⟨view, ht, hv⟩ := h
  have hlock : s.lockedAgainst c = false := by
    simp only [lockedAgainst]
    rcases hw : s.writer with _ | i
    · rfl
    · simp [hfree i hw]
  -- the view taken for the write shows `d`, on the snapshot of what is committed
  obtain ⟨v, hview, hd, hsnap, hversion⟩ : ∃ v, s.viewOf ⟨view, marks, false⟩ = v ∧
      v.contents = d ∧ v.snapshot = s.contents ∧ v.version = s.version := by
    rcases view with _ | v
    · exact ⟨_, rfl, hv.2.1.symm, rfl, rfl⟩
    · exact ⟨v, rfl, hv.2.1.symm, hv.2.2.1, hv.2.2.2.1⟩
  -- a view on what is committed is not stale, so the write is not refused
  have hstale : ¬ (v.version < s.version) := by rw [hversion]; exact Nat.lt_irrefl _
  have hlock' : ∀ t, (s.setTransaction c t).lockedAgainst c = false := fun _ => hlock
  have hwithin : s.update schema c sql cells
      = s.writeWithin (schema.update sql cells) c ⟨view, marks, false⟩ := by
    simp only [update, ht]
  have hversion' : ∀ t, (s.setTransaction c t).version = s.version := fun _ => rfl
  rw [hwithin]
  simp only [writeWithin, hview, hlock', hversion', hstale, decide_false, Bool.and_false,
    Bool.false_eq_true, if_false, writeLocked, hd]
  rcases hchange : schema.update sql cells d with e | changed
  · exact ⟨rfl, ⟨some v, by simp [setTransaction], rfl, hd.symm, hsnap, hversion, rfl⟩, rfl, rfl⟩
  · refine ⟨rfl, ⟨some { v with contents := changed.contents, dirty := ?_ }, ?_, rfl, rfl, hsnap,
      hversion, rfl⟩, rfl, rfl⟩
    · exact v.dirty || changed.result.rowsAffected != 0
    · simp only [countChanges, setTransaction, sessions_setSession]

/-- Writing outside of a transaction while the lock is free: what passes the check is
committed at once. -/
theorem update_alone {schema : Schema δ} {s : Storage δ} {c : ConnectionId}
    (h : (s.sessions c).transaction = none) (hfree : s.writer = none) (sql : String)
    (cells : List Cell) :
    (s.update schema c sql cells).1
        = (checked schema.check (schema.update sql cells s.contents)).map (·.result) ∧
      (s.update schema c sql cells).2.contents
        = (match checked schema.check (schema.update sql cells s.contents) with
          | .ok changed => changed.contents
          | .error _ => s.contents) ∧
      (s.update schema c sql cells).2.writer = none ∧
      ((s.update schema c sql cells).2.sessions c).transaction = none := by
  have hlock : s.lockedAgainst c = false := by simp [lockedAgainst, hfree]
  simp only [update, h, writeAlone, hlock, Bool.false_eq_true, if_false]
  -- the change is refused by the schema, or by the check, or it is published
  split
  · rename_i e he
    exact ⟨by rw [he]; rfl, by rw [he], hfree, h⟩
  · rename_i changed hchanged
    refine ⟨by rw [hchanged]; rfl, by rw [hchanged]; rfl, hfree, ?_⟩
    simp only [countChanges, sessions_setSession]
    exact h

/-! ## Ending -/

/-- Committing publishes what is shown, unless a constraint of the changed contents
fails. Then nothing happens. -/
theorem commit_shows (check : δ → Except DriverError Unit) {s : Storage δ} {c : ConnectionId}
    {marks : List (Savepoint δ)} {locks : Bool} {d : δ} (h : s.Shows c marks locks d) :
    match if locks then check d else .ok () with
    | .error e => s.commit check c = (.error e, s)
    | .ok _ => (s.commit check c).1 = .ok () ∧ (s.commit check c).2.contents = d ∧
        ((s.commit check c).2.sessions c).transaction = none ∧
        (s.commit check c).2.writer ≠ some c := by
  -- without a view there is nothing to check and nothing to publish
  obtain ⟨_ | v, ht, hv⟩ := h
  · obtain ⟨rfl, rfl, -⟩ := hv
    simp only [commit, ht, commitOpen, Bool.false_eq_true, if_false, discard]
    refine ⟨trivial, ?_, by simp [setTransaction], ?_⟩ <;> unfold unlock <;> split
    · rfl
    · rfl
    · exact fun h => by cases h
    · assumption
  · obtain ⟨rfl, rfl, -, -, hw⟩ := hv
    rcases hcheck : check v.contents with e | _
    · simp only [if_true, hcheck, commit, ht, commitOpen, hw]
    · have hwriter : ((s.publish v.contents v.dirty).setTransaction c none).writer = some c := hw
      simp only [if_true, hcheck, commit, ht, commitOpen, hw, discard, unlock, hwriter]
      exact ⟨trivial, rfl, by simp [setTransaction], fun h => by cases h⟩

/-- Rolling back leaves what is committed. -/
theorem rollback_shows {s : Storage δ} {c : ConnectionId} {marks : List (Savepoint δ)}
    {locks : Bool} {d : δ} (h : s.Shows c marks locks d) :
    (s.rollback c).1 = .ok () ∧ (s.rollback c).2.contents = s.contents ∧
      ((s.rollback c).2.sessions c).transaction = none ∧
      (s.rollback c).2.writer ≠ some c := by
  obtain ⟨view, ht, -⟩ := h
  simp only [rollback, ht, discard]
  refine ⟨trivial, ?_, by simp [setTransaction], ?_⟩ <;> unfold unlock <;> split
  · rfl
  · rfl
  · exact fun h => by cases h
  · assumption

/-! ## Savepoints -/

/-- A savepoint remembers what is shown, if there is anything to remember. -/
theorem savepoint_shows {s : Storage δ} {c : ConnectionId} {marks : List (Savepoint δ)}
    {locks : Bool} {d : δ} (h : s.Shows c marks locks d) (name : String) :
    (s.savepoint name c).1 = .ok () ∧
      (s.savepoint name c).2.Shows c (⟨name, if locks then some d else none⟩ :: marks) locks d ∧
      (s.savepoint name c).2.contents = s.contents ∧
      ((s.savepoint name c).2.sessions c).changes = (s.sessions c).changes := by
  obtain ⟨_ | v, ht, hv⟩ := h
  · obtain ⟨rfl, rfl, hw⟩ := hv
    refine ⟨rfl, ⟨none, ?_, rfl, rfl, hw⟩, rfl, ?_⟩ <;> simp [savepoint, ht, setTransaction]
  · obtain ⟨rfl, rfl, hs, hn, hw⟩ := hv
    refine ⟨rfl, ⟨some v, ?_, rfl, rfl, hs, hn, hw⟩, rfl, ?_⟩ <;>
      simp [savepoint, ht, setTransaction]

theorem savepointsFrom_head {name : String} (contents : Option δ)
    (marks : List (Savepoint δ)) :
    savepointsFrom name (⟨name, contents⟩ :: marks) = ⟨name, contents⟩ :: marks := by
  simp [savepointsFrom]

/-- Rolling back to the innermost savepoint shows again what it remembers, and what is
committed if it remembers nothing. -/
theorem rollbackTo_shows {s : Storage δ} {c : ConnectionId} {marks : List (Savepoint δ)}
    {name : String} {remembered : Option δ} {locks : Bool} {d : δ}
    (h : s.Shows c (⟨name, remembered⟩ :: marks) locks d)
    (hnone : locks = false → remembered = none) :
    (s.rollbackTo name c).1 = .ok () ∧
      (s.rollbackTo name c).2.Shows c (⟨name, remembered⟩ :: marks) locks
        (remembered.getD s.contents) ∧
      (s.rollbackTo name c).2.contents = s.contents ∧
      ((s.rollbackTo name c).2.sessions c).changes = (s.sessions c).changes := by
  -- without a view no contents can have been remembered
  obtain ⟨_ | v, ht, hv⟩ := h
  · obtain ⟨rfl, rfl, hw⟩ := hv
    simp only [rollbackTo, ht, savepointsFrom_head]
    refine ⟨trivial, ⟨none, by simp [setTransaction], rfl, ?_, hw⟩, rfl, by simp [setTransaction]⟩
    rw [hnone rfl]
    rfl
  · obtain ⟨rfl, rfl, hs, hn, hw⟩ := hv
    simp only [rollbackTo, ht, savepointsFrom_head]
    exact ⟨trivial, ⟨some { v with contents := remembered.getD v.snapshot },
      by simp [setTransaction], rfl, by rw [hs], hs, hn, hw⟩, rfl, by simp [setTransaction]⟩

/-- Releasing the innermost savepoint changes nothing that is shown. -/
theorem release_shows (check : δ → Except DriverError Unit) {s : Storage δ} {c : ConnectionId}
    {marks : List (Savepoint δ)} {name : String} {remembered : Option δ} {locks : Bool} {d : δ}
    (h : s.Shows c (⟨name, remembered⟩ :: marks) locks d) :
    (s.release check name c).1 = .ok () ∧ (s.release check name c).2.Shows c marks locks d ∧
      (s.release check name c).2.contents = s.contents ∧
      ((s.release check name c).2.sessions c).changes = (s.sessions c).changes := by
  obtain ⟨view, ht, hv⟩ := h
  simp only [release, ht, savepointsFrom_head, Bool.false_and, Bool.false_eq_true, if_false]
  refine ⟨trivial, ⟨view, by simp [setTransaction], ?_⟩, rfl, by simp [setTransaction]⟩
  rcases view with _ | v <;> exact hv

end Storage

end RowMapping
