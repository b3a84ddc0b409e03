/-
How ledgers change.

What is committed stays committed whatever the scopes around do later, and no scope
removes a write that was there before it. While some transaction has written, nobody
else commits anything: a scope inside of it is refused, or runs and changes nothing.
-/
import RowMapping.Proofs.Transaction.Meaning

set_option autoImplicit false

namespace RowMapping

variable {δ α ρ : Type}

namespace Premises

variable {g : Premises δ α} {p : Place} {l : Ledger}

/-! ## Ledgers grow -/

/-- Writes were added at most. -/
structure Grows (l l' : Ledger) : Prop where
  committed : l.committed <+: l'.committed
  own : l.own <+: l'.own

theorem Grows.refl (l : Ledger) : Grows l l := ⟨List.prefix_refl _, List.prefix_refl _⟩

theorem Grows.trans {l₁ l₂ l₃ : Ledger} (h₁ : Grows l₁ l₂) (h₂ : Grows l₂ l₃) : Grows l₁ l₃ :=
  ⟨h₁.committed.trans h₂.committed, h₁.own.trans h₂.own⟩

theorem conclude_grows (result : Except Error ρ) (marked : Bool) (l : Ledger) :
    l.committed <+: (g.conclude result marked l).2 := by
  rcases result with e | x
  · exact List.prefix_refl _
  rw [conclude]
  split
  · exact List.prefix_refl _
  · split
    · exact List.prefix_refl _
    · exact List.prefix_append _ _

theorem grows_writeAt (queries : List (Query α × List Cell)) (p : Place) (l : Ledger) :
    Grows l (g.writeAt queries p l).2 := by
  rw [writeAt]
  split
  · exact ⟨List.prefix_refl _, List.prefix_append _ _⟩
  · exact ⟨List.prefix_append _ _, List.prefix_refl _⟩
  · split
    · exact .refl l
    · rename_i isolation _
      let done := (g.carryOut (fun _ => .ok ()) queries (g.contents p l)).1
      let locks := g.database.dialect.locksOnBegin isolation || !queries.isEmpty
      exact ⟨conclude_grows _ _ { l with own := done, locks }, List.prefix_refl _⟩

theorem grows_write (write : WriteOperation α) (p : Place) (l : Ledger) :
    Grows l (g.write write p l).2 := by
  rw [Premises.write]
  split
  · exact .refl l
  · split
    · exact .refl l
    · exact grows_writeAt _ p l

theorem grows_enclose (settings : TransactionSettings) {work : Account ρ}
    (hwork : ∀ p l, Grows l (work p l).2) (p : Place) (l : Ledger) :
    Grows l (g.enclose settings work p l).2 := by
  -- refused, joined, set aside, begun and divided: only the last adds to the writes around it
  rw [enclose]
  split
  · exact .refl l
  · exact hwork _ l
  · have h := hwork (p.aside .alone l) (l.enter false)
    exact ⟨h.committed, List.prefix_refl _⟩
  · have h := hwork (p.aside (.within l.nextFlag) l)
      (l.enter (g.database.dialect.locksOnBegin settings.isolation))
    dsimp only
    split
    · exact .refl l
    · exact ⟨h.committed.trans (conclude_grows _ _ _), List.prefix_refl _⟩
  · have h := hwork (p.inner l) { l with own := [], nextFlag := l.nextFlag + 1 }
    refine ⟨h.committed, ?_⟩
    dsimp only
    split
    · exact List.prefix_append _ _
    · exact List.prefix_refl _

/-- A program adds to what is committed and to what its scope has written, and takes
nothing away. -/
theorem grows_meaning (prog : Program α ρ) (p : Place) (l : Ledger) :
    Grows l (prog.meaning g p l).2 := by
  induction prog generalizing p l with
  | finish result => exact .refl l
  | write operation next ih => exact (grows_write operation p l).trans (ih _ p _)
  | setRollbackOnly depth next ih =>
    have hmark : Grows l (l.mark p depth) := by
      rw [Ledger.mark]
      split <;> exact ⟨List.prefix_refl _, List.prefix_refl _⟩
    exact hmark.trans (ih p _)
  | scope propagation isolation work next ihWork ih =>
    have henclose := grows_enclose (g := g)
      (g.settings.normalize { propagation, isolation }) ihWork p l
    exact henclose.trans (ih _ p _)

/-! ## What the write lock rules out -/

/-- Nothing is committed and nothing is written. -/
structure Silent (l l' : Ledger) : Prop where
  committed : l'.committed = l.committed
  own : l'.own = l.own

theorem Silent.trans {l₁ l₂ l₃ : Ledger} (h₁ : Silent l₁ l₂) (h₂ : Silent l₂ l₃) :
    Silent l₁ l₃ := ⟨h₂.committed.trans h₁.committed, h₂.own.trans h₁.own⟩

theorem silent_mark (l : Ledger) (p : Place) (depth : Nat) : Silent l (l.mark p depth) := by
  rw [Ledger.mark]
  split <;> exact ⟨rfl, rfl⟩

theorem silent_write (hblocked : p.blocked = true) (write : WriteOperation α) :
    Silent l (g.write write p l).2 := by
  rw [Premises.write, hblocked]
  split <;> exact ⟨rfl, rfl⟩

/-- A transaction without writes commits nothing. -/
theorem conclude_committed (result : Except Error ρ) (marked : Bool) (hown : l.own = []) :
    (g.conclude result marked l).2 = l.committed := by
  rcases result with e | x
  · rfl
  rw [conclude]
  split
  · rfl
  · split
    · rfl
    · rw [hown, List.append_nil]

theorem silent_enclose (hblocked : p.blocked = true) (settings : TransactionSettings)
    {work : Account ρ} (hwork : ∀ p l, p.blocked = true → Silent l (work p l).2) :
    Silent l (g.enclose settings work p l).2 := by
  have haside : ∀ v, (p.aside v l).blocked = true := fun v => by rw [Place.aside, hblocked]; rfl
  rw [enclose]
  split
  · exact ⟨rfl, rfl⟩
  · exact hwork _ l hblocked
  · have h := hwork (p.aside .alone l) (l.enter false) (haside _)
    exact ⟨h.committed, rfl⟩
  · have h := hwork (p.aside (.within l.nextFlag) l)
      (l.enter (g.database.dialect.locksOnBegin settings.isolation)) (haside _)
    dsimp only
    split
    · exact ⟨rfl, rfl⟩
    · exact ⟨(conclude_committed _ _ h.own).trans h.committed, rfl⟩
  · have h := hwork (p.inner l) { l with own := [], nextFlag := l.nextFlag + 1 } hblocked
    refine ⟨h.committed, ?_⟩
    dsimp only
    split
    · rw [h.own]
      exact List.append_nil l.own
    · rfl

/-- A place where writing is blocked writes nothing and commits nothing. -/
theorem silent_meaning (prog : Program α ρ) (p : Place) (l : Ledger) (hblocked : p.blocked = true) :
    Silent l (prog.meaning g p l).2 := by
  induction prog generalizing p l with
  | finish result => exact ⟨rfl, rfl⟩
  | write operation next ih =>
    exact (silent_write hblocked operation).trans (ih _ p _ hblocked)
  | setRollbackOnly depth next ih =>
    exact (silent_mark l p depth).trans (ih p _ hblocked)
  | scope propagation isolation work next ihWork ih =>
    have henclose := silent_enclose (g := g) (l := l) hblocked
      (g.settings.normalize { propagation, isolation }) ihWork
    exact henclose.trans (ih _ p _ hblocked)

/-- The current transaction keeps the lock, so nothing is committed. -/
structure Locked (l l' : Ledger) : Prop where
  committed : l'.committed = l.committed
  wrote : l'.wrote = true
  locks : l'.locks = true

theorem locked_mark (p : Place) (depth : Nat) (hwrote : l.wrote = true) (hlocks : l.locks = true) :
    Locked l (l.mark p depth) := by
  rw [Ledger.mark]
  split <;> exact ⟨rfl, hwrote, hlocks⟩

theorem Locked.trans {l₁ l₂ l₃ : Ledger} (h₁ : Locked l₁ l₂) (h₂ : Locked l₂ l₃) :
    Locked l₁ l₃ := ⟨h₂.committed.trans h₁.committed, h₂.wrote, h₂.locks⟩

theorem locked_write {flag : FlagId} (hvenue : p.venue = .within flag) (hwrote : l.wrote = true)
    (hlocks : l.locks = true) (write : WriteOperation α) :
    Locked l (g.write write p l).2 := by
  rw [Premises.write]
  split
  · exact ⟨rfl, hwrote, hlocks⟩
  · split
    · exact ⟨rfl, hwrote, hlocks⟩
    · rw [writeAt, hvenue]
      exact ⟨rfl, rfl, by rw [hlocks]; rfl⟩

theorem locked_enclose {flag : FlagId} (hvenue : p.venue = .within flag)
    (hwrote : l.wrote = true) (hlocks : l.locks = true) (settings : TransactionSettings)
    {work : Account ρ} (hsilent : ∀ p l, p.blocked = true → Silent l (work p l).2)
    (hwork : ∀ (p : Place) (l : Ledger) (flag : FlagId), p.venue = .within flag →
      l.wrote = true → l.locks = true → Locked l (work p l).2) :
    Locked l (g.enclose settings work p l).2 := by
  have haside : ∀ v, (p.aside v l).blocked = true := fun v => by
    rw [Place.aside, hwrote, Bool.or_true]
  rw [enclose]
  split
  · exact ⟨rfl, hwrote, hlocks⟩
  · exact hwork _ l flag hvenue hwrote hlocks
  · have h := hsilent (p.aside .alone l) (l.enter false) (haside _)
    exact ⟨h.committed, hwrote, hlocks⟩
  · have h := hsilent (p.aside (.within l.nextFlag) l)
      (l.enter (g.database.dialect.locksOnBegin settings.isolation)) (haside _)
    dsimp only
    split
    · exact ⟨rfl, hwrote, hlocks⟩
    · exact ⟨(conclude_committed _ _ h.own).trans h.committed, hwrote, hlocks⟩
  · have h := hwork (p.inner l) { l with own := [], nextFlag := l.nextFlag + 1 } l.nextFlag rfl
      hwrote hlocks
    exact ⟨h.committed, h.wrote, h.locks⟩

/-- A transaction that has the lock keeps it, and nothing is committed meanwhile. -/
theorem locked_meaning (prog : Program α ρ) (p : Place) (l : Ledger) (flag : FlagId)
    (hvenue : p.venue = .within flag) (hwrote : l.wrote = true) (hlocks : l.locks = true) :
    Locked l (prog.meaning g p l).2 := by
  induction prog generalizing p l flag with
  | finish result => exact ⟨rfl, hwrote, hlocks⟩
  | write operation next ih =>
    have h := locked_write (g := g) hvenue hwrote hlocks operation
    exact h.trans (ih _ p _ flag hvenue h.wrote h.locks)
  | setRollbackOnly depth next ih =>
    have h := locked_mark p depth hwrote hlocks
    exact h.trans (ih p _ flag hvenue h.wrote h.locks)
  | scope propagation isolation work next ihWork ih =>
    have h := locked_enclose (g := g) hvenue hwrote hlocks
      (g.settings.normalize { propagation, isolation }) (silent_meaning work) ihWork
    exact h.trans (ih _ p _ flag hvenue h.wrote h.locks)

end Premises

end RowMapping
