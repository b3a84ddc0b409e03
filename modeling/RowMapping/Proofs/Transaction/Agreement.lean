/-
When a world agrees with a ledger.

The current transaction shows the contents its ledger tells, the suspended ones wait
with whatever they have, and the write lock belongs to one of those that have written.
Work in a scope moves the current transaction only, and what others keep is enough
for the scope around to agree again when it goes on.
-/
import RowMapping.Proofs.Transaction.Lifetime

set_option autoImplicit false

namespace RowMapping

variable {δ τ α ρ : Type}

/-! ## Waiting transactions -/

/-- A transaction that waits: it is known, has its connection for itself, and has
changed no rows unless it is marked as having written. -/
structure Waits (w : World (Storage δ) τ) (t : Transaction) : Prop where
  number : t.id < w.nextTransaction
  taken : w.store.Taken t.connection
  held : (w.stateOf t).held = false
  changes : (w.stateOf t).written = false →
    (w.store.sessions t.connection).changes = t.changesAtBegin

/-- Everything that was there is kept but for one transaction. -/
structure Kept (mine : Option Transaction) (w w' : World (Storage δ) τ) : Prop where
  store : w.store.Keeps (fun c => ∃ t ∈ mine, t.connection = c) w'.store
  states : ∀ i, i < w.nextTransaction → (∀ t ∈ mine, t.id ≠ i) →
    w'.transactions i = w.transactions i
  numbers : w.nextTransaction ≤ w'.nextTransaction

namespace Kept

variable {mine : Option Transaction} {t u : Transaction} {w w₁ w₂ w' : World (Storage δ) τ}

theorem refl (mine : Option Transaction) (w : World (Storage δ) τ) : Kept mine w w :=
  ⟨.refl _ _, fun _ _ _ => rfl, Nat.le_refl _⟩

theorem trans (h₁ : Kept mine w w₁) (h₂ : Kept mine w₁ w₂) : Kept mine w w₂ where
  store := h₁.store.trans h₂.store fun _ _ hc => ⟨hc, hc⟩
  states i hi hm := by
    rw [h₂.states i (Nat.lt_of_lt_of_le hi h₁.numbers) hm, h₁.states i hi hm]
  numbers := Nat.le_trans h₁.numbers h₂.numbers

/-- A connection moved, and the books did not. -/
theorem of_movesOnly (h : w.SameBooks w') (hm : w.store.MovesOnly t.connection w'.store) :
    Kept (some t) w w' where
  store := hm.keeps.trans (.refl (fun _ => False) _) fun _ _ hc =>
    ⟨fun h => hc ⟨t, rfl, h.symm⟩, fun h => h⟩
  states i _ _ := congrFun h.transactions i
  numbers := Nat.le_of_eq h.nextTransaction.symm

/-- What keeps everything keeps it with an exception too. -/
theorem weaken (h : Kept none w w') (mine : Option Transaction) : Kept mine w w' where
  store := h.store.trans (.refl (fun _ => False) _) fun c _ _ => by
    refine ⟨?_, fun h => h⟩
    rintro ⟨u, hu, -⟩
    cases hu
  states i hi _ := h.states i hi fun _ ht => by cases ht
  numbers := h.numbers

/-- A transaction that was not there is not missed. -/
theorem of_fresh (h : Kept (some t) w w') (hnumber : w.nextTransaction ≤ t.id)
    (hfresh : ¬ w.store.Taken t.connection) : Kept none w w' where
  store := h.store.trans (.refl (fun _ => False) _) fun c hc _ => by
    refine ⟨?_, fun h => h⟩
    rintro ⟨u, hu, rfl⟩
    cases hu
    exact hfresh hc
  states i hi _ := h.states i hi fun u hu => by
    cases hu
    exact Nat.ne_of_gt (Nat.lt_of_lt_of_le hi hnumber)
  numbers := h.numbers

/-- What happens after a new transaction has begun may be about that one. -/
theorem after_begin {lock : Bool} (hb : Premises.Begun w w₁ t lock)
    (h : Kept (some t) w₁ w') : Kept none w w' := by
  -- the number and the connection of the new transaction were not in use before
  refine of_fresh (t := t) ⟨?_, fun i hi hm => ?_, ?_⟩ (Nat.le_of_eq hb.number.symm) hb.fresh
  · exact hb.keeps.trans h.store fun c _ hc => ⟨fun h => h, hc⟩
  · have hne : i ≠ t.id := Nat.ne_of_lt (hb.number.symm ▸ hi)
    rw [h.states i (hb.next ▸ Nat.lt_succ_of_lt hi) hm, hb.states i hne]
  · exact Nat.le_trans (hb.next ▸ Nat.le_succ _) h.numbers

theorem of_settled (h : Premises.Settled w w' t) : Kept (some t) w w' where
  store := h.keeps.trans (.refl (fun _ => False) _) fun _ _ hc =>
    ⟨fun h => hc ⟨t, rfl, h.symm⟩, fun h => h⟩
  states i _ hm := h.states i (Ne.symm (hm t rfl))
  numbers := Nat.le_of_eq h.books.1.symm

/-- The state of a transaction that is kept. -/
theorem stateOf (h : Kept mine w w') (hu : u.id < w.nextTransaction)
    (hm : ∀ t ∈ mine, t.Apart u) : w'.stateOf u = w.stateOf u :=
  h.states u.id hu fun t ht => (hm t ht).1

theorem notMine (hm : ∀ t ∈ mine, t.Apart u) : ¬ ∃ t ∈ mine, t.connection = u.connection := by
  rintro ⟨t, ht, h⟩
  exact (hm t ht).2 h

/-- Transactions that are kept keep their marks. -/
theorem any_written {ts : List Transaction} (h : Kept mine w w') (hts : ∀ u ∈ ts, Waits w u)
    (hm : ∀ t ∈ mine, ∀ u ∈ ts, t.Apart u) :
    (ts.any fun u => (w'.stateOf u).written) = ts.any fun u => (w.stateOf u).written := by
  rw [Bool.eq_iff_iff, List.any_eq_true, List.any_eq_true]
  refine exists_congr fun u => and_congr_right fun hu => ?_
  rw [h.stateOf (hts u hu).number fun t ht => hm t ht u hu]

/-- A transaction that is kept goes on waiting. -/
theorem waits (h : Kept mine w w') (hu : Waits w u) (hm : ∀ t ∈ mine, t.Apart u) :
    Waits w' u where
  number := Nat.lt_of_lt_of_le hu.number h.numbers
  taken := h.store.taken _ hu.taken (notMine hm)
  held := by rw [h.stateOf hu.number hm, hu.held]
  changes := by
    rw [h.stateOf hu.number hm, h.store.sessions _ hu.taken (notMine hm)]
    exact hu.changes

end Kept

/-! ## Agreement -/

/-- What holds of a world wherever a program runs: who waits, who may have the lock,
and what is committed. -/
structure Premises.Standing (g : Premises δ α) (w : World (Storage δ) τ)
    (suspended : List Transaction) (current : Option Transaction) (l : Ledger) : Prop where
  tidy : w.store.Tidy
  contents : w.store.contents = replay g.schema l.committed g.initial
  settings : w.settings = g.settings
  marked : w.flags = l.marked
  nextFlag : w.nextFlag = l.nextFlag
  waiting : ∀ u ∈ suspended, Waits w u
  apart : ∀ t ∈ current, ∀ u ∈ suspended, t.Apart u
  writer : ∀ c, w.store.writer = some c →
    (∃ u ∈ suspended, u.connection = c ∧ (w.stateOf u).written = true) ∨
      ∃ t ∈ current, t.connection = c

/-- The current transaction of a place: it shows what the ledger tells. -/
structure Premises.Current (g : Premises δ α) (w : World (Storage δ) τ) (t : Transaction)
    (p : Place) (l : Ledger) (marks : List (Savepoint δ)) : Prop where
  waits : Waits w t
  written : (w.stateOf t).written = l.wrote
  finished : (w.stateOf t).finished = false
  tainted : (w.stateOf t).tainted = false
  shows : w.store.Shows t.connection marks l.locks (g.contents p l)
  untouched : l.locks = false → p.below = [] ∧ l.own = []
  unwritten : l.wrote = false → l.locks = false

/-- A scope is of a venue. -/
def Venue.Fits : Venue → Option Scope → Prop
  | outside, none => True
  | alone, some ⟨.nonTransactional, _⟩ => True
  | within flag, some ⟨.transaction _ flag', _⟩ => flag' = flag
  | _, _ => False

theorem Venue.Fits.eq_within {v : Venue} {t : Transaction} {flag : FlagId}
    {suspended : List Transaction} (h : v.Fits (some ⟨.transaction t flag, suspended⟩)) :
    v = .within flag := by
  rcases v with _ | _ | flag'
  · exact h.elim
  · exact h.elim
  · exact congrArg Venue.within (Eq.symm h)

theorem Venue.Fits.eq_alone {v : Venue} {suspended : List Transaction}
    (h : v.Fits (some ⟨.nonTransactional, suspended⟩)) : v = .alone := by
  rcases v with _ | _ | flag'
  · exact h.elim
  · rfl
  · exact h.elim

theorem Venue.Fits.eq_outside {v : Venue} (h : v.Fits none) : v = .outside := by
  rcases v with _ | _ | flag'
  · rfl
  · exact h.elim
  · exact h.elim

/-- A world agrees with a ledger at a place. -/
structure Premises.Agrees (g : Premises δ α) (w : World (Storage δ) τ) (here : Surroundings)
    (p : Place) (l : Ledger) (marks : List (Savepoint δ)) : Prop where
  standing : g.Standing w (Scope.suspendedIn here.scope) (Scope.active? here.scope) l
  flags : here.contexts.map (·.flag) = p.flags
  venue : p.venue.Fits here.scope
  blocked : p.blocked = (Scope.suspendedIn here.scope).any fun u => (w.stateOf u).written
  current : ∀ t ∈ Scope.active? here.scope, g.Current w t p l marks
  idle : Scope.active? here.scope = none →
    p.below = [] ∧ l.own = [] ∧ l.wrote = false ∧ l.locks = false

namespace Premises

variable {g : Premises δ α} {w w₁ w' : World (Storage δ) τ} {here : Surroundings}
  {t : Transaction} {p : Place} {l l' : Ledger} {marks : List (Savepoint δ)}
  {suspended : List Transaction}

/-- What an action in a scope comes to, compared with a result and a ledger. -/
def ComesTo (g : Premises δ α) (action : Action (Storage δ) τ ρ) (w : World (Storage δ) τ)
    (here : Surroundings) (p : Place) (marks : List (Savepoint δ))
    (expected : Except Error ρ × Ledger) : Prop :=
  ∃ w', action.perform w = (expected.1, w') ∧ g.Agrees w' here p expected.2 marks ∧
    Kept (Scope.active? here.scope) w w'

theorem contents_eq (g : Premises δ α) (p : Place) (l : Ledger) :
    g.contents p l = replay g.schema (p.below ++ l.own)
      (replay g.schema l.committed g.initial) := by
  rw [contents, List.append_assoc, replay_append]

/-- Where no transaction is active, what is seen is what is committed. -/
theorem Agrees.contents_idle (h : g.Agrees w here p l marks)
    (hidle : Scope.active? here.scope = none) : g.contents p l = w.store.contents := by
  obtain ⟨hbelow, hown, -, -⟩ := h.idle hidle
  rw [contents_eq, hbelow, hown, h.standing.contents]
  rfl

/-- The current transaction shows the same after something else has run that keeps it. -/
theorem Current.keep (h : g.Current w t p l marks) (hk : Kept none w w')
    (hcontents : w.store.contents = replay g.schema l.committed g.initial)
    (hcontents' : w'.store.contents = replay g.schema l'.committed g.initial)
    (hown : l'.own = l.own) (hwrote : l'.wrote = l.wrote) (hlocks : l'.locks = l.locks) :
    g.Current w' t p l' marks := by
  have hnone : ∀ u ∈ (none : Option Transaction), u.Apart t := fun _ hu => by cases hu
  have hmine := Kept.notMine hnone
  have hstate := hk.stateOf h.waits.number hnone
  refine ⟨hk.waits h.waits hnone, by rw [hstate, h.written, hwrote], by rw [hstate, h.finished],
    by rw [hstate, h.tainted], ?_, by rw [hlocks, hown]; exact h.untouched,
    by rw [hlocks, hwrote]; exact h.unwritten⟩
  have hshows := h.shows.keep hk.store h.waits.taken hmine
  have hsame : g.contents p l' = if l.locks then g.contents p l else w'.store.contents := by
    rcases hl : l.locks with _ | _
    · -- without the lock the transaction has no writes
      obtain ⟨hbelow, hempty⟩ := h.untouched hl
      rw [contents_eq, hbelow, hown, hempty, ← hcontents']
      rfl
    · have hw : w.store.writer = some t.connection := h.shows.writer_iff.mpr hl
      obtain ⟨hcommitted, -⟩ := hk.store.locked _ h.waits.taken hmine hw
      rw [if_pos rfl, contents_eq, contents_eq, hown, ← hcontents, ← hcontents', hcommitted]
  rw [hlocks, hsame]
  exact hshows

/-! ## Setting the current transaction aside -/

/-- What is blocked inside of a scope of another venue. -/
theorem Agrees.blocked_setAside (h : g.Agrees w here p l marks) :
    (p.blocked || l.wrote)
      = (Scope.setAside here.scope).any fun u => (w.stateOf u).written := by
  rw [Scope.setAside, List.any_append, h.blocked]
  rcases hactive : Scope.active? here.scope with _ | t
  · rw [(h.idle hactive).2.2.1]
    rfl
  · rw [← (h.current t hactive).written]
    simp

/-- The current transaction can be suspended. -/
theorem Agrees.setAside (h : g.Agrees w here p l marks) :
    g.Standing w (Scope.setAside here.scope) none l := by
  refine { h.standing with waiting := fun u hu => ?_, apart := fun _ ht => ?_, writer := ?_ }
  · rcases List.mem_append.mp hu with hu | hu
    · exact h.standing.waiting u hu
    · exact (h.current u (by simpa using hu)).waits
  · cases ht
  · intro c hc
    left
    rcases h.standing.writer c hc with ⟨u, hu, hcu⟩ | ⟨t, ht, rfl⟩
    · exact ⟨u, List.mem_append_left _ hu, hcu⟩
    · -- the current transaction has written if it has the lock
      have hcurrent := h.current t ht
      have hlocks := hcurrent.shows.writer_iff.mp hc
      have hwrote : l.wrote = true := by
        rcases hl : l.wrote with _ | _
        · rw [hcurrent.unwritten hl] at hlocks
          exact hlocks
        · rfl
      exact ⟨t, List.mem_append_right _ (by simpa using ht), rfl, hcurrent.written.trans hwrote⟩

/-- Nobody has the lock when nobody has written. -/
theorem Standing.unlocked (h : g.Standing w suspended none l)
    (hblocked : (suspended.any fun u => (w.stateOf u).written) = false) :
    w.store.writer = none := by
  rcases hw : w.store.writer with _ | c
  · rfl
  · rcases h.writer c hw with ⟨u, hu, -, hwritten⟩ | ⟨t, ht, -⟩
    · exact absurd hwritten (by simpa using List.any_eq_false.mp hblocked u hu)
    · cases ht

/-! ## From the beginning to the end of a transaction -/

/-- A transaction that has begun is the current one. -/
theorem Standing.begin {lock : Bool} (h : g.Standing w suspended none l)
    (hb : Begun w w₁ t lock) : g.Standing w₁ suspended (some t) l where
  tidy := hb.tidy
  contents := hb.contents.trans h.contents
  settings := hb.settings.trans h.settings
  marked := hb.flags.trans h.marked
  nextFlag := hb.nextFlag.trans h.nextFlag
  waiting u hu := by
    have hkept : Kept none w w₁ := (Kept.refl (some t) w₁).after_begin hb
    exact hkept.waits (h.waiting u hu) fun _ hn => by cases hn
  apart v hv u hu := by
    cases hv
    -- who waits is known and has its connection, and neither holds of what is new
    have hwaits := h.waiting u hu
    exact ⟨fun heq => Nat.lt_irrefl _ (hb.number ▸ heq ▸ hwaits.number),
      fun heq => hb.fresh (heq ▸ hwaits.taken)⟩
  writer c hc := by
    rcases hb.writer c hc with rfl | hw
    · exact .inr ⟨t, rfl, rfl⟩
    · rcases h.writer c hw with ⟨u, hu, hcu, hwritten⟩ | ⟨_, hn, -⟩
      · have hne : u.id ≠ t.id := Nat.ne_of_lt (hb.number ▸ (h.waiting u hu).number)
        exact .inl ⟨u, hu, hcu, (congrArg _ (hb.states u.id hne)).trans hwritten⟩
      · cases hn

/-- What is noted about the current transaction does not matter to those that wait. -/
theorem Standing.modify (h : g.Standing w suspended (some t) l)
    (f : TransactionState → TransactionState) :
    Kept (some t) w (w.modifyTransaction t f) ∧
      g.Standing (w.modifyTransaction t f) suspended (some t) l := by
  have hkept : Kept (some t) w (w.modifyTransaction t f) :=
    ⟨.refl _ _, fun i _ hm => if_neg (Ne.symm (hm t rfl)), Nat.le_refl _⟩
  have hapart : ∀ u ∈ suspended, ∀ v ∈ some t, v.Apart u := fun u hu v hv => h.apart v hv u hu
  refine ⟨hkept, { h with
    waiting := fun u hu => hkept.waits (h.waiting u hu) (hapart u hu)
    writer := fun c hc => ?_ }⟩
  rcases h.writer c hc with ⟨u, hu, hcu, hwritten⟩ | ht
  · have hstate := hkept.stateOf (h.waiting u hu).number (hapart u hu)
    exact .inl ⟨u, hu, hcu, hstate ▸ hwritten⟩
  · exact .inr ht

/-- Neither does what happens on its connection, if it commits nothing. -/
theorem Standing.of_movesOnly (h : g.Standing w suspended (some t) l)
    (htaken : w.store.Taken t.connection) (hbooks : w.SameBooks w')
    (hmoves : w.store.MovesOnly t.connection w'.store)
    (hcontents : w'.store.contents = w.store.contents) :
    Kept (some t) w w' ∧ g.Standing w' suspended (some t) l := by
  have hkept := Kept.of_movesOnly hbooks hmoves
  refine ⟨hkept, {
    tidy := h.tidy.of_movesOnly htaken hmoves
    contents := hcontents.trans h.contents
    settings := hbooks.settings.trans h.settings
    marked := hbooks.flags.trans h.marked
    nextFlag := hbooks.nextFlag.trans h.nextFlag
    waiting := fun u hu => hkept.waits (h.waiting u hu) fun v hv => h.apart v hv u hu
    apart := h.apart
    writer := fun c hc => ?_ }⟩
  -- no other connection can have obtained the lock
  by_cases hne : c = t.connection
  · exact .inr ⟨t, rfl, hne.symm⟩
  · rcases h.writer c ((hmoves.writer c hne).mp hc) with ⟨u, hu, hcu, hwritten⟩ | ht
    · have hstate : w'.stateOf u = w.stateOf u := congrFun hbooks.transactions u.id
      exact .inl ⟨u, hu, hcu, hstate ▸ hwritten⟩
    · exact .inr ht

/-- A current transaction that shows what its ledger tells can be settled. Its result
and the writes that are committed are those its meaning tells. -/
theorem Standing.settle (h : g.Standing w suspended (some t) l) (result : Except Error ρ)
    (marked : Bool) (htaken : w.store.Taken t.connection)
    (hfinished : (w.stateOf t).finished = false) (htainted : (w.stateOf t).tainted = false)
    (hshows : w.store.Shows t.connection marks l.locks (g.contents {} l)) :
    ∃ w', (g.database.settle t result marked).perform w
        = ((g.conclude result marked l).1, w') ∧
      Kept (some t) w w' ∧
      g.Standing w' suspended none { l with committed := (g.conclude result marked l).2 } := by
  obtain ⟨w', hrun, hsettled, hcontents⟩ :=
    g.perform_settle result marked h.tidy htaken hfinished htainted h.contents hshows
  have hkept := Kept.of_settled hsettled
  obtain ⟨-, hflags, hnext, hsettings⟩ := hsettled.books
  refine ⟨w', hrun, hkept, {
    tidy := hsettled.tidy
    contents := hcontents
    settings := hsettings.trans h.settings
    marked := hflags.trans h.marked
    nextFlag := hnext.trans h.nextFlag
    waiting := fun u hu => ?_
    apart := fun _ hn => by cases hn
    writer := fun c hc => ?_ }⟩
  · exact hkept.waits (h.waiting u hu) fun v hv => h.apart v hv u hu
  · -- the connection that was settled holds no lock any more
    obtain ⟨hne, hw⟩ := hsettled.writer c hc
    rcases h.writer c hw with ⟨u, hu, hcu, hwritten⟩ | ⟨v, hv, hcv⟩
    · have hstate := hkept.stateOf (h.waiting u hu).number fun v hv => h.apart v hv u hu
      exact .inl ⟨u, hu, hcu, hstate ▸ hwritten⟩
    · cases hv
      exact absurd hcv.symm hne

/-! ## Going on -/

/-- A scope agrees again when what ran inside of it has come to its end and nothing
is current that it has not set aside. -/
theorem Agrees.resume (h : g.Agrees w here p l marks) (hk : Kept none w w')
    (hs : g.Standing w' (Scope.setAside here.scope) none l')
    (hown : l'.own = l.own) (hwrote : l'.wrote = l.wrote) (hlocks : l'.locks = l.locks) :
    g.Agrees w' here p l' marks := by
  refine {
    standing := { hs with waiting := fun u hu => ?_, apart := h.standing.apart, writer := ?_ }
    flags := h.flags
    venue := h.venue
    blocked := ?_
    current := fun t ht => ?_
    idle := fun hactive => ?_ }
  · exact hs.waiting u (List.mem_append_left _ hu)
  · intro c hc
    rcases hs.writer c hc with ⟨u, hu, hcu, hwritten⟩ | ⟨_, hn, -⟩
    -- who was set aside is suspended, or is current again
    · rcases List.mem_append.mp hu with hu | hu
      · exact .inl ⟨u, hu, hcu, hwritten⟩
      · exact .inr ⟨u, by simpa using hu, hcu⟩
    · cases hn
  · rw [h.blocked, hk.any_written h.standing.waiting fun _ hn => by cases hn]
  · exact (h.current t ht).keep hk h.standing.contents hs.contents hown hwrote hlocks
  · rw [hown, hwrote, hlocks]
    exact h.idle hactive

end Premises

end RowMapping
