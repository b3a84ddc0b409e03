/-
The statements of scopes make up blocks.

What runs in a scope leaves every connection alone that was in use before, but for the
one of the active transaction, on which it sets savepoints and leaves them. Every
other connection sees whole transactions only. This is kept by whatever a scope does,
and by the scopes in it, however deep they are.
-/
import RowMapping.Proofs.Transaction.Effects
import RowMapping.Proofs.Transaction.Operations
import RowMapping.Proofs.Transaction.StatementRuns

set_option autoImplicit false

namespace RowMapping

variable {σ τ α ρ κ : Type} {P : Pool σ}

/-- A world in which a scope can run, with a transaction active or not. -/
structure Ready (P : Pool σ) (active : Option Transaction) (w : World σ τ) : Prop where
  sound : P.sound w.store
  taken : ∀ t ∈ active, P.taken w.store t.connection
  numbered : ∀ t ∈ active, t.id < w.nextTransaction

theorem Ready.spared {active : Option Transaction} {w w' : World σ τ} (hw : Ready P active w)
    (h : Spares P (fun _ => False) w w') : Ready P active w' where
  sound := h.sound
  taken t ht := h.taken t.connection (hw.taken t ht) fun hf => hf
  numbered t ht := Nat.lt_of_lt_of_le (hw.numbered t ht) h.numbers

/-- A transaction that has just begun is active. -/
theorem Ready.begun {m : Manager σ α} {isolation : Isolation} {t : Transaction}
    {w w' : World σ τ} (h : Manager.Begins P m isolation w t w') : Ready P (some t) w' := by
  refine ⟨h.sound, ?_, ?_⟩
  · rintro u ⟨⟩
    exact h.obtained
  · rintro u ⟨⟩
    exact h.numbered

/-- What has become of a world, with the events on the way. Of the transactions there
were, only the active one has got savepoints, and none was finished. Whole transactions
were run on connections that were not in use, and on the others but the active one
nothing. -/
structure Bounded (d : Dialect α) (P : Pool σ) (active : Option Transaction)
    (new : List (Event τ)) (w w' : World σ τ) : Prop where
  sound : P.sound w'.store
  taken : ∀ c, P.taken w.store c → P.taken w'.store c
  numbers : w.nextTransaction ≤ w'.nextTransaction
  finished : ∀ i, i < w.nextTransaction →
    (w'.transactions i).finished = (w.transactions i).finished
  counted : ∀ i, i < w.nextTransaction → (∀ t ∈ active, i ≠ t.id) →
    (w'.transactions i).savepoints = (w.transactions i).savepoints
  trace : w'.trace = w.trace ++ new
  alone : OnlyCommitFails d new → ∀ c, P.taken w.store c → (∀ t ∈ active, c ≠ t.connection) →
    statementsOn c new = []
  blocks : OnlyCommitFails d new → ∀ c, ¬ P.taken w.store c → Blocks d (statementsOn c new)

/-- Beside this, savepoints were set and left on the connection of the active
transaction. -/
structure Conforms (d : Dialect α) (P : Pool σ) (active : Option Transaction)
    (new : List (Event τ)) (w w' : World σ τ) : Prop extends Bounded d P active new w w' where
  nested : OnlyCommitFails d new → ∀ t ∈ active, ∃ count : Nat,
    Nested d (namesAfter (w.stateOf t).savepoints count) (statementsOn t.connection new) ∧
    (w'.stateOf t).savepoints = (w.stateOf t).savepoints + UInt32.ofNat count

theorem OnlyCommitFails.of_append {d : Dialect α} {first second : List (Event τ)}
    (h : OnlyCommitFails d (first ++ second)) :
    OnlyCommitFails d first ∧ OnlyCommitFails d second :=
  ⟨fun x s hs => h x s (List.mem_append_left second hs),
    fun x s hs => h x s (List.mem_append_right first hs)⟩

namespace Bounded

variable {d : Dialect α} {active : Option Transaction} {new new' : List (Event τ)}
  {w w₁ w' : World σ τ}

theorem ready (h : Bounded d P active new w w') (hw : Ready P active w) : Ready P active w' where
  sound := h.sound
  taken t ht := h.taken t.connection (hw.taken t ht)
  numbered t ht := Nat.lt_of_lt_of_le (hw.numbered t ht) h.numbers

theorem trans (hw : Ready P active w) (h₁ : Bounded d P active new w w₁)
    (h₂ : Bounded d P active new' w₁ w') : Bounded d P active (new ++ new') w w' where
  sound := h₂.sound
  taken c hc := h₂.taken c (h₁.taken c hc)
  numbers := Nat.le_trans h₁.numbers h₂.numbers
  finished i hi :=
    (h₂.finished i (Nat.lt_of_lt_of_le hi h₁.numbers)).trans (h₁.finished i hi)
  counted i hi hne :=
    (h₂.counted i (Nat.lt_of_lt_of_le hi h₁.numbers) hne).trans (h₁.counted i hi hne)
  trace := by rw [h₂.trace, h₁.trace, List.append_assoc]
  alone honly c hc hne := by
    obtain ⟨honly₁, honly₂⟩ := honly.of_append
    rw [statementsOn_append, h₁.alone honly₁ c hc hne, h₂.alone honly₂ c (h₁.taken c hc) hne]
    rfl
  blocks honly c hc := by
    obtain ⟨honly₁, honly₂⟩ := honly.of_append
    rw [statementsOn_append]
    refine (h₁.blocks honly₁ c hc).append ?_
    by_cases hc₁ : P.taken w₁.store c
    · -- it was taken for good, so nothing more is run on it
      have hne : ∀ t ∈ active, c ≠ t.connection := fun t ht heq => hc (heq ▸ hw.taken t ht)
      rw [h₂.alone honly₂ c hc₁ hne]
      exact .nil
    · exact h₂.blocks honly₂ c hc₁

/-- Statements on the connection of the active transaction. -/
theorem of_ran {t : Transaction} {said : List Said} (hw : Ready P (some t) w)
    (hspares : Spares P (fun _ => False) w w') (hothers : Manager.OthersStay t w w')
    (hfinished : (w'.stateOf t).finished = (w.stateOf t).finished)
    (hran : Ran t.connection said w w') :
    Bounded d P (some t) (eventsOn t.connection said) w w' where
  sound := hspares.sound
  taken c hc := hspares.taken c hc fun h => h
  numbers := hspares.numbers
  finished i _ := by
    by_cases hi : i = t.id
    · rw [hi]
      exact hfinished
    · rw [hothers.transactions i hi]
  counted i _ hne := by rw [hothers.transactions i (hne t rfl)]
  trace := hran
  alone _ c _ hne := statementsOn_eventsOn_of_ne (hne t rfl) said
  blocks _ c hc := by
    have hne : c ≠ t.connection := fun heq => hc (heq ▸ hw.taken t rfl)
    rw [statementsOn_eventsOn_of_ne hne]
    exact .nil

end Bounded

namespace Conforms

variable {d : Dialect α} {active : Option Transaction} {new new' : List (Event τ)}
  {w w₁ w' : World σ τ}

/-- Nothing was run, and nothing moved that counts here. -/
theorem silent (hsound : P.sound w'.store)
    (htaken : ∀ c, P.taken w.store c → P.taken w'.store c)
    (hnext : w.nextTransaction = w'.nextTransaction)
    (hstates : ∀ i, (w'.transactions i).finished = (w.transactions i).finished ∧
      (w'.transactions i).savepoints = (w.transactions i).savepoints)
    (htrace : w'.trace = w.trace ++ new) (hnothing : ∀ c, statementsOn c new = []) :
    Conforms d P active new w w' where
  sound := hsound
  taken := htaken
  numbers := Nat.le_of_eq hnext
  finished i _ := (hstates i).1
  counted i _ _ := (hstates i).2
  trace := htrace
  alone _ c _ _ := hnothing c
  blocks _ c _ := by
    rw [hnothing c]
    exact .nil
  nested _ t _ := by
    refine ⟨0, ?_, ?_⟩
    · rw [hnothing]
      exact .nil
    · rw [World.stateOf, (hstates t.id).2]
      exact (UInt32.add_zero _).symm

theorem refl (hw : P.sound w.store) : Conforms d P active ([] : List (Event τ)) w w :=
  .silent hw (fun _ h => h) rfl (fun _ => ⟨rfl, rfl⟩) (List.append_nil _).symm fun _ => rfl

theorem trans (hw : Ready P active w) (h₁ : Conforms d P active new w w₁)
    (h₂ : Conforms d P active new' w₁ w') : Conforms d P active (new ++ new') w w' where
  toBounded := h₁.toBounded.trans hw h₂.toBounded
  nested honly t ht := by
    obtain ⟨honly₁, honly₂⟩ := honly.of_append
    obtain ⟨n, hnested₁, hcount₁⟩ := h₁.nested honly₁ t ht
    obtain ⟨k, hnested₂, hcount₂⟩ := h₂.nested honly₂ t ht
    refine ⟨n + k, ?_, ?_⟩
    · rw [hcount₁] at hnested₂
      rw [statementsOn_append, ← namesAfter_append]
      exact hnested₁.append hnested₂
    · rw [hcount₂, hcount₁, UInt32.ofNat_add, UInt32.add_assoc]

/-- What leaves every transaction alone does so wherever it is run. -/
theorem of_none (hw : Ready P active w) (h : Conforms d P none new w w') :
    Conforms d P active new w w' where
  sound := h.sound
  taken := h.taken
  numbers := h.numbers
  finished := h.finished
  counted i hi _ := h.counted i hi fun _ ht => by cases ht
  trace := h.trace
  alone honly c hc _ := h.alone honly c hc fun _ ht => by cases ht
  blocks := h.blocks
  nested honly t ht := by
    refine ⟨0, ?_, ?_⟩
    · rw [h.alone honly t.connection (hw.taken t ht) fun _ ht => by cases ht]
      exact .nil
    · rw [World.stateOf, h.counted t.id (hw.numbered t ht) fun _ ht => by cases ht]
      exact (UInt32.add_zero _).symm

/-- What has begun is not finished by anything that conforms. -/
theorem unfinished {m : Manager σ α} {isolation : Isolation} {t : Transaction} {w₂ : World σ τ}
    (hbegins : Manager.Begins P m isolation w t w₁) (h : Conforms d P active new w₁ w₂) :
    (w₂.stateOf t).finished = false := by
  rw [World.stateOf, h.finished t.id hbegins.numbered]
  exact congrArg (·.finished) hbegins.state

/-- A transaction of its own: it begins, something conforms to it, and it is settled. -/
theorem own {m : Manager σ α} (hE : m.engine.Pooled P) (hd : m.dialect.CommitApart)
    (htotal : m.engine.CountsAlways) {isolation : Isolation} {t : Transaction}
    {w₂ : World σ τ} {result r : Except Error ρ} {rollbackOnly : Bool} (hw : P.sound w.store)
    (hbegin : (m.begin isolation).perform w = (.ok t, w₁))
    (hwork : Conforms m.dialect P (some t) new w₁ w₂)
    (hsettle : (m.settle t result rollbackOnly).perform w₂ = (r, w')) :
    ∃ new', Conforms m.dialect P none new' w w' := by
  obtain ⟨hisolation, hid, hnext, hothers, hran⟩ := Manager.ran_begin hd htotal hbegin
  have hbegins : Manager.Begins P m isolation w t w₁ := Manager.spares_begin hE hw hbegin
  have ht₂ : P.taken w₂.store t.connection := hwork.taken t.connection hbegins.obtained
  have hgives := Manager.spares_settle hE hwork.sound ht₂ result rollbackOnly
  rw [hsettle] at hgives
  obtain ⟨hothers', said, hran', hended⟩ :=
    Manager.ended_settle hd (hwork.unfinished hbegins) hsettle
  have hold : ∀ i, i < w.nextTransaction → i ≠ t.id ∧ i < w₁.nextTransaction := by
    intro i hi
    rw [hid, hnext]
    exact ⟨Nat.ne_of_lt hi, Nat.lt_succ_of_lt hi⟩
  -- beginning and settling speak on the connection of the transaction only
  have hother : ∀ c, c ≠ t.connection →
      statementsOn c (eventsOn t.connection (succeeded (m.dialect.begin isolation)) ++ new
        ++ eventsOn t.connection said) = statementsOn c new := by
    intro c hc
    rw [statementsOn_append, statementsOn_append, statementsOn_eventsOn_of_ne hc,
      statementsOn_eventsOn_of_ne hc, List.append_nil]
    rfl
  refine ⟨eventsOn t.connection (succeeded (m.dialect.begin isolation)) ++ new
    ++ eventsOn t.connection said, {
      sound := hgives.sound
      taken := fun c hc => ?taken
      numbers := ?numbers
      finished := fun i hi => ?finished
      counted := fun i hi _ => ?counted
      trace := ?trace
      alone := fun honly c hc _ => ?alone
      blocks := fun honly c hc => ?blocks
      nested := fun _ _ ht => by cases ht }⟩
  case taken =>
    refine hgives.taken c (hwork.taken c (hbegins.taken c hc fun h => h)) fun heq => ?_
    exact hbegins.fresh (heq ▸ hc)
  case numbers =>
    rw [hothers'.next]
    exact Nat.le_trans hbegins.numbers hwork.numbers
  case finished =>
    obtain ⟨hne, hlt⟩ := hold i hi
    rw [hothers'.transactions i hne, hwork.finished i hlt, hothers i hne]
  case counted =>
    obtain ⟨hne, hlt⟩ := hold i hi
    have hne' : ∀ u ∈ some t, i ≠ u.id := by
      rintro u ⟨⟩
      exact hne
    rw [hothers'.transactions i hne, hwork.counted i hlt hne', hothers i hne]
  case trace =>
    have htrace : w₁.trace = w.trace ++ eventsOn t.connection (succeeded (m.dialect.begin isolation)) :=
      hran
    have htrace' : w'.trace = w₂.trace ++ eventsOn t.connection said := hran'
    rw [htrace', hwork.trace, htrace, List.append_assoc, List.append_assoc, List.append_assoc]
  case alone =>
    have hne : c ≠ t.connection := fun heq => hbegins.fresh (heq ▸ hc)
    rw [hother c hne]
    refine hwork.alone honly.of_append.1.of_append.2 c (hbegins.taken c hc fun h => h) ?_
    rintro u ⟨⟩
    exact hne
  case blocks =>
    obtain ⟨honly₁, honly₂⟩ := honly.of_append
    by_cases heq : c = t.connection
    · -- all that is run on this connection is one block
      obtain ⟨count, hnested, -⟩ := hwork.nested honly₁.of_append.2 t rfl
      have hstate : (w₁.stateOf t).savepoints = 0 := congrArg (·.savepoints) hbegins.state
      rw [hstate] at hnested
      rcases hended with ⟨ending, hending, rfl⟩ | hfails
      · rw [heq, statementsOn_append, statementsOn_append, statementsOn_eventsOn,
          statementsOn_eventsOn, hisolation, ← List.append_assoc]
        exact (Block.numbered isolation hnested hending).blocks
      · exact absurd hfails honly₂.not_fails
    · rw [hother c heq]
      have hne : ∀ u ∈ some t, c ≠ u.connection := by
        rintro u ⟨⟩
        exact heq
      by_cases hc₁ : P.taken w₁.store c
      · rw [hwork.alone honly₁.of_append.2 c hc₁ hne]
        exact .nil
      · exact hwork.blocks honly₁.of_append.2 c hc₁

/-- A transaction that does not begin has run nothing, unless a statement failed. -/
theorem notBegun {m : Manager σ α} (hE : m.engine.Pooled P) (hd : m.dialect.CommitApart)
    (htotal : m.engine.CountsAlways) {isolation : Isolation} {e : Error} (hw : P.sound w.store)
    (hbegin : (m.begin isolation).perform w = (.error e, w')) :
    ∃ new', Conforms m.dialect P none new' w w' := by
  obtain ⟨hbooks, c, said, hran, hsaid⟩ := Manager.ran_begin hd htotal hbegin
  have hspares : Spares P (fun _ => False) w w' := Manager.spares_begin hE hw hbegin
  have hnothing : OnlyCommitFails m.dialect (eventsOn c said : List (Event τ)) → ∀ i,
      statementsOn i (eventsOn c said : List (Event τ)) = [] := by
    intro honly i
    rcases hsaid with rfl | hfails
    · rfl
    · exact absurd hfails honly.not_fails
  exact ⟨eventsOn c said, {
    sound := hspares.sound
    taken := fun i hi => hspares.taken i hi fun h => h
    numbers := hspares.numbers
    finished := fun i _ => by rw [hbooks.transactions]
    counted := fun i _ _ => by rw [hbooks.transactions]
    trace := hran
    alone := fun honly i _ _ => hnothing honly i
    blocks := fun honly i _ => by
      rw [hnothing honly i]
      exact .nil
    nested := fun _ _ ht => by cases ht }⟩

/-- A savepoint of the active transaction: it is set, something conforms to it, and it is
left. -/
theorem savepoint {m : Manager σ α} (hE : m.engine.Pooled P) (hd : m.dialect.CommitApart)
    {t : Transaction} {o : Opened} {w₂ : World σ τ} {result r : Except Error ρ}
    (hw : Ready P (some t) w)
    (hopen : (m.openAttempt (.savepoint t)).perform w = (.ok o, w₁))
    (hwork : Conforms m.dialect P (some t) new w₁ w₂)
    (hclose : (m.closeAttempt o result).perform w₂ = (r, w')) :
    ∃ new', Conforms m.dialect P (some t) new' w w' := by
  have hopens : Manager.Opens P m w w₁ (.savepoint t) o := Manager.spares_openAttempt hE hw.sound hopen
  obtain ⟨hothers, hstate, hran, ho⟩ := Manager.ran_openAttempt_savepoint hopen
  obtain ⟨flag, rfl⟩ := ho o rfl
  have hspares : Spares P (fun _ => False) w w₁ := hopens.2
  have hquiet := Manager.quiet_leave hE t (savepointName ((w.stateOf t).savepoints + 1)) result
    (w₂.flags flag) w₂ hwork.sound
  have hleave : (m.leave t (savepointName ((w.stateOf t).savepoints + 1)) result
      (w₂.flags flag)).perform w₂ = (r, w') := hclose
  rw [hleave] at hquiet
  obtain ⟨hbooks, said, hran', hsaid⟩ := Manager.ran_leave hd hleave
  have hran : Ran t.connection
      [(m.dialect.savepoint (savepointName ((w.stateOf t).savepoints + 1)), true)] w w₁ := hran
  have hset : Bounded m.dialect P (some t) _ w w₁ :=
    .of_ran hw hspares hothers (congrArg (·.finished) hstate) hran
  have hready₂ := hwork.ready (hset.ready hw)
  have hstate' : w'.stateOf t = w₂.stateOf t := by
    rw [World.stateOf, hbooks.transactions]
    rfl
  have hleft : Bounded m.dialect P (some t) _ w₂ w' :=
    .of_ran hready₂ hquiet (.of_books hbooks t) (congrArg (·.finished) hstate') hran'
  refine ⟨_, (hset.trans hw hwork.toBounded).trans hw hleft, ?_⟩
  -- what is set within is numbered after the savepoint set here, so the names follow on from it
  · rintro honly u ⟨⟩
    obtain ⟨honly₁, honly₂⟩ := honly.of_append
    obtain ⟨count, hnested, hcount⟩ := hwork.nested honly₁.of_append.2 t rfl
    have hsavepoints : (w₁.stateOf t).savepoints = (w.stateOf t).savepoints + 1 :=
      congrArg (·.savepoints) hstate
    rw [hsavepoints] at hnested hcount
    refine ⟨count + 1, ?_, ?_⟩
    · have hname : namesAfter (w.stateOf t).savepoints (count + 1)
          = savepointName ((w.stateOf t).savepoints + 1)
            :: (namesAfter ((w.stateOf t).savepoints + 1) count ++ []) := by
        rw [List.append_nil]
        rfl
      rw [statementsOn_append, statementsOn_append, statementsOn_eventsOn, statementsOn_eventsOn,
        hname]
      rcases hsaid with rfl | rfl | hfails
      · have hkept := Nested.kept (savepointName ((w.stateOf t).savepoints + 1)) hnested .nil
        simpa using hkept
      · have hundone := Nested.undone (savepointName ((w.stateOf t).savepoints + 1)) hnested .nil
        simpa using hundone
      · exact absurd hfails honly₂.not_fails
    · rw [hstate', hcount, add_ofNat_succ]

/-- A savepoint that is not set: its statement has failed. -/
theorem notSet {m : Manager σ α} (hE : m.engine.Pooled P) (hd : m.dialect.CommitApart)
    {t : Transaction} {e : Error} (hw : Ready P (some t) w)
    (hopen : (m.openAttempt (.savepoint t)).perform w = (.error e, w')) :
    ∃ new', Conforms m.dialect P (some t) new' w w' := by
  have hspares : Spares P (fun _ => False) w w' := Manager.spares_openAttempt hE hw.sound hopen
  obtain ⟨hothers, hstate, hran, -⟩ := Manager.ran_openAttempt_savepoint hopen
  refine ⟨_, .of_ran hw hspares hothers (congrArg (·.finished) hstate) hran, ?_⟩
  intro honly
  exact absurd ⟨_, List.mem_cons_self .., hd.savepoint _⟩ honly.not_fails

/-- A connection of the pool is used for a while. -/
theorem borrow {m : Manager σ α} (hE : m.engine.Pooled P) {c : ConnectionId} {w₂ : World σ τ}
    (hw : Ready P active w) (hacquire : (m.acquire).perform w = (.ok c, w₁))
    (h : Conforms d P active new w₁ w₂) (close : Bool) :
    Conforms d P active new w ((m.release c close).perform w₂).2 := by
  have hobtains := Manager.obtains_acquire hE hw.sound hacquire
  have hgives := Manager.spares_release (m := m) hE close h.sound (h.taken c hobtains.obtained)
  have hstate : w₁.transactions = w.transactions ∧ w₁.nextTransaction = w.nextTransaction ∧
      w₁.trace = w.trace := by
    rw [Manager.perform_acquire] at hacquire
    obtain ⟨-, rfl⟩ := Prod.mk.inj hacquire
    exact ⟨rfl, rfl, rfl⟩
  obtain ⟨htransactions, hnext, htrace⟩ := hstate
  refine {
    sound := hgives.sound
    taken := fun i hi => ?taken
    numbers := ?numbers
    finished := fun i hi => ?finished
    counted := fun i hi hne => ?counted
    trace := ?trace
    alone := fun honly i hi hne => ?alone
    blocks := fun honly i hi => ?blocks
    nested := fun honly t ht => ?nested }
  case taken =>
    refine hgives.taken i (h.taken i (hobtains.taken i hi fun h => h)) fun heq => ?_
    exact hobtains.fresh (heq ▸ hi)
  case numbers =>
    rw [← hnext]
    exact h.numbers
  case finished =>
    rw [← htransactions]
    exact h.finished i (hnext ▸ hi)
  case counted =>
    rw [← htransactions]
    exact h.counted i (hnext ▸ hi) hne
  case trace =>
    rw [← htrace]
    exact h.trace
  case alone => exact h.alone honly i (hobtains.taken i hi fun h => h) hne
  case blocks =>
    by_cases hi₁ : P.taken w₁.store i
    · -- the one connection taken only since then is the borrowed one, and nothing is run on it
      have hne : ∀ t ∈ active, i ≠ t.connection := fun t ht heq => hi (heq ▸ hw.taken t ht)
      rw [h.alone honly i hi₁ hne]
      exact .nil
    · exact h.blocks honly i hi₁
  case nested =>
    have hstate : w₁.stateOf t = w.stateOf t := congrFun htransactions t.id
    rw [← hstate]
    exact h.nested honly t ht

end Conforms

/-! ## Actions -/

/-- An action that conforms to the active transaction wherever it can run. -/
def Conforming (d : Dialect α) (P : Pool σ) (active : Option Transaction)
    (a : Action σ τ ρ) : Prop :=
  ∀ w, Ready P active w → ∃ new, Conforms d P active new w (a.perform w).2

namespace Conforming

open RowMapping.Action

variable {d : Dialect α} {active : Option Transaction} {a : Action σ τ ρ}

theorem bind {f : ρ → Action σ τ κ} (ha : Conforming d P active a)
    (hf : ∀ x, Conforming d P active (f x)) : Conforming d P active (a >>= f) := by
  intro w hw
  obtain ⟨new, h⟩ := ha w hw
  rw [perform_bind]
  rcases hrun : a.perform w with ⟨e | x, w₁⟩
  · rw [hrun] at h
    exact ⟨new, h⟩
  · rw [hrun] at h
    obtain ⟨new', h'⟩ := hf x w₁ (h.ready hw)
    exact ⟨new ++ new', h.trans hw h'⟩

theorem outcome (ha : Conforming d P active a) : Conforming d P active (Action.outcome a) := ha

theorem still {a : Action σ τ ρ} (h : ∀ w, (a.perform w).2 = w) : Conforming d P active a := by
  intro w hw
  rw [h w]
  exact ⟨[], .refl hw.sound⟩

theorem composable (d : Dialect α) (P : Pool σ) (active : Option Transaction) :
    Composable (τ := τ) fun _ a => Conforming d P active a :=
  ⟨still, bind, outcome⟩

theorem onStore {ε : Type} {f : σ → Except ε ρ × σ} {convert : ε → Error}
    (h : ∀ s, P.sound s → P.Holds s (f s).2) :
    Conforming d P active (Action.onStore f convert : Action σ τ ρ) := by
  intro w hw
  have hstore := h w.store hw.sound
  exact ⟨[], .silent hstore.sound hstore.taken rfl (fun _ => ⟨rfl, rfl⟩) (List.append_nil _).symm
    fun _ => rfl⟩

/-- Changing what is known about a transaction, but for its end and its savepoints. -/
theorem modify (t : Transaction) (f : TransactionState → TransactionState)
    (hfinished : ∀ s, (f s).finished = s.finished) (hcount : ∀ s, (f s).savepoints = s.savepoints) :
    Conforming d P active
      (Action.change (World.modifyTransaction t f : World σ τ → World σ τ)) := by
  intro w hw
  refine ⟨[], .silent hw.sound (fun _ h => h) rfl (fun i => ?_) (List.append_nil _).symm
    fun _ => rfl⟩
  show ((w.modifyTransaction t f).transactions i).finished = _ ∧
    ((w.modifyTransaction t f).transactions i).savepoints = _
  by_cases h : i = t.id
  · rw [World.modifyTransaction]
    simp [h, hfinished, hcount]
  · simp [World.modifyTransaction, h]

/-- Changing neither the storage nor the transactions. -/
theorem change {f : World σ τ → World σ τ} (event : Option (Event τ))
    (hstore : ∀ w, (f w).store = w.store) (hstates : ∀ w, (f w).transactions = w.transactions)
    (hnext : ∀ w, (f w).nextTransaction = w.nextTransaction)
    (htrace : ∀ w, (f w).trace = w.trace ++ event.toList)
    (hevent : ∀ execution statement, event ≠ some (.executed execution statement)) :
    Conforming d P active (Action.change f) := by
  intro w hw
  refine ⟨event.toList, .silent ?_ (fun c hc => ?_) (hnext w).symm (fun i => ?_) (htrace w)
    fun c => ?_⟩
  · exact (hstore w).symm ▸ hw.sound
  · exact (hstore w).symm ▸ hc
  · show ((f w).transactions i).finished = _ ∧ ((f w).transactions i).savepoints = _
    rw [hstates w]
    exact ⟨rfl, rfl⟩
  · rcases event with _ | ⟨execution, statement⟩ | _ | _
    · rfl
    · exact absurd rfl (hevent execution statement)
    · rfl
    · rfl

theorem record {event : Event τ} (h : ∀ execution statement, event ≠ .executed execution statement) :
    Conforming d P active (Action.record (σ := σ) event) :=
  .change (some event) (fun _ => rfl) (fun _ => rfl) (fun _ => rfl) (fun _ => rfl)
    fun execution statement heq => h execution statement (Option.some.inj heq)

theorem newFlag : Conforming d P active (Action.newFlag : Action σ τ FlagId) :=
  fun _ hw => ⟨[], .silent hw.sound (fun _ h => h) rfl (fun _ => ⟨rfl, rfl⟩)
    (List.append_nil _).symm fun _ => rfl⟩

/-- What conforms without a transaction does so in each. -/
theorem anywhere (h : Conforming d P none a) : Conforming d P active a := by
  intro w hw
  have hnone : Ready P none w :=
    ⟨hw.sound, fun _ ht => (nomatch ht), fun _ ht => (nomatch ht)⟩
  obtain ⟨new, h⟩ := h w hnone
  exact ⟨new, h.of_none hw⟩

variable {m : Manager σ α}

theorem totalChanges (hE : m.engine.Pooled P) (c : ConnectionId) :
    Conforming d P active (m.totalChanges c : Action σ τ Nat) :=
  onStore fun _ hs => hE.totalChanges c hs

theorem ensureAccess (hE : m.engine.Pooled P) (access : Access) (suspended : List Transaction) :
    Conforming d P active (m.ensureAccess access suspended : Action σ τ Unit) :=
  (composable d P active).ensureAccess (totalChanges hE) access suspended

theorem markWritten (access : Access) (t : Transaction) :
    Conforming d P active (Manager.markWritten access t : Action σ τ Unit) :=
  (composable d P active).markWritten (modify t _ (fun _ => rfl) fun _ => rfl) access

theorem acquire (hE : m.engine.Pooled P) :
    Conforming d P active (m.acquire : Action σ τ ConnectionId) :=
  onStore fun _ hs => hE.acquire hs

theorem runAlone (hE : m.engine.Pooled P) {operation : ConnectionId → Action σ τ ρ}
    (hop : ∀ c, Conforming d P active (operation c)) :
    Conforming d P active (m.runAlone operation) := by
  intro w hw
  obtain ⟨new, hacquired⟩ := acquire (d := d) hE w hw
  rw [Manager.perform_runAlone]
  rcases hrun : (m.acquire).perform w with ⟨e | c, w₁⟩
  · rw [hrun] at hacquired
    exact ⟨new, hacquired⟩
  · rw [hrun] at hacquired
    obtain ⟨new', h⟩ := hop c w₁ (hacquired.ready hw)
    exact ⟨new', h.borrow hE hw hrun false⟩

theorem useConnection (hE : m.engine.Pooled P) (ctx : Context)
    {operation : ConnectionId → Action σ τ ρ}
    (hop : ∀ c, Conforming d P active (operation c)) :
    Conforming d P active (m.useConnection ctx operation) := by
  obtain ⟨_ | t, flag⟩ := ctx
  · exact runAlone hE hop
  · exact hop t.connection

section Transactions

variable (hE : m.engine.Pooled P) (hd : m.dialect.CommitApart) (htotal : m.engine.CountsAlways)

include hE hd htotal

theorem runImplicit (isolation : Isolation) {operation : ConnectionId → Action σ τ ρ}
    (hop : ∀ active c, Conforming m.dialect P active (operation c)) :
    Conforming m.dialect P active (m.runImplicit isolation operation) := by
  intro w hw
  rw [Manager.runImplicit, perform_bind]
  rcases hrun : (m.begin isolation).perform w with ⟨e | t, w₁⟩
  · obtain ⟨new, h⟩ := Conforms.notBegun hE hd htotal hw.sound hrun
    exact ⟨new, h.of_none hw⟩
  · have hbegins : Manager.Begins P m isolation w t w₁ := Manager.spares_begin hE hw.sound hrun
    obtain ⟨new, h⟩ := hop (some t) t.connection w₁ (.begun hbegins)
    dsimp only
    rw [perform_outcome_bind]
    obtain ⟨new', h'⟩ := h.own hE hd htotal hw.sound hrun
      (rfl : (m.settle t ((operation t.connection).perform w₁).1 false).perform _ = (_, _))
    exact ⟨new', h'.of_none hw⟩

theorem withConnection (scope : Option Scope) (implicit : Option Isolation) (access : Access)
    {operation : ConnectionId → Action σ τ ρ}
    (hop : ∀ active c, Conforming m.dialect P active (operation c)) :
    Conforming m.dialect P active (m.withConnection scope implicit access operation) := by
  rcases scope with _ | ⟨⟨t, flag⟩ | _, suspended⟩
  · rcases implicit with _ | isolation
    · exact still fun _ => rfl
    · exact runImplicit hE hd htotal isolation hop
  · exact (ensureAccess hE access suspended).bind fun _ =>
      (markWritten access t).bind fun _ => hop active t.connection
  · exact (ensureAccess hE access suspended).bind fun _ => runAlone hE (hop active)

/-- One attempt, given that its work conforms to what is active in it. -/
theorem tryOnce {opening : Opening} (suspended : List Transaction)
    {work : Manager.ScopedWork σ τ ρ}
    (hwork : ∀ inner ctx n, Conforming m.dialect P (Scope.active? (some inner)) (work inner ctx n))
    (hactive : ∀ t, opening = .savepoint t → active = some t) (number : Nat) :
    Conforming m.dialect P active (m.tryOnce opening suspended work number) := by
  intro w hw
  rw [Manager.perform_tryOnce]
  rcases opening with isolation | t
  · rw [Manager.perform_openAttempt_own]
    rcases hrun : (m.begin isolation).perform w with ⟨e | t, w₁⟩
    · obtain ⟨new, h⟩ := Conforms.notBegun hE hd htotal hw.sound hrun
      exact ⟨new, h.of_none hw⟩
    · have hbegins : Manager.Begins P m isolation w t w₁ := Manager.spares_begin hE hw.sound hrun
      have hflagged : Conforming m.dialect P (some t) (do
          let flag ← Action.newFlag
          work ⟨.transaction t flag, suspended⟩ ⟨some t, flag⟩ number) :=
        newFlag.bind fun flag => hwork ⟨.transaction t flag, suspended⟩ _ number
      obtain ⟨new, h⟩ := hflagged w₁ (.begun hbegins)
      rw [perform_newFlag_bind] at h
      obtain ⟨new', h'⟩ := h.own hE hd htotal hw.sound hrun
        (rfl : (m.settle t _ _).perform _ = (_, _))
      exact ⟨new', h'.of_none hw⟩
  · obtain rfl := hactive t rfl
    rcases hrun : (m.openAttempt (.savepoint t)).perform w with ⟨e | o, w₁⟩
    · exact Conforms.notSet hE hd hw hrun
    · have hopens : Manager.Opens P m w w₁ (.savepoint t) o :=
        Manager.spares_openAttempt hE hw.sound hrun
      obtain ⟨-, -, -, ho⟩ := Manager.ran_openAttempt_savepoint hrun
      obtain ⟨flag, rfl⟩ := ho o rfl
      obtain ⟨-, hspares⟩ := hopens
      obtain ⟨new, h⟩ := hwork ⟨.transaction t flag, suspended⟩ ⟨some t, flag⟩ number w₁
        (hw.spared hspares)
      exact h.savepoint hE hd hw hrun (rfl : (m.closeAttempt _ _).perform _ = (_, _))

end Transactions

end Conforming

end RowMapping
