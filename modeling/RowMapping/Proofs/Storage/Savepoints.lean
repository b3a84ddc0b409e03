/-
Savepoints and the work above them.

Work in a transaction keeps the snapshot that was taken. It takes away savepoints from the
top, and puts others there. Savepoints are looked for from the innermost one on, so whatever
was put above a savepoint, going back to it finds it again as long as its name was not used
another time, and the transaction then shows what it showed when the savepoint was set. If
the savepoint was taken away, there may be an earlier one of its name, or none.

A savepoint outside of a transaction begins one, which ends with its release.
-/
import RowMapping.Proofs.Storage.Rest

set_option autoImplicit false

namespace RowMapping

variable {δ : Type}

/-! ## Transactions that go on -/

namespace OpenTransaction

/-- A transaction has gone on: it has the snapshot that it had, and it has lost savepoints
from the top, and got others with certain names there. -/
structure GoesOn (t : OpenTransaction δ) (among : String → Prop) (t' : OpenTransaction δ) :
    Prop where
  bySavepoint : t'.bySavepoint = t.bySavepoint
  savepoints : ∃ more base, t'.savepoints = more ++ base ∧ base <:+ t.savepoints ∧
    ∀ mark ∈ more, among mark.name
  view : ∀ v, t.view = some v →
    ∃ v', t'.view = some v' ∧ v'.version = v.version ∧ v'.snapshot = v.snapshot

variable {t t₁ t' : OpenTransaction δ} {among among' : String → Prop}

theorem GoesOn.of_suffix (hby : t'.bySavepoint = t.bySavepoint)
    (hsavepoints : t'.savepoints <:+ t.savepoints)
    (hview : ∀ v, t.view = some v →
      ∃ v', t'.view = some v' ∧ v'.version = v.version ∧ v'.snapshot = v.snapshot) :
    t.GoesOn among t' :=
  ⟨hby, ⟨[], t'.savepoints, rfl, hsavepoints, by simp⟩, hview⟩

theorem GoesOn.refl (t : OpenTransaction δ) : t.GoesOn among t :=
  .of_suffix rfl (List.suffix_refl _) fun v h => ⟨v, h, rfl, rfl⟩

theorem GoesOn.mono (h : t.GoesOn among t') (himp : ∀ name, among name → among' name) :
    t.GoesOn among' t' := by
  obtain ⟨more, base, heq, hbase, hmore⟩ := h.savepoints
  exact ⟨h.bySavepoint, ⟨more, base, heq, hbase, fun mark hm => himp _ (hmore mark hm)⟩, h.view⟩

/-- The savepoints of a transaction that has gone on are new, or were there before. -/
theorem GoesOn.mem_savepoints (h : t.GoesOn among t') :
    ∀ mark ∈ t'.savepoints, mark ∈ t.savepoints ∨ among mark.name := by
  obtain ⟨more, base, heq, hbase, hmore⟩ := h.savepoints
  intro mark hmark
  rw [heq] at hmark
  rcases List.mem_append.mp hmark with hmark | hmark
  · exact .inr (hmore mark hmark)
  · exact .inl (hbase.subset hmark)

theorem GoesOn.trans (h₁ : t.GoesOn among t₁) (h₂ : t₁.GoesOn among t') :
    t.GoesOn among t' where
  bySavepoint := h₂.bySavepoint.trans h₁.bySavepoint
  savepoints := by
    obtain ⟨more₁, base₁, heq₁, hbase₁, hmore₁⟩ := h₁.savepoints
    obtain ⟨more₂, base₂, heq₂, ⟨lost, hlost⟩, hmore₂⟩ := h₂.savepoints
    rw [heq₁] at hlost
    -- what was lost in the second part was new in the first one, or was there before
    rcases List.append_eq_append_iff.mp hlost with ⟨kept, hnew, hkept⟩ | ⟨kept, -, hkept⟩
    · refine ⟨more₂ ++ kept, base₁, ?_, hbase₁, fun mark hmark => ?_⟩
      · rw [heq₂, hkept, List.append_assoc]
      · rcases List.mem_append.mp hmark with hmark | hmark
        · exact hmore₂ mark hmark
        · refine hmore₁ mark ?_
          rw [hnew]
          exact List.mem_append_right lost hmark
    · refine ⟨more₂, base₂, heq₂, ?_, hmore₂⟩
      rw [hkept] at hbase₁
      exact (List.suffix_append kept base₂).trans hbase₁
  view v hv := by
    obtain ⟨v₁, hv₁, hversion₁, hsnapshot₁⟩ := h₁.view v hv
    obtain ⟨v', hv', hversion, hsnapshot⟩ := h₂.view v₁ hv₁
    exact ⟨v', hv', hversion.trans hversion₁, hsnapshot.trans hsnapshot₁⟩

/-- Nothing was done in a transaction yet: it sees what is committed, or has not looked. -/
structure Fresh (contents : δ) (t : OpenTransaction δ) : Prop where
  bySavepoint : t.bySavepoint = false
  savepoints : t.savepoints = []
  view : ∀ v, t.view = some v → v.snapshot = contents ∧ v.contents = contents

/-- A transaction with a savepoint set in it. -/
def withSavepoint (t : OpenTransaction δ) (name : String) : OpenTransaction δ :=
  { t with savepoints := ⟨name, t.view.map (·.contents)⟩ :: t.savepoints }

/-- A transaction is back below one of its savepoints: it has the savepoints that it had
below, and shows what it showed when the savepoint was set. If it had not looked at anything
by then, it has no changes of its own. -/
structure BackBelow (t : OpenTransaction δ) (mark : Savepoint δ) (t' : OpenTransaction δ) :
    Prop where
  bySavepoint : t'.bySavepoint = t.bySavepoint
  savepoints : mark :: t'.savepoints <:+ t.savepoints
  view : ∀ v, t.view = some v →
    ∃ v', t'.view = some v' ∧ v'.version = v.version ∧ v'.snapshot = v.snapshot
  contents : ∀ v', t'.view = some v' → v'.contents = mark.contents.getD v'.snapshot

/-- A transaction is back at where it was: it has the savepoints that it had, and shows what
it showed. If it had not looked at anything, it has no changes of its own. -/
structure Restored (t t' : OpenTransaction δ) : Prop where
  bySavepoint : t'.bySavepoint = t.bySavepoint
  savepoints : t'.savepoints = t.savepoints
  view : ∀ v, t.view = some v → ∃ v', t'.view = some v' ∧ v'.version = v.version ∧
    v'.snapshot = v.snapshot ∧ v'.contents = v.contents
  unread : t.view = none → ∀ v', t'.view = some v' → v'.contents = v'.snapshot

/-- Below the savepoint that was set last, or below an earlier one of its name. -/
theorem BackBelow.cases {mark : Savepoint δ} {name : String}
    (h : (t.withSavepoint name).BackBelow mark t') : t.Restored t' ∨ t.BackBelow mark t' := by
  have hsavepoints : mark :: t'.savepoints <:+
    ⟨name, t.view.map (·.contents)⟩ :: t.savepoints := h.savepoints
  rcases List.suffix_cons_iff.mp hsavepoints with heq | hearlier
  · obtain ⟨rfl, hbelow⟩ := List.cons.inj heq
    refine .inl ⟨h.bySavepoint, hbelow, fun v hv => ?_, fun hnone v' hv' => ?_⟩
    · obtain ⟨v', hv', hversion, hsnapshot⟩ := h.view v hv
      refine ⟨v', hv', hversion, hsnapshot, ?_⟩
      rw [h.contents v' hv', hv]
      rfl
    · rw [h.contents v' hv', hnone]
      rfl
  · exact .inr ⟨h.bySavepoint, hearlier, h.view, h.contents⟩

end OpenTransaction

namespace Storage

/-- The transaction that a savepoint is set in. Outside of one it begins one. -/
def around (c : ConnectionId) (s : Storage δ) : OpenTransaction δ :=
  (s.sessions c).transaction.getD { bySavepoint := true }

/-- The savepoints of the transaction on a connection. -/
def marks (c : ConnectionId) (s : Storage δ) : List (Savepoint δ) :=
  ((s.sessions c).transaction.map (·.savepoints)).getD []

theorem marks_of_transaction {c : ConnectionId} {s : Storage δ} {t : OpenTransaction δ}
    (ht : (s.sessions c).transaction = some t) : s.marks c = t.savepoints := by
  rw [marks, ht]
  rfl

theorem marks_of_none {c : ConnectionId} {s : Storage δ}
    (hnone : (s.sessions c).transaction = none) : s.marks c = [] := by
  rw [marks, hnone]
  rfl

/-- What is done on a connection lets its transaction go on, and commits nothing of it. Or the
transaction is not there any longer, and what is there instead has certain names only. -/
structure Carries (c : ConnectionId) (among : String → Prop) (s s' : Storage δ) : Prop where
  marks : ∀ mark ∈ s'.marks c, mark ∈ s.marks c ∨ among mark.name
  goesOn : ∀ t, (s.sessions c).transaction = some t →
    (∃ t', (s'.sessions c).transaction = some t' ∧ t.GoesOn among t' ∧
      s'.contents = s.contents) ∨ ∀ mark ∈ s'.marks c, among mark.name

namespace Carries

variable {c : ConnectionId} {among : String → Prop} {s s' : Storage δ}

theorem of_transaction {t t' : OpenTransaction δ} (ht : (s.sessions c).transaction = some t)
    (ht' : (s'.sessions c).transaction = some t') (hgoes : t.GoesOn among t')
    (hcontents : s'.contents = s.contents) : Carries c among s s' := by
  refine ⟨fun mark hmark => ?_, fun u hu => .inl ?_⟩
  · rw [marks_of_transaction ht'] at hmark
    rw [marks_of_transaction ht]
    exact hgoes.mem_savepoints mark hmark
  · cases ht.symm.trans hu
    exact ⟨t', ht', hgoes, hcontents⟩

theorem of_setTransaction {t t' : OpenTransaction δ} (ht : (s.sessions c).transaction = some t)
    (hgoes : t.GoesOn among t') : Carries c among s (s.setTransaction c (some t')) :=
  .of_transaction ht (by simp [setTransaction]) hgoes rfl

/-- Where nothing is open, no savepoint is set. -/
theorem of_none (hnone : (s'.sessions c).transaction = none) : Carries c among s s' := by
  have hmarks := marks_of_none hnone
  refine ⟨fun mark hmark => ?_, fun _ _ => .inr fun mark hmark => ?_⟩
  all_goals
    rw [hmarks] at hmark
    cases hmark

/-- A transaction has begun. -/
theorem of_fresh {t : OpenTransaction δ} (hnone : (s.sessions c).transaction = none)
    (ht : (s'.sessions c).transaction = some t) (hmarks : ∀ mark ∈ t.savepoints, among mark.name) :
    Carries c among s s' := by
  refine ⟨fun mark hmark => .inr ?_, fun u hu => ?_⟩
  · rw [marks_of_transaction ht] at hmark
    exact hmarks mark hmark
  · cases hnone.symm.trans hu

theorem of_same (htransaction : (s'.sessions c).transaction = (s.sessions c).transaction)
    (hcontents : s'.contents = s.contents) : Carries c among s s' := by
  rcases ht : (s.sessions c).transaction with _ | t
  · exact .of_none (htransaction.trans ht)
  · exact .of_transaction ht (htransaction.trans ht) (.refl t) hcontents

theorem refl (c : ConnectionId) (s : Storage δ) : Carries c among s s := of_same rfl rfl

end Carries

/-! ## Reads and writes -/

variable {c : ConnectionId} {among : String → Prop}

/-- The snapshot of a transaction is taken at most once. -/
theorem goesOn_viewOf (s : Storage δ) (t : OpenTransaction δ) :
    t.GoesOn among { t with view := some (s.viewOf t) } := by
  refine .of_suffix rfl (List.suffix_refl _) fun v hv => ⟨s.viewOf t, rfl, ?_⟩
  rw [viewOf, hv]
  exact ⟨rfl, rfl⟩

theorem carries_look (s : Storage δ) : Carries c among s (s.look c).2 := by
  rcases ht : (s.sessions c).transaction with _ | t
  · rw [look_closed ht]
    exact .refl c s
  · rw [look_within ht]
    exact .of_setTransaction ht (goesOn_viewOf s t)

theorem Written.carries {schema : Schema δ} {sql : String} {cells : List Cell} {s : Storage δ}
    {r : Except DriverError UpdateResult × Storage δ} (h : Written schema c sql cells s r) :
    Carries c among s r.2 := by
  have hlook : Carries c among s (s.look c).2 := carries_look s
  cases h with
  | refused => exact hlook
  | failed => exact ⟨hlook.marks, hlook.goesOn⟩
  | @changed t change ht =>
    -- the contents are changed, and neither the snapshot nor the savepoints
    have hchanged : t.GoesOn among { t with view := some ((s.viewOf t).changed change) } := by
      refine .of_suffix rfl (List.suffix_refl _) fun v hv => ⟨_, rfl, ?_⟩
      rw [viewOf, hv]
      exact ⟨rfl, rfl⟩
    refine .of_transaction ht (by simp [countChanges, setTransaction]) hchanged ?_
    rw [look_within ht]
    rfl
  | published hnone => exact .of_none (by simpa [countChanges, publish] using hnone)

theorem carries_update (schema : Schema δ) (sql : String) (cells : List Cell) (s : Storage δ) :
    Carries c among s (s.update schema c sql cells).2 :=
  (written schema c sql cells s).carries

/-! ## Statements -/

/-- In a transaction that begins nothing was done. -/
theorem Executed.fresh {check : δ → Except DriverError Unit} {statement : Statement}
    {s : Storage δ} {r : Except DriverError Unit × Storage δ}
    (h : Executed check c s statement r) (hbegins : statement.Begins) (hok : r.1 = .ok ()) :
    ∃ t, (r.2.sessions c).transaction = some t ∧ t.Fresh r.2.contents := by
  cases h with
  | refused => cases hok
  | begun => exact ⟨{}, by simp [setTransaction], rfl, rfl, fun v hv => by cases hv⟩
  | locked =>
    refine ⟨{ view := some (s.viewOf {}) }, by simp [setTransaction], rfl, rfl, ?_⟩
    rintro v ⟨⟩
    exact ⟨rfl, rfl⟩
  | _ => simp [Statement.Begins] at hbegins

theorem execute_begins (check : δ → Except DriverError Unit) {statement : Statement}
    (h : statement.Begins) {s : Storage δ} (hok : (s.execute check c statement).1 = .ok ()) :
    ∃ t, ((s.execute check c statement).2.sessions c).transaction = some t ∧
      t.Fresh (s.execute check c statement).2.contents :=
  (executed check c statement s).fresh h hok

theorem execute_prepares (check : δ → Except DriverError Unit) {statement : Statement}
    (h : statement.Prepares) (s : Storage δ) :
    ((s.execute check c statement).2.sessions c).transaction = (s.sessions c).transaction ∧
      (s.execute check c statement).2.contents = s.contents := by
  rcases h with ⟨allowed, rfl⟩ | ⟨sql, rfl⟩
  · refine ⟨?_, rfl⟩
    show ((s.setSession c _).sessions c).transaction = _
    rw [sessions_setSession]
  · exact ⟨rfl, rfl⟩

/-! ## Savepoints that are set and left -/

variable {name : String} {t t' : OpenTransaction δ} {s : Storage δ}

/-- Setting a savepoint. -/
theorem transaction_savepoint (name : String) (s : Storage δ) :
    ((s.savepoint name c).2.sessions c).transaction = some ((s.around c).withSavepoint name) := by
  simp [savepoint, setTransaction, around, OpenTransaction.withSavepoint]

theorem carries_savepoint (hname : among name) (s : Storage δ) :
    Carries c among s (s.savepoint name c).2 := by
  have hset := transaction_savepoint (c := c) name s
  rcases ht : (s.sessions c).transaction with _ | t
  all_goals rw [around, ht] at hset
  · refine .of_fresh ht hset fun mark hmark => ?_
    rw [List.mem_singleton.mp hmark]
    exact hname
  · refine .of_transaction ht hset ⟨rfl, ⟨[⟨name, t.view.map (·.contents)⟩], t.savepoints, rfl,
      List.suffix_refl _, fun mark hmark => ?_⟩, fun v hv => ⟨v, hv, rfl, rfl⟩⟩ rfl
    rw [List.mem_singleton.mp hmark]
    exact hname

/-- The savepoint that a name stands for, with those below it. -/
theorem savepointsFrom_suffix (name : String) (savepoints : List (Savepoint δ)) :
    savepointsFrom name savepoints <:+ savepoints := List.dropWhile_suffix _

/-- Whatever is run on a connection, the savepoints that it sets have certain names if those
that are set by name do. -/
theorem Executed.carries {check : δ → Except DriverError Unit} {statement : Statement}
    {r : Except DriverError Unit × Storage δ} (h : Executed check c s statement r)
    (hnames : ∀ name, statement = .savepoint name → among name) : Carries c among s r.2 := by
  have hcommitted : ∀ {t}, Committed check c t s r → Carries c among s r.2 := by
    intro t h
    cases h with
    | refused => exact .refl c s
    | published => exact .of_none (transaction_discard c _)
    | dropped => exact .of_none (transaction_discard c s)
  cases h with
  | refused => exact .refl c s
  | begun hnone => exact .of_fresh hnone (t := {}) (by simp [setTransaction]) (by simp)
  | locked hnone =>
    exact .of_fresh hnone (t := { view := some (s.viewOf {}) }) (by simp [setTransaction])
      (by simp)
  | allowed => exact .of_same (by rw [sessions_setSession]) rfl
  | committed _ h => exact hcommitted h
  | rolledBack => exact .of_none (transaction_discard c s)
  | marked name => exact carries_savepoint (hnames name rfl) s
  | @wentBack name t mark outer ht hfrom =>
    -- the savepoint itself stays
    refine .of_setTransaction ht (.of_suffix rfl ?_ fun v hv => ?_)
    · show mark :: outer <:+ t.savepoints
      rw [← hfrom]
      exact savepointsFrom_suffix name t.savepoints
    · exact ⟨{ v with contents := mark.contents.getD v.snapshot }, by rw [hv]; rfl, rfl, rfl⟩
  | @released name t mark outer ht hfrom =>
    -- the savepoint goes, with all that were set after it
    refine .of_setTransaction ht (.of_suffix rfl ?_ fun v hv => ⟨v, hv, rfl, rfl⟩)
    have hsuffix := savepointsFrom_suffix name t.savepoints
    rw [hfrom] at hsuffix
    exact (List.suffix_cons mark outer).trans hsuffix
  | ended _ _ _ h => exact hcommitted h

theorem carries_execute (check : δ → Except DriverError Unit) {statement : Statement}
    (h : ∀ name, statement = .savepoint name → among name) (s : Storage δ) :
    Carries c among s (s.execute check c statement).2 :=
  (executed check c statement s).carries h

/-! ## Leaving a savepoint -/

end Storage

end RowMapping
