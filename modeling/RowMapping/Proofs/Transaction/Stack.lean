/-
What lies in the frames of the machine.

The transactions that have begun and are not settled are those of the attempts in the
frames. Wherever the machine is, the scopes around it speak of exactly these: one of
them may be active, and the others are suspended. Every frame remembers the place
below it, where the same is true again.
-/
import RowMapping.Proofs.Transaction.Machine
import RowMapping.Proofs.Transaction.Suspension

set_option autoImplicit false

namespace RowMapping

variable {σ τ α ρ : Type}

/-- The transactions of the scopes around. -/
def Surroundings.transactions (here : Surroundings) : List Transaction :=
  here.contexts.filterMap (·.transaction)

namespace Frame

/-- The transaction that ends with a frame. -/
def own? : Frame α τ ρ → Option Transaction
  | attempt _ (.own t _) => some t
  | _ => none

/-- The connection that is given back with a frame. -/
def connection? : Frame α τ ρ → Option ConnectionId
  | attempt _ (.own t _) => some t.connection
  | borrowed _ c _ => some c
  | _ => none

end Frame

/-- The transactions that have begun, the last one first. -/
def begun (frames : List (Frame α τ ρ)) : List Transaction := frames.filterMap Frame.own?

/-- The connections that are in use, the one taken last first. -/
def checkedOut (frames : List (Frame α τ ρ)) : List ConnectionId :=
  frames.filterMap Frame.connection?

theorem connection_mem_checkedOut {frames : List (Frame α τ ρ)} {t : Transaction}
    (h : t ∈ begun frames) : t.connection ∈ checkedOut frames := by
  obtain ⟨frame, hframe, ht⟩ := List.mem_filterMap.mp h
  refine List.mem_filterMap.mpr ⟨frame, hframe, ?_⟩
  rcases frame with _ | ⟨trial, t' | _⟩ | _ | _
  · cases ht
  · cases ht
    rfl
  · cases ht
  · cases ht
  · cases ht

/-- With a frame that goes with no connection no transaction ends either. -/
theorem begun_cons_of_connection? {frame : Frame α τ ρ} (frames : List (Frame α τ ρ))
    (h : frame.connection? = none) : begun (frame :: frames) = begun frames := by
  refine List.filterMap_cons_none ?_
  rcases frame with _ | ⟨trial, t | _⟩ | _ | _
  case attempt.own => cases h
  all_goals rfl

/-- Transactions that have begun on the same connection are the same one. -/
theorem eq_of_connection_eq {frames : List (Frame α τ ρ)} (hnodup : (checkedOut frames).Nodup)
    {t u : Transaction} (ht : t ∈ begun frames) (hu : u ∈ begun frames)
    (h : t.connection = u.connection) : t = u := by
  induction frames with
  | nil => cases ht
  | cons frame rest ih =>
    have hrest : (checkedOut rest).Nodup :=
      hnodup.sublist (List.Sublist.filterMap _ (List.sublist_cons_self frame rest))
    rcases frame with _ | ⟨trial, v | _⟩ | _ | _
    case attempt.own =>
      -- the transactions further out have other connections than the last one
      have hv : v.connection ∉ checkedOut rest := (List.nodup_cons.mp hnodup).1
      rcases List.mem_cons.mp ht with rfl | ht'
      · rcases List.mem_cons.mp hu with rfl | hu'
        · rfl
        · exact absurd (h ▸ connection_mem_checkedOut hu') hv
      · rcases List.mem_cons.mp hu with rfl | hu'
        · exact absurd (h ▸ connection_mem_checkedOut ht') hv
        · exact ih hrest ht' hu'
    all_goals exact ih hrest ht hu

/-- No transaction has begun on a connection that the application has. -/
theorem connection_ne_of_borrowed {frames : List (Frame α τ ρ)}
    (hnodup : (checkedOut frames).Nodup) {here : Surroundings} {c : ConnectionId}
    {next : Except Error ρ → Script α τ ρ} (hframe : .borrowed here c next ∈ frames)
    {t : Transaction} (ht : t ∈ begun frames) : t.connection ≠ c := by
  induction frames with
  | nil => cases ht
  | cons frame rest ih =>
    have hrest : (checkedOut rest).Nodup :=
      hnodup.sublist (List.Sublist.filterMap _ (List.sublist_cons_self frame rest))
    rcases List.mem_cons.mp hframe with rfl | hlater
    · rintro rfl
      exact (List.nodup_cons.mp hnodup).1 (connection_mem_checkedOut ht)
    · have hc : c ∈ checkedOut rest := List.mem_filterMap.mpr ⟨_, hlater, rfl⟩
      rcases frame with _ | ⟨trial, v | _⟩ | _ | _
      case attempt.own =>
        rcases List.mem_cons.mp ht with rfl | ht
        · rintro rfl
          exact (List.nodup_cons.mp hnodup).1 hc
        · exact ih hrest hlater ht
      all_goals exact ih hrest hlater ht

/-! ## Places -/

/-- The scopes around speak of certain transactions: one may be active, and the others
are suspended. -/
structure Arranged (here : Surroundings) (ts : List Transaction) : Prop where
  around : ∀ t, t ∈ here.transactions ↔ t ∈ ts
  active : ∀ t, Scope.active? here.scope = some t → t ∈ ts
  suspended : ∀ t, t ∈ Scope.suspendedIn here.scope ↔
    t ∈ ts ∧ Scope.active? here.scope ≠ some t

/-- What an attempt opens and suspends fits to the transactions that have begun. -/
structure Opening.Fits (opening : Opening) (suspended ts : List Transaction) : Prop where
  inside : ∀ t, opening = .savepoint t → t ∈ ts
  suspended : ∀ t, t ∈ suspended ↔ t ∈ ts ∧ opening ≠ .savepoint t

structure Trial.Fits (trial : Trial α τ ρ) (ts : List Transaction) : Prop where
  here : Arranged trial.here ts
  opening : trial.opening.Fits trial.suspended ts

/-- A frame fits to the transactions that have begun below it. -/
def Frame.Fits (ts : List Transaction) : Frame α τ ρ → Prop
  | plain here _ => Arranged here ts
  | attempt trial o => trial.Fits ts ∧ ∀ t name flag, o = .savepoint t name flag → t ∈ ts
  | held here _ _ => Arranged here ts
  | borrowed here _ _ => Arranged here ts

def Stacked : List (Frame α τ ρ) → Prop
  | [] => True
  | frame :: rest => frame.Fits (begun rest) ∧ Stacked rest

def Control.Fits (here : Surroundings) (ts : List Transaction) : Control α τ ρ → Prop
  | run _ => True
  | attempt trial => trial.here = here ∧ trial.Fits ts
  | attempted trial _ => trial.here = here ∧ trial.Fits ts
  | done _ => True

/-- All scopes speak of the transactions that have begun around them. -/
structure Config.Placed (c : Config σ α τ ρ) : Prop where
  arranged : Arranged c.here (begun c.frames)
  stacked : Stacked c.frames
  control : c.control.Fits c.here (begun c.frames)

namespace Arranged

variable {here : Surroundings} {ts : List Transaction}

theorem nowhere : Arranged {} [] where
  around _ := Iff.rfl
  active _ h := by cases h
  suspended t := by simp [Scope.suspendedIn]

/-- Inside of an active transaction the others are suspended. -/
theorem within (h : Arranged here ts) {t : Transaction} {suspended : List Transaction}
    (ht : t ∈ ts) (hs : ∀ u, u ∈ suspended ↔ u ∈ ts ∧ u ≠ t) (flag : FlagId) :
    Arranged ⟨some ⟨.transaction t flag, suspended⟩, ⟨some t, flag⟩ :: here.contexts⟩ ts where
  around u := by
    show u ∈ t :: here.transactions ↔ u ∈ ts
    rw [List.mem_cons, h.around u]
    constructor
    · rintro (rfl | hu)
      · exact ht
      · exact hu
    · exact .inr
  active u hu := by
    cases hu
    exact ht
  suspended u := by
    have hne : Scope.active? (some ⟨.transaction t flag, suspended⟩) ≠ some u ↔ u ≠ t := by
      simp [Scope.active?, eq_comm]
    rw [hne]
    exact hs u

/-- A transaction that begins suspends all others. -/
theorem inOwn (h : Arranged here ts) {t : Transaction} {suspended : List Transaction}
    (ht : t ∉ ts) (hs : ∀ u, u ∈ suspended ↔ u ∈ ts) (flag : FlagId) :
    Arranged ⟨some ⟨.transaction t flag, suspended⟩, ⟨some t, flag⟩ :: here.contexts⟩
      (t :: ts) where
  around u := by
    show u ∈ t :: here.transactions ↔ u ∈ t :: ts
    rw [List.mem_cons, List.mem_cons, h.around u]
  active u hu := by
    cases hu
    exact List.mem_cons_self ..
  suspended u := by
    have hne : Scope.active? (some ⟨.transaction t flag, suspended⟩) ≠ some u ↔ u ≠ t := by
      simp [Scope.active?, eq_comm]
    rw [hne, List.mem_cons]
    show u ∈ suspended ↔ _
    rw [hs u]
    constructor
    · intro hu
      exact ⟨.inr hu, fun heq => ht (heq ▸ hu)⟩
    · rintro ⟨rfl | hu, hne⟩
      · exact absurd rfl hne
      · exact hu

theorem outside (h : Arranged here ts) {suspended : List Transaction}
    (hs : ∀ u, u ∈ suspended ↔ u ∈ ts) (flag : FlagId) :
    Arranged ⟨some ⟨.nonTransactional, suspended⟩, ⟨none, flag⟩ :: here.contexts⟩ ts where
  around := h.around
  active u hu := by cases hu
  suspended u := by
    have hne : Scope.active? (some ⟨.nonTransactional, suspended⟩) ≠ some u := by
      simp [Scope.active?]
    rw [and_iff_left hne]
    exact hs u

end Arranged

/-- What a scope does fits to the transactions that have begun around it. -/
def Entry.Fits (ts : List Transaction) : Entry → Prop
  | .refuse _ => True
  | .join t _ suspended => t ∈ ts ∧ ∀ u, u ∈ suspended ↔ u ∈ ts ∧ u ≠ t
  | .free suspended => ∀ u, u ∈ suspended ↔ u ∈ ts
  | .attempts opening suspended => opening.Fits suspended ts

/-- Around the scope everything that has begun is set aside. -/
theorem Arranged.setAside {here : Surroundings} {ts : List Transaction} (h : Arranged here ts)
    (t : Transaction) : t ∈ Scope.setAside here.scope ↔ t ∈ ts := by
  rw [Scope.setAside, List.mem_append, Option.mem_toList, h.suspended t]
  constructor
  · rintro (⟨ht, -⟩ | ht)
    · exact ht
    · exact h.active t ht
  · intro ht
    by_cases hactive : Scope.active? here.scope = some t
    · exact .inr hactive
    · exact .inl ⟨ht, hactive⟩

/-- In the scope of a transaction all others are suspended. -/
theorem Arranged.others {here : Surroundings} {ts : List Transaction} (h : Arranged here ts)
    {t : Transaction} {flag : FlagId} {suspended : List Transaction}
    (hscope : here.scope = some ⟨.transaction t flag, suspended⟩) :
    t ∈ ts ∧ ∀ u, u ∈ suspended ↔ u ∈ ts ∧ u ≠ t := by
  have hactive := h.active
  have hsuspended := h.suspended
  rw [hscope] at hactive hsuspended
  refine ⟨hactive t rfl, fun u => ?_⟩
  have hne : Scope.active? (some ⟨.transaction t flag, suspended⟩) ≠ some u ↔ u ≠ t := by
    simp [Scope.active?, eq_comm]
  rw [← hne]
  exact hsuspended u

theorem Arranged.entry {here : Surroundings} {ts : List Transaction} (h : Arranged here ts)
    (settings : TransactionSettings) : (Scope.entry here.scope settings).Fits ts := by
  have henters := Scope.enters here.scope settings
  generalize hscope : here.scope = scope at henters
  generalize Scope.entry scope settings = entry at henters
  cases henters with
  | unwanted | missing => exact True.intro
  | join => exact h.others hscope
  | @divide t =>
    obtain ⟨ht, hs⟩ := h.others hscope
    refine ⟨fun u hu => ?_, fun u => ?_⟩
    · cases hu
      exact ht
    · have hne : Opening.savepoint t ≠ .savepoint u ↔ u ≠ t := by simp [eq_comm]
      rw [hne]
      exact hs u
  | free => exact hscope ▸ h.setAside
  | begin =>
    refine ⟨fun _ hu => (by cases hu), fun u => ?_⟩
    have hne : Opening.own settings.isolation ≠ .savepoint u := by simp
    rw [and_iff_left hne]
    exact hscope ▸ h.setAside u

namespace Config

variable {db : Database σ α} {c c' : Config σ α τ ρ}

theorem Placed.start (script : Script α τ ρ) (w : World σ τ) :
    (⟨.run script, {}, [], w⟩ : Config σ α τ ρ).Placed :=
  ⟨.nowhere, True.intro, True.intro⟩

theorem Placed.enterAttempt {trial : Trial α τ ρ} {o : Opened} (h : c.Placed)
    (hcontrol : c.control = .attempt trial) (hopened : ∀ t, trial.opening = .savepoint t ↔
      ∃ name flag, o = .savepoint t name flag)
    (hfresh : ∀ t flag, o = .own t flag → t ∉ begun c.frames) (w : World σ τ) :
    (c.enter (o.scope trial.suspended) o.context (.attempt trial o) trial.work trial.number
      w).Placed := by
  have hfits := h.control
  rw [hcontrol] at hfits
  obtain ⟨-, hhere, hopening⟩ := hfits
  rcases o with ⟨t, flag⟩ | ⟨t, name, flag⟩
  · -- all that has begun is suspended by a transaction of its own
    have hs : ∀ u, u ∈ trial.suspended ↔ u ∈ begun c.frames := by
      intro u
      have hne : trial.opening ≠ .savepoint u := by simp [hopened]
      rw [hopening.suspended u, and_iff_left hne]
    have hframe : (Frame.attempt trial (.own t flag)).Fits (begun c.frames) :=
      ⟨⟨hhere, hopening⟩, by simp⟩
    exact ⟨h.arranged.inOwn (hfresh t flag rfl) hs flag, ⟨hframe, h.stacked⟩, True.intro⟩
  · have ht : trial.opening = .savepoint t := (hopened t).mpr ⟨name, flag, rfl⟩
    -- the transaction of the savepoint stays active
    have hs : ∀ u, u ∈ trial.suspended ↔ u ∈ begun c.frames ∧ u ≠ t := by
      intro u
      rw [hopening.suspended u, ht]
      simp [eq_comm]
    have hframe : (Frame.attempt trial (.savepoint t name flag)).Fits (begun c.frames) := by
      refine ⟨⟨hhere, hopening⟩, fun u name' flag' ho => ?_⟩
      cases ho
      exact hopening.inside t ht
    exact ⟨h.arranged.within (hopening.inside t ht) hs flag, ⟨hframe, h.stacked⟩, True.intro⟩

/-- An attempt opens what it is to open. -/
theorem opened_savepoint_iff {m : Manager σ α} {opening : Opening} {o : Opened}
    {w w' : World σ τ} (h : (m.openAttempt opening).perform w = (.ok o, w')) (t : Transaction) :
    opening = .savepoint t ↔ ∃ name flag, o = .savepoint t name flag := by
  cases Manager.openSteps h <;> simp

/-- Every step keeps the places in order, as long as transactions that begin are new. -/
theorem Placed.step (h : c.Placed) (hstep : c.step db = some c')
    (hfresh : ∀ trial t flag w', c.control = .attempt trial →
      (db.openAttempt trial.opening).perform c.world = (.ok (.own t flag), w') →
      t ∉ begun c.frames) : c'.Placed := by
  have hmove := moves_of_step hstep
  obtain ⟨control, here, frames, w⟩ := c
  cases hmove with
  | @join _ _ _ t flag suspended hentry =>
    obtain ⟨ht, hs⟩ : (Entry.join t flag suspended).Fits (begun frames) :=
      hentry ▸ h.arranged.entry _
    exact ⟨h.arranged.within ht hs flag, ⟨h.arranged, h.stacked⟩, True.intro⟩
  | @free _ _ _ suspended hentry =>
    have hs : (Entry.free suspended).Fits (begun frames) := hentry ▸ h.arranged.entry _
    exact ⟨h.arranged.outside hs _, ⟨h.arranged, h.stacked⟩, True.intro⟩
  | @permit _ _ _ opening suspended _ hentry =>
    have hopening : (Entry.attempts opening suspended).Fits (begun frames) :=
      hentry ▸ h.arranged.entry _
    exact ⟨h.arranged, h.stacked, rfl, h.arranged, hopening⟩
  | stay | hold | borrow => exact ⟨h.arranged, ⟨h.arranged, h.stacked⟩, True.intro⟩
  | unopened => exact ⟨h.arranged, h.stacked, h.control⟩
  | opened hopen =>
    refine h.enterAttempt rfl (opened_savepoint_iff hopen) (fun t flag ho => ?_) _
    exact hfresh _ t flag _ rfl (ho ▸ hopen)
  | again =>
    obtain ⟨hhere, hplace, hopening⟩ := h.control
    exact ⟨h.arranged, h.stacked, hhere, hplace, hopening⟩
  -- what has ended gives way to the place below it
  | leave hframes | letGo hframes | giveBack hframes =>
    subst hframes
    exact ⟨h.stacked.1, h.stacked.2, True.intro⟩
  | close hframes =>
    subst hframes
    exact ⟨h.stacked.1.1.here, h.stacked.2, rfl, h.stacked.1.1⟩
  | _ => exact ⟨h.arranged, h.stacked, True.intro⟩

end Config

end RowMapping
