/-
The connections that go with the frames of the machine.

Each frame keeps a transaction open, or a connection that the application has. Nothing
else is in use, so all other connections are at rest. A step leaves it like that: what it
begins goes with a new frame, and what it ends was on the last one.

A connection that the application has is at rest too, since nothing is run on it before it
is given back. That matters: nobody looks at it then.
-/
import RowMapping.Proofs.Transaction.Tending

set_option autoImplicit false

namespace RowMapping

variable {σ δ τ α ρ : Type} {storage : σ → Storage δ} {schema : Schema δ}

/-! ## What an application runs past the database -/

/-- Every statement that a script runs past the database is of a certain kind. -/
def Script.Executes (kind : Statement → Prop) : Script α τ ρ → Prop
  | .finish _ => True
  | .note _ next => next.Executes kind
  | .operate _ next => ∀ r, (next r).Executes kind
  | .bypass _ operation next => operation.Executes kind ∧ ∀ r, (next r).Executes kind
  | .setRollbackOnly _ next => next.Executes kind
  | .observe next => ∀ seen, (next seen).Executes kind
  | .configure _ next => next.Executes kind
  | .scope _ work next => (∀ n, (work n).Executes kind) ∧ ∀ r, (next r).Executes kind
  | .hold _ meanwhile next => meanwhile.Executes kind ∧ ∀ r, (next r).Executes kind
  | .elsewhere _ work next => work.Executes kind ∧ ∀ r, (next r).Executes kind

structure Trial.Executes (kind : Statement → Prop) (trial : Trial α τ ρ) : Prop where
  work : ∀ n, (trial.work n).Executes kind
  next : ∀ r, (trial.next r).Executes kind

def Frame.Executes (kind : Statement → Prop) : Frame α τ ρ → Prop
  | plain _ next => ∀ r, (next r).Executes kind
  | attempt trial _ => trial.Executes kind
  | held _ _ next => ∀ r, (next r).Executes kind
  | borrowed _ _ next => ∀ r, (next r).Executes kind

def Control.Executes (kind : Statement → Prop) : Control α τ ρ → Prop
  | run script => script.Executes kind
  | attempt trial => trial.Executes kind
  | attempted trial _ => trial.Executes kind
  | done _ => True

namespace Config

structure Executes (kind : Statement → Prop) (c : Config σ α τ ρ) : Prop where
  control : c.control.Executes kind
  frames : ∀ frame ∈ c.frames, frame.Executes kind

variable {db : Database σ α} {c c' : Config σ α τ ρ} {kind : Statement → Prop}

theorem Executes.cons {frame : Frame α τ ρ} (h : c.Executes kind)
    (hframe : frame.Executes kind) : ∀ f ∈ frame :: c.frames, f.Executes kind := by
  intro f hf
  rcases List.mem_cons.mp hf with rfl | hf
  · exact hframe
  · exact h.frames f hf

/-- The statements to come are those of the script that is left. -/
theorem Executes.step (h : c.Executes kind) (hstep : c.step db = some c') :
    c'.Executes kind := by
  have hmove := moves_of_step hstep
  obtain ⟨control, here, frames, w⟩ := c
  have hcontrol := h.control
  cases hmove with
  | finish => exact ⟨True.intro, h.frames⟩
  | note | mark | configure | unopened => exact ⟨hcontrol, h.frames⟩
  | operate | observe => exact ⟨hcontrol _, h.frames⟩
  | bypass | refuse | forbid | exhaust => exact ⟨hcontrol.2 _, h.frames⟩
  | join | free => exact ⟨hcontrol.1 1, h.cons hcontrol.2⟩
  | permit => exact ⟨⟨hcontrol.1, hcontrol.2⟩, h.frames⟩
  | stay | hold | borrow => exact ⟨hcontrol.1, h.cons hcontrol.2⟩
  | opened => exact ⟨hcontrol.work _, h.cons hcontrol⟩
  | again => exact ⟨⟨hcontrol.work, hcontrol.next⟩, h.frames⟩
  | conclude => exact ⟨hcontrol.next _, h.frames⟩
  | leave hframes | letGo hframes | giveBack hframes =>
    subst hframes
    exact ⟨h.frames _ (List.mem_cons_self ..) _, fun f hf => h.frames f (List.mem_cons_of_mem _ hf)⟩
  | close hframes =>
    subst hframes
    exact ⟨h.frames _ (List.mem_cons_self ..), fun f hf => h.frames f (List.mem_cons_of_mem _ hf)⟩

end Config

/-! ## What is kept about the connections in use -/

/-- A transaction that has not been settled. -/
structure Unsettled (storage : σ → Storage δ) (strict : Prop) (t : Transaction)
    (w : World σ τ) : Prop where
  suits : Manager.Suits storage t.connection t.isolation w
  isOpen : strict → (storage w.store).Opened t.connection
  unfinished : (w.stateOf t).finished = false
  numbered : t.id < w.nextTransaction

/-- What is kept about the connection that goes with a frame. -/
def Frame.Tended (storage : σ → Storage δ) (strict : Prop) (w : World σ τ) : Frame α τ ρ → Prop
  | attempt _ (.own t _) => Unsettled storage strict t w
  | borrowed _ c _ => ((storage w.store).sessions c).AtRest
  | _ => True

/-- The terms that things are done under while the transactions of some frames are open. -/
def termsWithin (strict calm : Prop) (frames : List (Frame α τ ρ)) (first : Nat) : Terms where
  strict := strict
  calm := calm
  first := first
  mine := (begun frames).map (·.connection)

/-- All connections are at rest but those of the frames, and later frames have later
transactions. -/
structure Tended (storage : σ → Storage δ) (strict : Prop) (frames : List (Frame α τ ρ))
    (w : World σ τ) : Prop where
  rests : (storage w.store).Rests (checkedOut frames)
  apart : (checkedOut frames).Nodup
  each : ∀ frame ∈ frames, frame.Tended storage strict w
  ordered : (begun frames).Pairwise fun t u => u.id < t.id

/-- What comes of a step: the connections are kept, and nothing is committed without a
COMMIT. -/
structure Passes (storage : σ → Storage δ) (strict calm : Prop) (frames : List (Frame α τ ρ))
    (w w' : World σ τ) : Prop where
  tended : Tended storage strict frames w'
  contents : strict → calm →
    (storage w'.store).contents = (storage w.store).contents ∨ w.Commits w'
  grown : w.trace <+: w'.trace

section Steps

variable {strict calm : Prop} {frames : List (Frame α τ ρ)} {frame : Frame α τ ρ}
  {w w₁ w' : World σ τ}

theorem Unsettled.tends {T : Terms} {used out : List ConnectionId} {t : Transaction}
    (h : Unsettled storage T.strict t w) (ht : Tends storage T used out w w')
    (hc : t.connection ∈ used) (hid : t.id < T.first) : Unsettled storage T.strict t w' where
  suits := by
    rw [Manager.Suits, ht.settings t.connection hc]
    exact h.suits
  isOpen hstrict := ht.opened hstrict t.connection hc (h.isOpen hstrict)
  unfinished := (ht.finished t.id hid).trans h.unfinished
  numbered := Nat.lt_of_lt_of_le h.numbered ht.numbers

/-- What is done on other connections keeps a frame. -/
theorem frames_tended {first : Nat} {out : List ConnectionId}
    (hapart : (checkedOut frames).Nodup)
    (hframes : ∀ frame ∈ frames, frame.Tended storage strict w)
    (ht : Tends storage (termsWithin strict calm frames first) (checkedOut frames) out w w')
    (hfirst : ∀ t ∈ begun frames, t.id < first) :
    ∀ frame ∈ frames, frame.Tended storage strict w' := by
  intro frame hframe
  have htended := hframes frame hframe
  rcases frame with ⟨here, next⟩ | ⟨trial, ⟨t, flag⟩ | ⟨t, name, flag⟩⟩ | ⟨here, t, next⟩ |
    ⟨here, c, next⟩
  · exact True.intro
  · have hbegun : t ∈ begun frames := List.mem_filterMap.mpr ⟨_, hframe, rfl⟩
    exact Unsettled.tends (T := termsWithin strict calm frames first) htended ht
      (connection_mem_checkedOut hbegun) (hfirst t hbegun)
  · exact True.intro
  · exact True.intro
  · have hc : c ∈ checkedOut frames := List.mem_filterMap.mpr ⟨_, hframe, rfl⟩
    have hrest : ((storage w.store).sessions c).AtRest := htended
    refine ⟨ht.closed c hc (fun hmine => ?_) hrest.transaction,
      (ht.settings c hc).trans hrest.settings⟩
    -- nothing was begun on it, so nothing is run on it
    obtain ⟨t, hbegun, heq⟩ := List.mem_map.mp hmine
    exact connection_ne_of_borrowed hapart hframe hbegun heq

namespace Tended

theorem unsettled (h : Tended storage strict frames w) {t : Transaction} (ht : t ∈ begun frames) :
    Unsettled storage strict t w := by
  obtain ⟨frame, hframe, hown⟩ := List.mem_filterMap.mp ht
  have htended := h.each frame hframe
  rcases frame with _ | ⟨trial, u | _⟩ | _ | _
  case attempt.own =>
    cases hown
    exact htended
  all_goals cases hown

/-- Everything stays in use. -/
theorem tends (h : Tended storage strict frames w)
    (ht : Tends storage (termsWithin strict calm frames w.nextTransaction) (checkedOut frames)
      (checkedOut frames) w w') : Passes storage strict calm frames w w' := by
  refine ⟨⟨ht.rests, h.apart, ?_, h.ordered⟩, ht.contents, ht.grown⟩
  exact frames_tended h.apart h.each ht fun t hbegun => (h.unsettled hbegun).numbered

theorem acts (h : Tended storage strict frames w) {κ : Type} {a : Action σ τ κ}
    (ha : Tending storage (termsWithin strict calm frames w.nextTransaction)
      (checkedOut frames) a) :
    Passes storage strict calm frames w (a.perform w).2 :=
  h.tends <| ha w (Nat.le_refl _) h.rests fun hstrict c hc => by
    obtain ⟨t, hbegun, rfl⟩ := List.mem_map.mp hc
    exact (h.unsettled hbegun).isOpen hstrict

theorem still (h : Tended storage strict frames w) : Passes storage strict calm frames w w :=
  ⟨h, fun _ _ => .inl rfl, List.prefix_refl _⟩

/-- Nothing becomes of the storage, nor of what has ended. -/
theorem aside (h : Tended storage strict frames w) (hstore : w'.store = w.store)
    (hgrown : w.trace <+: w'.trace)
    (hstates : ∀ i, (w'.transactions i).finished = (w.transactions i).finished)
    (hnext : w'.nextTransaction = w.nextTransaction) :
    Passes storage strict calm frames w w' :=
  h.tends (.of_storage h.rests (congrArg storage hstore) hgrown hstates hnext)

/-- A connection is taken from the pool for the application. -/
theorem borrows (h : Tended storage strict frames w) {m : Manager σ α}
    (hE : m.engine.Unreliable schema storage) {c : ConnectionId}
    (hrun : (m.acquire).perform w = (.ok c, w')) (here : Surroundings)
    (next : Except Error ρ → Script α τ ρ) :
    Passes storage strict calm (.borrowed here c next :: frames) w w' := by
  obtain ⟨hc, ht, hrest⟩ := Manager.tends_acquire
    (T := termsWithin strict calm frames w.nextTransaction) hE h.rests hrun
  refine ⟨⟨ht.rests, List.nodup_cons.mpr ⟨hc, h.apart⟩, ?_, h.ordered⟩, ht.contents, ht.grown⟩
  intro frame hframe
  rcases List.mem_cons.mp hframe with rfl | hframe
  · exact hrest
  · exact frames_tended h.apart h.each ht (fun t hbegun => (h.unsettled hbegun).numbered)
      frame hframe

theorem begins (h : Tended storage strict frames w) {t : Transaction}
    (ht : Manager.Enters storage (termsWithin strict calm frames w.nextTransaction)
      (checkedOut frames) w t w')
    (trial : Trial α τ ρ) (flag : FlagId) :
    Passes storage strict calm (.attempt trial (.own t flag) :: frames) w w' := by
  have hlast : ∀ u ∈ begun frames, u.id < w.nextTransaction := fun u hu =>
    (h.unsettled hu).numbered
  refine ⟨⟨ht.rests, List.nodup_cons.mpr ⟨ht.fresh, h.apart⟩, ?_, ?_⟩, ht.contents, ht.grown⟩
  · intro frame hframe
    rcases List.mem_cons.mp hframe with rfl | hframe
    · exact ⟨ht.suits, fun _ => ht.isOpen, ht.unfinished, ht.numbered⟩
    · exact frames_tended h.apart h.each ht.toTends hlast frame hframe
  · refine List.pairwise_cons.mpr ⟨fun u hu => ?_, h.ordered⟩
    exact Nat.lt_of_lt_of_le (hlast u hu) ht.unused

/-- A transaction is settled, and its connection is no longer in use. -/
theorem settles {m : Manager σ α} (hE : m.engine.Unreliable schema storage)
    (hd : m.dialect = .sqlite) {trial : Trial α τ ρ} {t : Transaction} {flag : FlagId}
    (h : Tended storage strict (.attempt trial (.own t flag) :: frames) w)
    (result : Except Error ρ) (marked : Bool) :
    Passes storage strict calm frames w ((m.settle t result marked).perform w).2 := by
  have hunsettled : Unsettled storage strict t w := h.unsettled (List.mem_cons_self ..)
  obtain ⟨hc, hapart⟩ := List.nodup_cons.mp h.apart
  obtain ⟨hlast, hordered⟩ := List.pairwise_cons.mp h.ordered
  -- all transactions that are left have begun before this one
  have ht := Manager.tends_settle (T := termsWithin strict calm frames t.id) hE hd hc
    (Nat.le_refl _) (.of_unfinished h.rests hunsettled.suits hunsettled.unfinished) result marked
  refine ⟨⟨ht.rests, hapart, ?_, hordered⟩, ht.contents, ht.grown⟩
  exact frames_tended hapart (fun f hf => h.each f (List.mem_cons_of_mem _ hf)) ht hlast

/-- A connection of the application goes back to the pool as it is, and it is at rest. -/
theorem returns {m : Manager σ α} (hE : m.engine.Unreliable schema storage) {here : Surroundings}
    {c : ConnectionId} {next : Except Error ρ → Script α τ ρ}
    (h : Tended storage strict (.borrowed here c next :: frames) w) :
    Passes storage strict calm frames w ((m.release c false).perform w).2 := by
  obtain ⟨hc, hapart⟩ := List.nodup_cons.mp h.apart
  have hrest : ((storage w.store).sessions c).AtRest := h.each _ (List.mem_cons_self ..)
  have ht : Tends storage (termsWithin strict calm frames w.nextTransaction) (checkedOut frames)
      (checkedOut frames) w ((m.release c false).perform w).2 :=
    Tends.released hE hc (.refl h.rests) false fun _ => hrest
  refine ⟨⟨ht.rests, hapart, ?_, h.ordered⟩, ht.contents, ht.grown⟩
  exact frames_tended hapart (fun f hf => h.each f (List.mem_cons_of_mem _ hf)) ht
    fun t hbegun => (h.unsettled hbegun).numbered

/-- A frame that goes with no connection comes or goes. -/
theorem cons (h : Tended storage strict frames w) (hframe : frame.connection? = none) :
    Tended storage strict (frame :: frames) w := by
  have hout : checkedOut (frame :: frames) = checkedOut frames := List.filterMap_cons_none hframe
  have hbegun := begun_cons_of_connection? frames hframe
  refine ⟨hout ▸ h.rests, hout ▸ h.apart, ?_, hbegun ▸ h.ordered⟩
  intro f hf
  rcases List.mem_cons.mp hf with rfl | hf
  · rcases f with _ | ⟨trial, t | _⟩ | _ | _
    case attempt.own => cases hframe
    case borrowed => cases hframe
    all_goals exact True.intro
  · exact h.each f hf

theorem tail (h : Tended storage strict (frame :: frames) w) (hframe : frame.connection? = none) :
    Tended storage strict frames w := by
  have hout : checkedOut (frame :: frames) = checkedOut frames := List.filterMap_cons_none hframe
  have hbegun := begun_cons_of_connection? frames hframe
  exact ⟨hout ▸ h.rests, hout ▸ h.apart, fun f hf => h.each f (List.mem_cons_of_mem _ hf),
    hbegun ▸ h.ordered⟩

end Tended

namespace Passes

variable {frames' : List (Frame α τ ρ)}

theorem next (h₁ : Passes storage strict calm frames w w₁)
    (h₂ : Passes storage strict calm frames' w₁ w') : Passes storage strict calm frames' w w' where
  tended := h₂.tended
  contents hstrict hcalm := World.Commits.unless_trans (h₁.contents hstrict hcalm) h₁.grown
    (h₂.contents hstrict hcalm) h₂.grown
  grown := h₁.grown.trans h₂.grown

theorem cons (h : Passes storage strict calm frames w w') (hframe : frame.connection? = none) :
    Passes storage strict calm (frame :: frames) w w' :=
  ⟨h.tended.cons hframe, h.contents, h.grown⟩

theorem tail (h : Passes storage strict calm (frame :: frames) w w')
    (hframe : frame.connection? = none) : Passes storage strict calm frames w w' :=
  ⟨h.tended.tail hframe, h.contents, h.grown⟩

end Passes

/-- Whatever fails when an attempt begins, only a frame keeps what it has opened. -/
theorem Tended.opens (calm : Prop) (h : Tended storage strict frames w) {m : Manager σ α}
    (hE : m.engine.Unreliable schema storage) (hd : m.dialect = .sqlite) {opening : Opening}
    (hinside : ∀ t, opening = .savepoint t → t ∈ begun frames) {r : Except Error Opened}
    (hopen : (m.openAttempt opening).perform w = (r, w')) (trial : Trial α τ ρ) :
    match r with
    | .error _ => Passes storage strict calm frames w w'
    | .ok o => Passes storage strict calm (.attempt trial o :: frames) w w' ∧
        ∀ t flag, o = .own t flag → t ∉ begun frames := by
  have hset : ∀ u, opening = .savepoint u → Passes storage strict calm frames w w' := by
    rintro u rfl
    have hu : u ∈ begun frames := hinside u rfl
    have hopened : Passes storage strict calm frames w
        ((m.openAttempt (.savepoint u)).perform w).2 :=
      h.acts (Tending.openAttempt_savepoint hE hd (connection_mem_checkedOut hu)
        (List.mem_map.mpr ⟨u, hu, rfl⟩))
    rw [hopen] at hopened
    exact hopened
  cases Manager.openSteps hopen with
  | notBegun hbegin => exact h.tends (Manager.enters_begin hE hd (Nat.le_refl _) h.rests hbegin)
  | @begun _ t w₁ hbegin =>
    have hentered : Manager.Enters storage (termsWithin strict calm frames w.nextTransaction)
        (checkedOut frames) w t w₁ := Manager.enters_begin hE hd (Nat.le_refl _) h.rests hbegin
    have hbegun := h.begins hentered trial w₁.nextFlag
    refine ⟨hbegun.next (hbegun.tended.aside rfl (List.prefix_refl _) (fun _ => rfl) rfl), ?_⟩
    rintro t' flag ⟨⟩ ht
    -- a transaction that begins has a number that no other one has had
    have hlt := (h.unsettled ht).numbered
    have hle : w.nextTransaction ≤ t.id := hentered.unused
    omega
  | notSet => exact hset _ rfl
  | set => exact ⟨(hset _ rfl).cons rfl, by simp⟩

end Steps

end RowMapping
