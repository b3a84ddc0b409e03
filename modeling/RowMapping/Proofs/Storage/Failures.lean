/-
Engines that may fail.

Whatever is asked of such an engine, it either does what the storage below it does, or
fails and leaves the storage as it was. When this happens is up to the engine, so what
holds for all of them holds for all failures in all combinations. Closing a connection
does not fail, and rolls back what is open on it.
-/
import RowMapping.Proofs.Storage.Rest

set_option autoImplicit false

namespace RowMapping

variable {σ δ ρ ε : Type}

/-- What was asked of the storage was done, or it failed and the storage is as it was. -/
def MayFail (storage : σ → Storage δ) (s : σ) (done : Except ε ρ × Storage δ)
    (r : Except ε ρ × σ) : Prop :=
  (r.1 = done.1 ∧ storage r.2 = done.2) ∨ ∃ e, r.1 = .error e ∧ storage r.2 = storage s

/-- An engine over a storage that may fail at any time. -/
structure Engine.Unreliable (E : Engine σ) (schema : Schema δ) (storage : σ → Storage δ) :
    Prop where
  acquire : ∀ s, MayFail storage s (storage s).acquire (E.acquire s)
  execute : ∀ c statement s,
    MayFail storage s ((storage s).execute schema.check c statement) (E.execute c statement s)
  update : ∀ c sql cells s,
    MayFail storage s ((storage s).update schema c sql cells) (E.update c sql cells s)
  select : ∀ c sql cells s,
    MayFail storage s ((storage s).select schema c sql cells) (E.select c sql cells s)
  totalChanges : ∀ c s,
    MayFail storage s (.ok ((storage s).sessions c).changes, storage s) (E.totalChanges c s)
  release : ∀ c close s, storage (E.release c close s) = (storage s).giveBack c close

/-- The storage itself fails only where it must. -/
theorem Storage.unreliable_engine (schema : Schema δ) : (engine schema).Unreliable schema id where
  acquire _ := .inl ⟨rfl, rfl⟩
  execute _ _ _ := .inl ⟨rfl, rfl⟩
  update _ _ _ _ := .inl ⟨rfl, rfl⟩
  select _ _ _ _ := .inl ⟨rfl, rfl⟩
  totalChanges _ _ := .inl ⟨rfl, rfl⟩
  release _ _ _ := rfl

/-! ## Failures by plan -/

/-- A storage, and which of the statements to come fail. -/
structure Faulty (δ : Type) where
  storage : Storage δ
  faults : List Bool

namespace Faulty

/-- Run a statement, unless it is to fail. -/
def attempt (f : Storage δ → Except DriverError ρ × Storage δ) (s : Faulty δ) :
    Except DriverError ρ × Faulty δ :=
  match s.faults with
  | true :: faults => (.error (.ofResultCode 10 "disk I/O error"), { s with faults })
  | false :: faults => ((f s.storage).1, ⟨(f s.storage).2, faults⟩)
  | [] => ((f s.storage).1, { s with storage := (f s.storage).2 })

theorem mayFail_attempt (f : Storage δ → Except DriverError ρ × Storage δ) (s : Faulty δ) :
    MayFail storage s (f s.storage) (attempt f s) := by
  obtain ⟨storage, _ | ⟨_ | _, faults⟩⟩ := s
  · exact .inl ⟨rfl, rfl⟩
  · exact .inl ⟨rfl, rfl⟩
  · exact .inr ⟨_, rfl, rfl⟩

/-- A storage whose statements fail as planned. -/
def engine (schema : Schema δ) : Engine (Faulty δ) where
  acquire s := (s.storage.acquire.1, { s with storage := s.storage.acquire.2 })
  execute c statement := attempt (Storage.execute schema.check c statement)
  update c sql cells s :=
    ((s.storage.update schema c sql cells).1,
      { s with storage := (s.storage.update schema c sql cells).2 })
  select c sql cells s :=
    ((s.storage.select schema c sql cells).1,
      { s with storage := (s.storage.select schema c sql cells).2 })
  totalChanges c := attempt fun s => (.ok (s.sessions c).changes, s)
  release c close s := { s with storage := s.storage.giveBack c close }

theorem unreliable_engine (schema : Schema δ) :
    (engine schema).Unreliable schema Faulty.storage where
  acquire _ := .inl ⟨rfl, rfl⟩
  execute c statement s := mayFail_attempt (Storage.execute schema.check c statement) s
  update _ _ _ _ := .inl ⟨rfl, rfl⟩
  select _ _ _ _ := .inl ⟨rfl, rfl⟩
  totalChanges c s := mayFail_attempt (fun s => (.ok (s.sessions c).changes, s)) s
  release _ _ _ := rfl

end Faulty

end RowMapping
