/-
A journal of what was done on each connection.

Several connections change what is committed, and from the contents before and after it
cannot be told which one did. An engine keeps a journal when everything that is done on a
connection is written down, with what was committed before and afterwards. Every engine
can be given one: the journal is written only, so the engine does what it did without it.
-/
import RowMapping.Proofs.Storage.Failures

set_option autoImplicit false

namespace RowMapping

variable {σ δ ρ ε : Type} {storage : σ → Storage δ}

/-- Something that was done on a connection, with what was committed before and afterwards. -/
structure Deed (δ : Type) where
  connection : ConnectionId
  before : δ
  after : δ

/-- What was done on a connection is the last thing in the journal. -/
def Noted (storage : σ → Storage δ) (journal : σ → List (Deed δ)) (c : ConnectionId)
    (s s' : σ) : Prop :=
  journal s' = journal s ++ [⟨c, (storage s).contents, (storage s').contents⟩]

/-- An engine that keeps a journal. -/
structure Engine.Journals (E : Engine σ) (storage : σ → Storage δ)
    (journal : σ → List (Deed δ)) : Prop where
  acquire : ∀ s, journal (E.acquire s).2 = journal s
  execute : ∀ c statement s, Noted storage journal c s (E.execute c statement s).2
  update : ∀ c sql cells s, Noted storage journal c s (E.update c sql cells s).2
  select : ∀ c sql cells s, Noted storage journal c s (E.select c sql cells s).2
  totalChanges : ∀ c s, Noted storage journal c s (E.totalChanges c s).2
  release : ∀ c close s, Noted storage journal c s (E.release c close s)

/-! ## What a connection has published -/

/-- On the way from one state to another one, nothing that was done on a connection has
changed what is committed. -/
def Withheld (journal : σ → List (Deed δ)) (c : ConnectionId) (s s' : σ) : Prop :=
  ∃ deeds, journal s' = journal s ++ deeds ∧ ∀ deed ∈ deeds, deed.connection = c →
    deed.after = deed.before

namespace Withheld

variable {journal : σ → List (Deed δ)} {c i : ConnectionId} {s s₁ s₂ s' : σ}

/-- Nothing was done at all. -/
theorem of_same (h : journal s' = journal s) : Withheld journal c s s' :=
  ⟨[], by rw [h, List.append_nil], by simp⟩

theorem refl (s : σ) : Withheld journal c s s := of_same rfl

theorem trans (h₁ : Withheld journal c s s₁) (h₂ : Withheld journal c s₁ s₂) :
    Withheld journal c s s₂ := by
  obtain ⟨deeds₁, hjournal₁, hsame₁⟩ := h₁
  obtain ⟨deeds₂, hjournal₂, hsame₂⟩ := h₂
  refine ⟨deeds₁ ++ deeds₂, by rw [hjournal₂, hjournal₁, List.append_assoc], fun deed hdeed => ?_⟩
  rcases List.mem_append.mp hdeed with hdeed | hdeed
  · exact hsame₁ deed hdeed
  · exact hsame₂ deed hdeed

/-- One thing was done, on another connection or without changing what is committed. -/
theorem of_noted (h : Noted storage journal i s s')
    (hsame : i = c → (storage s').contents = (storage s).contents) : Withheld journal c s s' := by
  refine ⟨_, h, fun deed hdeed hc => ?_⟩
  rw [List.mem_singleton] at hdeed
  subst hdeed
  exact hsame hc

end Withheld

/-! ## Giving an engine a journal -/

/-- Write down what was done on a connection. -/
def writeDown (storage : σ → Storage δ) (c : ConnectionId) (s : σ × List (Deed δ)) (s' : σ) :
    σ × List (Deed δ) :=
  (s', s.2 ++ [⟨c, (storage s.1).contents, (storage s').contents⟩])

/-- The same engine with a journal. -/
def Engine.withJournal (E : Engine σ) (storage : σ → Storage δ) : Engine (σ × List (Deed δ)) where
  acquire s := ((E.acquire s.1).1, (E.acquire s.1).2, s.2)
  execute c statement s :=
    ((E.execute c statement s.1).1, writeDown storage c s (E.execute c statement s.1).2)
  update c sql cells s :=
    ((E.update c sql cells s.1).1, writeDown storage c s (E.update c sql cells s.1).2)
  select c sql cells s :=
    ((E.select c sql cells s.1).1, writeDown storage c s (E.select c sql cells s.1).2)
  totalChanges c s :=
    ((E.totalChanges c s.1).1, writeDown storage c s (E.totalChanges c s.1).2)
  release c close s := writeDown storage c s (E.release c close s.1)

/-- The journal changes nothing about what may fail. -/
theorem Engine.Unreliable.withJournal {E : Engine σ} {schema : Schema δ}
    (hE : E.Unreliable schema storage) :
    (E.withJournal storage).Unreliable schema fun s => storage s.1 where
  acquire s := hE.acquire s.1
  execute c statement s := hE.execute c statement s.1
  update c sql cells s := hE.update c sql cells s.1
  select c sql cells s := hE.select c sql cells s.1
  totalChanges c s := hE.totalChanges c s.1
  release c close s := hE.release c close s.1

end RowMapping
