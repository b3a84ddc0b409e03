/-
The order of the statements that the manager runs on a connection.

On a connection the statements make up blocks. A block begins a transaction, goes on
with savepoints that are nested in each other, and ends the transaction once: by
committing, by rolling back, or by rolling back where committing has failed. The
savepoints of a transaction are numbered, so as long as the numbers last their names
differ.
-/
import RowMapping.Proofs.Transaction.Action

set_option autoImplicit false

namespace RowMapping

variable {σ τ α ρ : Type}

/-- A statement with whether it succeeded. -/
abbrev Said := Statement × Bool

/-- The statements that were run on a connection. -/
def statementsOn (c : ConnectionId) : List (Event τ) → List Said
  | [] => []
  | .executed execution statement :: rest =>
    if execution.connection = c then (statement, execution.succeeded) :: statementsOn c rest
    else statementsOn c rest
  | _ :: rest => statementsOn c rest

theorem statementsOn_append (c : ConnectionId) (first second : List (Event τ)) :
    statementsOn c (first ++ second) = statementsOn c first ++ statementsOn c second := by
  induction first with
  | nil => rfl
  | cons event rest ih =>
    rcases event with ⟨execution, statement⟩ | _ | _
    · rw [List.cons_append, statementsOn, statementsOn, ih]
      split <;> rfl
    · exact ih
    · exact ih

/-- The events of statements on one connection. -/
def eventsOn (c : ConnectionId) (said : List Said) : List (Event τ) :=
  said.map fun s => .executed ⟨c, s.2⟩ s.1

theorem statementsOn_eventsOn (c : ConnectionId) (said : List Said) :
    statementsOn c (eventsOn c said : List (Event τ)) = said := by
  induction said with
  | nil => rfl
  | cons s rest ih =>
    show statementsOn c (.executed ⟨c, s.2⟩ s.1 :: eventsOn c rest : List (Event τ)) = _
    rw [statementsOn, if_pos rfl, ih]

theorem statementsOn_eventsOn_of_ne {c i : ConnectionId} (h : i ≠ c) (said : List Said) :
    statementsOn i (eventsOn c said : List (Event τ)) = [] := by
  induction said with
  | nil => rfl
  | cons s rest ih =>
    show statementsOn i (.executed ⟨c, s.2⟩ s.1 :: eventsOn c rest : List (Event τ)) = _
    have hne : c ≠ i := fun heq => h heq.symm
    rw [statementsOn, if_neg hne, ih]

/-! ## Savepoints -/

/-- The name of a savepoint by its number. -/
def savepointName (number : UInt32) : String := "sp_" ++ toString number

/-- The names of the savepoints that follow a number. -/
def namesAfter (number : UInt32) : Nat → List String
  | 0 => []
  | count + 1 => savepointName (number + 1) :: namesAfter (number + 1) count

theorem length_namesAfter (number : UInt32) (count : Nat) :
    (namesAfter number count).length = count := by
  induction count generalizing number with
  | zero => rfl
  | succ count ih => rw [namesAfter, List.length_cons, ih]

theorem add_ofNat_succ (number : UInt32) (count : Nat) :
    number + UInt32.ofNat (count + 1) = number + 1 + UInt32.ofNat count := by
  rw [UInt32.ofNat_add, UInt32.add_comm (UInt32.ofNat count), UInt32.add_assoc]
  rfl

theorem namesAfter_append (number : UInt32) (n k : Nat) :
    namesAfter number n ++ namesAfter (number + UInt32.ofNat n) k = namesAfter number (n + k) := by
  induction n generalizing number with
  | zero =>
    have hzero : number + UInt32.ofNat 0 = number := UInt32.add_zero number
    rw [hzero, Nat.zero_add]
    rfl
  | succ n ih =>
    rw [add_ofNat_succ, Nat.succ_add, namesAfter, namesAfter, List.cons_append, ih]

theorem savepointName_inj {i j : UInt32} (h : savepointName i = savepointName j) : i = j := by
  have hchars := congrArg String.toList h
  rw [savepointName, savepointName, String.toList_append, String.toList_append] at hchars
  have hdigits : Nat.toDigits 10 i.toNat = Nat.toDigits 10 j.toNat := by
    rw [← Nat.toList_repr, ← Nat.toList_repr]
    exact List.append_cancel_left hchars
  have hvalue := congrArg (fun digits => Nat.ofDigitChars 10 digits 0) hdigits
  simp only [Nat.ofDigitChars_ten_toDigits] at hvalue
  exact UInt32.toNat_inj.mp hvalue

theorem toNat_next {number : UInt32} {count : Nat} (h : number.toNat + (count + 1) < UInt32.size) :
    (number + 1).toNat = number.toNat + 1 := by
  have hone : (1 : UInt32).toNat = 1 := rfl
  have hsize : UInt32.size = 4294967296 := rfl
  rw [UInt32.toNat_add, hone]
  omega

/-- The names that follow a number have greater ones, as long as the numbers last. -/
theorem number_of_mem_namesAfter {number : UInt32} {count : Nat} {name : String}
    (h : number.toNat + count < UInt32.size) (hname : name ∈ namesAfter number count) :
    ∃ later : UInt32, name = savepointName later ∧ number.toNat < later.toNat := by
  induction count generalizing number with
  | zero => cases hname
  | succ count ih =>
    have hnext := toNat_next h
    rcases List.mem_cons.mp hname with rfl | hmem
    · refine ⟨number + 1, rfl, ?_⟩
      omega
    · obtain ⟨later, hlater, hlt⟩ := ih (by omega) hmem
      refine ⟨later, hlater, ?_⟩
      omega

theorem nodup_namesAfter {number : UInt32} {count : Nat} (h : number.toNat + count < UInt32.size) :
    (namesAfter number count).Nodup := by
  induction count generalizing number with
  | zero => exact .nil
  | succ count ih =>
    have hnext := toNat_next h
    refine List.nodup_cons.mpr ⟨fun hmem => ?_, ih (by omega)⟩
    obtain ⟨later, hlater, hlt⟩ := number_of_mem_namesAfter (by omega) hmem
    rw [← savepointName_inj hlater] at hlt
    omega

/-- Savepoints that are nested in each other or follow each other, with their names in
the order in which they are set. A savepoint is released, and what was done since may be
taken back before. -/
inductive Nested (d : Dialect α) : List String → List Said → Prop
  | nil : Nested d [] []
  | kept (name : String) {inner later : List String} {within after : List Said}
      (hinner : Nested d inner within) (hlater : Nested d later after) :
      Nested d (name :: (inner ++ later))
        ((d.savepoint name, true) :: (within ++ (d.release name, true) :: after))
  | undone (name : String) {inner later : List String} {within after : List Said}
      (hinner : Nested d inner within) (hlater : Nested d later after) :
      Nested d (name :: (inner ++ later))
        ((d.savepoint name, true) ::
          (within ++ (d.rollbackTo name, true) :: (d.release name, true) :: after))

theorem Nested.append {d : Dialect α} {first second : List String} {before after : List Said}
    (h₁ : Nested d first before) (h₂ : Nested d second after) :
    Nested d (first ++ second) (before ++ after) := by
  induction h₁ with
  | nil => exact h₂
  | kept name hinner _ _ ih =>
    have h := Nested.kept name hinner ih
    simpa using h
  | undone name hinner _ _ ih =>
    have h := Nested.undone name hinner ih
    simpa using h

/-! ## Blocks -/

def succeeded (statements : List Statement) : List Said := statements.map fun s => (s, true)

/-- How a transaction is ended: once. -/
inductive Ending (d : Dialect α) : List Said → Prop
  | committed : Ending d [(d.commit, true)]
  | rolledBack : Ending d [(d.rollback, true)]
  | notCommitted : Ending d [(d.commit, false), (d.rollback, true)]

/-- The statements of one transaction. -/
inductive Block (d : Dialect α) : List Said → Prop
  | mk (isolation : Isolation) {names : List String} {nested ending : List Said}
      (hnested : Nested d names nested) (hnames : names.length < UInt32.size → names.Nodup)
      (hending : Ending d ending) :
      Block d (succeeded (d.begin isolation) ++ nested ++ ending
        ++ succeeded (d.finish isolation))

/-- The savepoints of a transaction are named in turn, so that as few as they can be have
names of their own. -/
theorem Block.numbered {d : Dialect α} (isolation : Isolation) {count : Nat}
    {nested ending : List Said} (hnested : Nested d (namesAfter 0 count) nested)
    (hending : Ending d ending) :
    Block d (succeeded (d.begin isolation) ++ nested ++ ending
      ++ succeeded (d.finish isolation)) := by
  refine .mk isolation hnested (fun hcount => nodup_namesAfter ?_) hending
  rw [length_namesAfter] at hcount
  rw [UInt32.toNat_zero, Nat.zero_add]
  exact hcount

/-- The statements of transactions one after the other. -/
inductive Blocks (d : Dialect α) : List Said → Prop
  | nil : Blocks d []
  | cons {block rest : List Said} (hblock : Block d block) (hrest : Blocks d rest) :
      Blocks d (block ++ rest)

theorem Blocks.append {d : Dialect α} {before after : List Said} (h₁ : Blocks d before)
    (h₂ : Blocks d after) : Blocks d (before ++ after) := by
  induction h₁ with
  | nil => exact h₂
  | cons hblock _ ih =>
    rw [List.append_assoc]
    exact .cons hblock ih

theorem Block.blocks {d : Dialect α} {said : List Said} (h : Block d said) : Blocks d said := by
  have hone := Blocks.cons h .nil
  rw [List.append_nil] at hone
  exact hone

end RowMapping
