/-
What programs of nested scopes mean, said without connections and statements.

A program runs scopes inside scopes, writes, marks the scopes around it, and goes
on as results say, so it may raise errors, pass them on or swallow them. Its meaning
is a ledger of writes. Each scope keeps the writes that survive in it, and when it
ends they go where its kind says:

- a scope with a transaction of its own commits them if it ends well and is not
  marked, whatever becomes of the scopes around it;
- a scope that divides a transaction adds them to the writes of the scope around it
  on the same condition, and never touches the writes made before;
- a scope that joins another one has no writes and no mark of its own: it writes
  into the scope it joins;
- a scope without a transaction commits every write at once.

A suspended transaction that has written blocks all writing until it goes on.
-/
import RowMapping.Database.Script
import RowMapping.Proofs.Transaction.Suspension
import RowMapping.Storage.Snapshot

set_option autoImplicit false

namespace RowMapping

variable {δ τ α ρ : Type}

/-! ## Writes -/

/-- A write that was carried out. -/
structure Write where
  sql : String
  cells : List Cell

/-- The contents after a write. A write that the schema refuses changes nothing. -/
def Write.apply (schema : Schema δ) (d : δ) (w : Write) : δ :=
  match schema.update w.sql w.cells d with
  | .ok changed => changed.contents
  | .error _ => d

/-- The contents after several writes. -/
def replay (schema : Schema δ) (writes : List Write) (d : δ) : δ :=
  writes.foldl (Write.apply schema) d

@[simp] theorem replay_nil (schema : Schema δ) (d : δ) : replay schema [] d = d := rfl

theorem replay_cons (schema : Schema δ) (w : Write) (writes : List Write) (d : δ) :
    replay schema (w :: writes) d = replay schema writes (w.apply schema d) := rfl

theorem replay_append (schema : Schema δ) (first second : List Write) (d : δ) :
    replay schema (first ++ second) d = replay schema second (replay schema first d) :=
  List.foldl_append

/-! ## Programs -/

/-- A write of the database: one query, or one for each list of arguments. -/
inductive WriteOperation (α : Type) where
  | one (q : Query α)
  | batch (sql : String) (argumentLists : List (List (Argument α)))

namespace WriteOperation

/-- A write as an operation of a script. -/
def operation : WriteOperation α → Operation α
  | one q => .update q
  | batch sql argumentLists => .updateBatch sql argumentLists

/-- The queries of a write, in the order they run. -/
def queries : WriteOperation α → List (Query α)
  | one q => [q]
  | batch sql argumentLists => argumentLists.map fun arguments => { sql, arguments }

/-- What a write answers, given the report of each of its queries. -/
def answer : WriteOperation α → List UpdateResult → Answer
  | one _, results => .updated (results.headD ⟨0, 0⟩)
  | batch _ _, results => .batch (results.map (·.rowsAffected))

end WriteOperation

/-- A program of nested scopes, each tried once. -/
inductive Program (α ρ : Type) where
  /-- Return, or fail. -/
  | finish (result : Except Error ρ)
  /-- Write, and go on as the result says. -/
  | write (operation : WriteOperation α) (next : Except Error Answer → Program α ρ)
  /-- Mark a scope around, counted from the innermost one, rollback-only. -/
  | setRollbackOnly (depth : Nat) (next : Program α ρ)
  /-- Run a scope, and go on as its result says. -/
  | scope (propagation : Propagation) (isolation : Isolation) (work : Program α ρ)
      (next : Except Error ρ → Program α ρ)

/-- A program as a script. -/
def Program.script : Program α ρ → Script α τ ρ
  | finish result => .finish result
  | write operation next => .operate operation.operation fun r => (next r).script
  | setRollbackOnly depth next => .setRollbackOnly depth next.script
  | scope propagation isolation work next =>
    .scope { propagation, isolation } (fun _ => work.script) fun r => (next r).script

/-! ## Places and ledgers -/

/-- What a meaning depends on: what writes do to the contents, how arguments are
converted, the settings of the database, and the contents at the start. -/
structure Premises (δ α : Type) where
  schema : Schema δ
  registry : Registry α
  settings : DatabaseSettings
  initial : δ

/-- The database the premises are about. -/
def Premises.database (g : Premises δ α) : Database (Storage δ) α :=
  .ofEngine (Storage.engine g.schema) .sqlite g.registry

/-- What the writes of a scope go to. -/
inductive Venue where
  /-- There is no scope: every write has a transaction of its own. -/
  | outside
  /-- There is no transaction: every write is committed at once. -/
  | alone
  /-- There is a transaction; the flag marks the scope, or the one it joined. -/
  | within (flag : FlagId)
deriving DecidableEq, Repr

/-- Where a program runs. -/
structure Place where
  venue : Venue := .outside
  /-- Whether a suspended transaction has written. -/
  blocked : Bool := false
  /-- The writes of the scopes around it in the same transaction. -/
  below : List Write := []
  /-- The flags of the scopes around it, the innermost one first. -/
  flags : List FlagId := []

/-- What has come of a program so far. -/
structure Ledger where
  /-- The writes committed, in the order of their commits. -/
  committed : List Write := []
  /-- The writes that survive in the current scope. -/
  own : List Write := []
  /-- Whether the current transaction has written, or locks from its beginning. -/
  wrote : Bool := false
  /-- Whether the current transaction has the write lock. -/
  locks : Bool := false
  marked : FlagId → Bool := fun _ => false
  nextFlag : FlagId := 0

namespace Ledger

/-- Mark a scope around, if there is one. -/
def mark (l : Ledger) (p : Place) (depth : Nat) : Ledger :=
  match p.flags[depth]? with
  | some flag => { l with marked := fun i => if i = flag then true else l.marked i }
  | none => l

/-- Begin something of its own, which may lock from the beginning. -/
def enter (l : Ledger) (lock : Bool) : Ledger :=
  { l with own := [], wrote := lock, locks := lock, nextFlag := l.nextFlag + 1 }

/-- Go on with what was current before something of its own began. -/
def resume (l before : Ledger) : Ledger :=
  { l with own := before.own, wrote := before.wrote, locks := before.locks }

end Ledger

/-- The place of a scope of another venue, which suspends the current transaction. -/
def Place.aside (p : Place) (venue : Venue) (l : Ledger) : Place :=
  { venue, blocked := p.blocked || l.wrote, flags := l.nextFlag :: p.flags }

/-- The place of a scope that divides the current transaction. -/
def Place.inner (p : Place) (l : Ledger) : Place :=
  { p with venue := .within l.nextFlag, below := p.below ++ l.own, flags := l.nextFlag :: p.flags }

/-! ## The meaning of writes -/

namespace Premises

variable (g : Premises δ α)

/-- The error of a failure of the driver. -/
def failure (e : DriverError) (query : QueryDisplay) : Error :=
  g.database.dialect.convertError e query

/-- The contents that a program sees. -/
def contents (p : Place) (l : Ledger) : δ :=
  replay g.schema (l.committed ++ p.below ++ l.own) g.initial

/-- Carry out queries one after the other, up to the first failure. The writes done
so far stay done. -/
def carryOut (accept : δ → Except DriverError Unit) :
    List (Query α × List Cell) → δ → List Write × Except Error (List UpdateResult)
  | [], _ => ([], .ok [])
  | (q, cells) :: rest, d =>
    match Storage.checked accept (g.schema.update q.sql cells d) with
    | .error e => ([], .error (g.failure e q.display))
    | .ok changed =>
      let (done, result) := carryOut accept rest changed.contents
      (⟨q.sql, cells⟩ :: done, result.map (changed.result :: ·))

/-- End a transaction: its writes are committed if its work ended well and it is not
marked. What it has changed must keep the constraints then. -/
def conclude (result : Except Error ρ) (marked : Bool) (l : Ledger) :
    Except Error ρ × List Write :=
  match result with
  | .error e => (.error e, l.committed)
  | .ok x =>
    if marked then (.ok x, l.committed)
    else
      match if l.locks then g.schema.check (g.contents {} l) else .ok () with
      | .error e => (.error (g.failure e (Manager.describe "COMMIT")), l.committed)
      | .ok _ => (.ok x, l.committed ++ l.own)

/-- Run the queries of a write where they are let through. -/
def writeAt (queries : List (Query α × List Cell)) (p : Place) (l : Ledger) :
    Except Error (List UpdateResult) × Ledger :=
  match p.venue with
  | .within _ =>
    let (done, result) := g.carryOut (fun _ => .ok ()) queries (g.contents p l)
    (result, { l with
      own := l.own ++ done, wrote := true, locks := l.locks || !queries.isEmpty })
  | .alone =>
    let (done, result) := g.carryOut g.schema.check queries (g.contents p l)
    (result, { l with committed := l.committed ++ done })
  | .outside =>
    match g.settings.implicitIsolation? with
    | none => (.error (.noActiveTransaction .implicitDisabled), l)
    | some isolation =>
      let (done, result) := g.carryOut (fun _ => .ok ()) queries (g.contents p l)
      let locks := g.database.dialect.locksOnBegin isolation || !queries.isEmpty
      let (result, committed) := g.conclude result false { l with own := done, locks }
      (result, { l with committed })

/-- The cells of all queries of a write. -/
def cellsOf (operation : WriteOperation α) : Except Error (List (List Cell)) :=
  operation.queries.mapM fun q => g.database.cells g.settings.enumMode q.arguments

/-- Write: resolve all arguments, then run unless a suspended transaction blocks. -/
def write (operation : WriteOperation α) (p : Place) (l : Ledger) :
    Except Error Answer × Ledger :=
  match g.cellsOf operation with
  | .error e => (.error e, l)
  | .ok cells =>
    if p.blocked then (.error suspendedWriter, l)
    else
      let (result, l) := g.writeAt (operation.queries.zip cells) p l
      (result.map operation.answer, l)

end Premises

/-! ## The meaning of programs -/

/-- What a scope does where it is run. -/
inductive Manner where
  /-- It does not run. -/
  | refuse (e : Error)
  /-- It begins a transaction of its own. -/
  | begin
  /-- It divides the current transaction. -/
  | divide
  /-- It joins the current scope, whose flag it shares. -/
  | join (flag : FlagId)
  /-- It runs without a transaction. -/
  | free

/-- What a scope of a propagation does in a venue. -/
def Venue.manner : Venue → Propagation → Manner
  | within _, .never => .refuse (.illegalTransactionState .never)
  | within _, .requiresNew => .begin
  | within _, .nested => .divide
  | within _, .notSupported => .free
  | within flag, _ => .join flag
  | _, .mandatory => .refuse (.noActiveTransaction .mandatory)
  | _, .supports => .free
  | _, .notSupported => .free
  | _, .never => .free
  | _, _ => .begin

/-- Whether the work of a scope ended well. -/
def endedWell : Except Error ρ → Bool
  | .ok _ => true
  | .error _ => false

/-- What becomes of the ledger in some work, and what the work comes to. -/
abbrev Account (ρ : Type) := Place → Ledger → Except Error ρ × Ledger

/-- What a scope makes of its work. -/
def Premises.enclose (g : Premises δ α) (settings : TransactionSettings) (work : Account ρ) :
    Account ρ := fun p l =>
  match p.venue.manner settings.propagation with
  | .refuse e => (.error e, l)
  | .join flag => work { p with flags := flag :: p.flags } l
  | .free =>
    let (result, after) := work (p.aside .alone l) (l.enter false)
    (result, after.resume l)
  | .begin =>
    let lock := g.database.dialect.locksOnBegin settings.isolation
    if lock && (p.blocked || l.wrote) then (.error suspendedWriter, l)
    else
      let (result, after) := work (p.aside (.within l.nextFlag) l) (l.enter lock)
      let (result, committed) := g.conclude result (after.marked l.nextFlag) after
      (result, { after.resume l with committed })
  | .divide =>
    let (result, after) := work (p.inner l) { l with own := [], nextFlag := l.nextFlag + 1 }
    let kept := endedWell result && !after.marked l.nextFlag
    (result, { after with own := if kept then l.own ++ after.own else l.own })

/-- What a program means: its result, and what becomes of the ledger. -/
def Program.meaning (g : Premises δ α) : Program α ρ → Account ρ
  | finish result, _, l => (result, l)
  | write operation next, p, l =>
    let (result, l) := g.write operation p l
    (next result).meaning g p l
  | setRollbackOnly depth next, p, l => next.meaning g p (l.mark p depth)
  | scope propagation isolation work next, p, l =>
    let settings := g.settings.normalize { propagation, isolation }
    let (result, l) := g.enclose settings (fun p l => work.meaning g p l) p l
    (next result).meaning g p l

end RowMapping
