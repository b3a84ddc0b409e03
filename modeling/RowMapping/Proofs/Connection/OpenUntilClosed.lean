/-
A database that was connected to is open until it is closed through a handle of its own.

Whether a database is closed is kept with the database, and what is cached is kept by path. An
application can have handles of several databases of one path, since closing forgets a path but
no handle. So a path that is forgotten says nothing about the databases of the path: what closes
a database is closing or removing it through one of its own handles, and nothing else.
-/
import RowMapping.Proofs.Connection.Cache

set_option autoImplicit false

namespace RowMapping

namespace ConnectionManager

variable {s : ConnectionManager} {n : Nat} {d : OpenDatabase}

/-! ## Closing through a handle -/

/-- Whether an operation closes a database through a handle of it. -/
def closes (n : Nat) (s : ConnectionManager) : HandleOperation → Bool
  | .close name | .remove name => (s.handle? name).any fun h => h.database == n
  | .connect .. | .drop _ => false

/-- Whether one of the operations closes a database through a handle that it has by then. -/
def closesAmong (n : Nat) : ConnectionManager → List HandleOperation → Bool
  | _, [] => false
  | s, operation :: rest => s.closes n operation || (s.perform operation).closesAmong n rest

/-! ## What becomes of one database -/

/-- Closing a database leaves all others as they are. -/
theorem getElem?_closeDatabase (hd : s.databases[n]? = some d) (m : Nat) :
    (s.closeDatabase m).databases[n]? = some { d with closed := d.closed || m == n } := by
  unfold closeDatabase
  split
  · rename_i hnone
    -- a number without a database is not the number of this one
    have hne : m ≠ n := by
      intro heq
      rw [heq, hd] at hnone
      cases hnone
    rw [hd, beq_false_of_ne hne, Bool.or_false]
  · rename_i d' hd'
    show (s.databases.set m { d' with closed := true })[n]? = _
    rw [getElem?_set_closed hd']
    by_cases heq : m = n
    · subst heq
      obtain rfl : d' = d := Option.some.inj (hd'.symm.trans hd)
      rw [if_pos rfl, beq_self_eq_true, Bool.or_true]
    · rw [if_neg heq, hd, beq_false_of_ne heq, Bool.or_false]

theorem getElem?_close (hd : s.databases[n]? = some d) (name : String) :
    (s.close name).databases[n]?
      = some { d with closed := d.closed || (s.handle? name).any fun h => h.database == n } := by
  unfold close
  rcases s.handle? name with _ | h
  · simpa using hd
  · exact getElem?_closeDatabase hd h.database

/-- Connecting leaves the databases there are. -/
theorem Connected.getElem? {name path : String} {failure : Option OpenFailure}
    {r : Except ConnectionError Nat × ConnectionManager} (h : Connected name path failure s r)
    (hd : s.databases[n]? = some d) : r.2.databases[n]? = some d := by
  cases h with
  | unnamed | found => exact hd
  | failed _ _ _ hsame =>
    rw [hsame.databases]
    exact hd
  | inMemory _ _ ho => exact ho.old hd
  | opened _ _ _ ho => exact ho.old hd

/-- One operation closes a database if it does so through a handle of it, and does nothing else
to it. -/
theorem getElem?_perform (hd : s.databases[n]? = some d) (operation : HandleOperation) :
    (s.perform operation).databases[n]?
      = some { d with closed := d.closed || s.closes n operation } := by
  cases operation with
  | connect name path settings failure =>
    rw [closes, Bool.or_false]
    exact (connected name path settings failure s).getElem? hd
  | close name => exact getElem?_close hd name
  | remove name =>
    rw [perform, (sameDatabases_remove name s).databases]
    exact getElem?_close hd name
  | drop name =>
    rw [closes, Bool.or_false]
    exact hd

/-- A run closes a database if one of its operations does so through a handle of it, and does
nothing else to it. -/
theorem getElem?_performAll (hd : s.databases[n]? = some d) (operations : List HandleOperation) :
    (s.performAll operations).databases[n]?
      = some { d with closed := d.closed || s.closesAmong n operations } := by
  induction operations generalizing s d with
  | nil =>
    rw [closesAmong, Bool.or_false]
    exact hd
  | cons operation rest ih =>
    rw [closesAmong, ← Bool.or_assoc]
    exact ih (getElem?_perform hd operation)

/-! ## Using a database -/

/-- A connection is of the pool, and there is one if and only if there is a pool. -/
theorem acquire_eq (name : String) (s : ConnectionManager) :
    s.acquire name = (s.pool name).map ConnectionPool.volume := by
  unfold acquire pool
  rcases s.database? name with _ | d
  · rfl
  · by_cases hclosed : d.closed = true
    · simp only [if_pos hclosed]
      rfl
    · simp only [if_neg hclosed]
      rfl

/-- The pool of a database is refused once it was closed through a handle of it. -/
theorem pool_performAll (hd : s.databases[n]? = some d) (hopen : d.closed = false)
    (operations : List HandleOperation) {name : String} {h : Handle}
    (hname : (s.performAll operations).handle? name = some h) (hn : h.database = n) :
    (s.performAll operations).pool name
      = if s.closesAmong n operations then .error .closed else .ok (connectionPool d) := by
  have hdatabase : (s.performAll operations).database? name
      = some { d with closed := s.closesAmong n operations } := by
    rw [database?, hname, Option.bind_some, hn, getElem?_performAll hd, hopen, Bool.false_or]
  simp only [pool, hdatabase]
  rfl

/-! ## Connecting -/

/-- A handle that was just given a name is found by it. -/
theorem handle?_refer (name path : String) (n : Nat) (s : ConnectionManager) :
    (s.refer name path n).handle? name = some ⟨name, path, n⟩ := by
  simp only [handle?, refer, List.find?_cons_of_pos, beq_self_eq_true]

/-- What remembering a database leaves in the cache: itself, and what a handle refers to. -/
theorem referenced_of_mem_remember {path : String} {entry : String × Nat}
    (hentry : entry ∈ (s.remember path n).cache) (name : String) :
    ∃ h ∈ (⟨name, path, n⟩ : Handle) :: s.handles, h.database = entry.2 := by
  rcases Bool.or_eq_true_iff.mp (List.mem_filter.mp hentry).2 with hold | hnew
  · obtain ⟨h, hh, heq⟩ := List.any_eq_true.mp hold
    exact ⟨h, List.mem_cons_of_mem _ hh, by simpa using heq⟩
  · exact ⟨_, List.mem_cons_self, by simpa using (beq_iff_eq.mp hnew).symm⟩

/-- The outcome of connecting to a path: the handle refers to a database of the path that is
open. It is new if the path is one of a database in memory. If a file was opened, every cached
database is referred to by a handle, the returned one included. -/
structure Connects (name path : String) (s : ConnectionManager)
    (r : Except ConnectionError Nat × ConnectionManager) (n : Nat) : Prop where
  returns : r.1 = .ok n
  handle : r.2.handle? name = some ⟨name, path, n⟩
  database : ∃ d, r.2.databases[n]? = some d ∧ d.path = path ∧ d.closed = false
  new : isMemoryPath path = true → s.databases[n]? = none
  referenced : isMemoryPath path = false → s.cached? path = none →
    ∀ entry ∈ r.2.cache, ∃ h ∈ (⟨name, path, n⟩ : Handle) :: s.handles, h.database = entry.2

theorem Connected.connects {name path : String} {failure : Option OpenFailure}
    {r : Except ConnectionError Nat × ConnectionManager} (h : Connected name path failure s r)
    (hs : s.Consistent) (hempty : path.isEmpty = false)
    (hgood : failure = none ∨ s.mustOpen path = false) : ∃ n, Connects name path s r n := by
  cases h with
  | unnamed hunnamed => cases hempty.symm.trans hunnamed
  | failed _ hfailure hopens =>
    rcases hgood with hnone | hfound
    · cases hnone.symm.trans hfailure
    · cases hfound.symm.trans hopens
  | inMemory _ hmemory ho =>
    -- a database in memory is opened every time
    refine ⟨_, rfl, handle?_refer .., ho.new, fun _ => ?_, fun hfile => ?_⟩
    · exact List.getElem?_eq_none (Nat.le_of_eq ho.number.symm)
    · cases hmemory.symm.trans hfile
  | found hmemory hcached =>
    -- what the cache finds is open
    refine ⟨_, rfl, handle?_refer .., hs.of_lookUp (lookUp_of_cached? hcached), fun h => ?_,
      fun _ hnone => ?_⟩
    · cases hmemory.symm.trans h
    · cases hcached.symm.trans hnone
  | opened _ hmemory _ ho =>
    refine ⟨_, rfl, handle?_refer .., ho.new, fun h => ?_, fun _ _ entry hentry => ?_⟩
    · cases hmemory.symm.trans h
    · rw [← ho.handles]
      exact referenced_of_mem_remember hentry name

/-- Connecting where a database has to be opened, and cannot be, leaves everything alone. -/
theorem Connected.leftAlone {name path : String} {f : OpenFailure}
    {r : Except ConnectionError Nat × ConnectionManager} (h : Connected name path (some f) s r)
    (hempty : path.isEmpty = false) (hopens : s.mustOpen path = true) :
    r.1 = .error (.driver f.source) ∧ SameDatabases s r.2 := by
  cases h with
  | unnamed hunnamed => cases hempty.symm.trans hunnamed
  | failed _ hfailure _ hsame =>
    cases hfailure
    exact ⟨rfl, hsame⟩
  | inMemory hfailure => cases hfailure
  | found hmemory hcached =>
    rw [mustOpen, hmemory, hcached] at hopens
    cases hopens
  | opened hfailure => cases hfailure

/-- Whatever an application did with its handles: no cached database is closed or in memory,
and connecting gives an open database, which can be used until it is closed through a handle of
its own, whatever else is done. If a database has to be opened and cannot be, connecting fails
with the driver's error, and nothing becomes of the databases, the handles and the cache. -/
theorem connect_openUntilClosed (operations : List HandleOperation) (name : String) {path : String}
    (hempty : path.isEmpty = false) (settings : ConnectionSettings)
    (failure : Option OpenFailure) :
    let s := performAll {} operations
    let r := s.connect name path settings failure
    (∀ entry ∈ s.cache, isMemoryPath entry.1 = false ∧ s.IsOpen entry.2) ∧
    (∀ f, failure = some f → s.mustOpen path = true →
      r.1 = .error (.driver f.source) ∧ SameDatabases s r.2) ∧
    (failure = none ∨ s.mustOpen path = false →
      ∃ n, Connects name path s r n ∧ ∃ connections : ConnectionPool,
        ∀ (rest : List HandleOperation) (other : String) (h : Handle),
          (r.2.performAll rest).handle? other = some h → h.database = n →
          (r.2.performAll rest).pool other
              = (if r.2.closesAmong n rest then .error .closed else .ok connections) ∧
            (r.2.performAll rest).acquire other
              = (if r.2.closesAmong n rest then .error .closed else .ok connections.volume)) := by
  intro s r
  have hs : s.Consistent := consistent_performAll consistent_empty operations
  have hconnected : Connected name path failure s r := connected name path settings failure s
  refine ⟨fun entry hentry => ?_, fun f hfailure hopens => ?_, fun hgood => ?_⟩
  · obtain ⟨hmemory, d, hd, -, hclosed⟩ := hs.cache entry hentry
    exact ⟨hmemory, d, hd, hclosed⟩
  · subst hfailure
    exact hconnected.leftAlone hempty hopens
  · obtain ⟨n, hconnects⟩ := hconnected.connects hs hempty hgood
    obtain ⟨d, hd, -, hclosed⟩ := hconnects.database
    refine ⟨n, hconnects, connectionPool d, ?_⟩
    intro rest other h hother hn
    have hpool := pool_performAll hd hclosed rest hother hn
    refine ⟨hpool, ?_⟩
    rw [acquire_eq, hpool]
    split <;> rfl

/-- A file is opened again after it was closed, and its first database is closed once more
through a handle that it still has. The second one is not refused. -/
theorem connect_openUntilClosed_staleHandle :
    let s := performAll {} [.connect "a" "f" {}, .connect "b" "f" {}, .close "a"]
    let r := s.connect "c" "f" {}
    "f".isEmpty = false ∧
    ∃ n, Connects "c" "f" s r n ∧ ∃ connections : ConnectionPool,
      (r.2.performAll [.close "b", .drop "a"]).pool "c" = .ok connections ∧
        (r.2.performAll [.close "b", .drop "a", .remove "c"]).acquire "c" = .error .closed := by
  intro s r
  have hempty : "f".isEmpty = false := by decide
  obtain ⟨n, hconnects, connections, huse⟩ := (connect_openUntilClosed
    [.connect "a" "f" {}, .connect "b" "f" {}, .close "a"] "c" hempty {} none).2.2 (.inl rfl)
  obtain rfl : n = 1 := (Except.ok.inj hconnects.returns).symm
  refine ⟨hempty, 1, hconnects, connections, ?_, ?_⟩
  · exact (huse [.close "b", .drop "a"] "c" ⟨"c", "f", 1⟩ (by decide) rfl).1
  · exact (huse [.close "b", .drop "a", .remove "c"] "c" ⟨"c", "f", 1⟩ (by decide) rfl).2

end ConnectionManager

end RowMapping
